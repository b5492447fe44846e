import Lulan.Api.Fingerprint
import Lulan.Proofs.Tokens
import Lulan.Proofs.Wasm

/-!
# Fingerprints tell requests apart

The canonical form of a request parses back to it, so requests with one fingerprint are one
request, and guests with one hash have one normalised contact.
-/

namespace Lulan.Proofs

open Http (Bytes asBytes)
open Lib (Json)
open Tokens Idempotency

section Canonical

variable {crates : Crates}

/-- Numbers and identifiers fit the types they have in the code. -/
structure LineFits (line : AncillaryLine) : Prop where
  tripId : ∀ id ∈ line.tripId, id < 2 ^ 128
  passenger : ∀ n ∈ line.passenger, n < 2 ^ 64
  quantity : -2 ^ 31 ≤ line.quantity ∧ line.quantity < 2 ^ 31

structure ItemFits (item : OrderItemRequest) : Prop where
  quantity : ∀ n ∈ item.quantity, -2 ^ 31 ≤ n ∧ n < 2 ^ 31
  passenger : ∀ n ∈ item.passenger, n < 2 ^ 64

/-- A request that a body can be parsed into. -/
structure RequestFits (req : CreateOrderRequest) : Prop where
  tripId : ∀ id ∈ req.tripId, id < 2 ^ 128
  items : ∀ items ∈ req.items, ∀ i ∈ items, ItemFits i
  journeys : ∀ journeys ∈ req.journeys, ∀ j ∈ journeys, j.tripId < 2 ^ 128 ∧ ∀ i ∈ j.items, ItemFits i
  holdId : ∀ id ∈ req.holdId, id < 2 ^ 128
  ancillaries : ∀ line ∈ req.ancillaries, LineFits line

lemma readOrderItem_json {item : OrderItemRequest} (h : ItemFits item) :
    readOrderItem (orderItemJson item) = some item := by
  have hquantity : Json.readOption readI32 (nullable Json.int item.quantity) = some item.quantity :=
    readOption_nullable (fun n hn => Json.readInt_int (h.quantity n hn)) (fun n hn => by cases hn)
  have hpassenger : Json.readOption readUsize (nullable (fun n : Nat => Json.int n) item.passenger) =
      some item.passenger :=
    readOption_nullable (fun n hn => readUsize_int (h.passenger n hn)) (fun n hn => by cases hn)
  simp [readOrderItem, orderItemJson, Json.source, Json.get_cons_self, Json.get_cons_other, Json.readStr,
    hquantity,
    hpassenger]

lemma readItems_json {items : List OrderItemRequest} (h : ∀ i ∈ items, ItemFits i) :
    Json.readList readOrderItem (itemsJson items) = some items :=
  Json.readList_map (fun i hi => readOrderItem_json (h i hi))

lemma readOrderJourney_json (hids : ReadsUuids crates) {journey : OrderJourneyRequest}
    (htrip : journey.tripId < 2 ^ 128) (h : ∀ i ∈ journey.items, ItemFits i) :
    readOrderJourney crates (orderJourneyJson crates journey) = some journey := by
  simp [readOrderJourney, orderJourneyJson, Json.source, Json.get_cons_self, Json.get_cons_other,
    readUuid_uuidJson hids htrip, readItems_json h]

lemma readPassenger_json (p : PassengerRequest) : readPassenger (passengerJson p) = some p := by
  have hbirthdate : Json.readOption Json.readStr (nullable Json.str p.birthdate) = some p.birthdate :=
    readOption_nullable (fun _ _ => rfl) (fun _ hs => by cases hs)
  unfold readPassenger passengerJson
  simp only [Json.source, Option.bind_eq_bind, Option.bind_some]
  rw [Json.get_cons_self (by simp), Json.readStr]
  simp only [Option.bind_some]
  rw [Json.get_cons_other (by simp), Json.get_cons_self (by simp), Json.readStr]
  simp only [Option.bind_some]
  rw [Json.get_cons_other (by simp), Json.get_cons_other (by simp), Json.get_cons_self (by simp), hbirthdate]
  rfl

lemma readLine_json (hids : ReadsUuids crates) {line : AncillaryLine} (h : LineFits line) :
    readAncillaryLine crates (lineJson crates line) = some line := by
  obtain ⟨code, tripId, passenger, quantity⟩ := line
  have hquantity : readI32 (.int quantity) = some quantity := Json.readInt_int h.quantity
  have htripId : ∀ id ∈ tripId, Json.readOption (readUuid crates) (uuidJson crates id) = some (some id) := by
    intro id hid
    rw [Json.readOption_of_ne_null (by rintro ⟨⟩), readUuid_uuidJson hids (h.tripId id hid), Option.map_some]
  have hpassenger : ∀ n ∈ passenger, Json.readOption readUsize (.int (n : Int)) = some (some n) := by
    intro n hn
    rw [Json.readOption_of_ne_null (by rintro ⟨⟩), readUsize_int (h.passenger n hn), Option.map_some]
  have hline (line : AncillaryLine) : readAncillaryLine crates (lineJson crates line) =
      readLine crates (.map (lineFields crates line)) := rfl
  rw [hline, lineFields]
  cases tripId with
  | none =>
    cases passenger with
    | none =>
      simp only [skipped, List.nil_append]
      simp [readLine, Json.get_cons_self, Json.get_cons_other, Json.readStr, hquantity]
    | some n =>
      simp only [skipped, List.nil_append]
      simp [readLine, Json.get_cons_self, Json.get_cons_other, Json.readStr, hquantity, hpassenger n rfl]
  | some id =>
    cases passenger with
    | none =>
      simp only [skipped, List.nil_append, List.cons_append]
      simp [readLine, Json.get_cons_self, Json.get_cons_other, Json.readStr, hquantity, htripId id rfl]
    | some n =>
      simp only [skipped, List.nil_append, List.cons_append]
      simp [readLine, Json.get_cons_self, Json.get_cons_other, Json.readStr, hquantity, htripId id rfl,
        hpassenger n rfl]

/-- The canonical form of a request parses back to it. -/
lemma readOrder_orderJson (hids : ReadsUuids crates) {req : CreateOrderRequest} (h : RequestFits req) :
    readOrder crates (orderJson crates req) = some req := by
  have hstr (s : Option String) : Json.readOption Json.readStr (nullable Json.str s) = some s :=
    readOption_nullable (fun _ _ => rfl) (fun _ hs => by cases hs)
  have hid {id : Option Uuid} (hlt : ∀ i ∈ id, i < 2 ^ 128) :
      Json.readOption (readUuid crates) (nullable (uuidJson crates) id) = some id :=
    readOption_nullable (fun i hi => readUuid_uuidJson hids (hlt i hi)) (fun _ hi => by cases hi)
  have hitems : Json.readOption (Json.readList readOrderItem) (nullable itemsJson req.items) = some req.items :=
    readOption_nullable (fun items hi => readItems_json (h.items items hi)) (fun _ hi => by cases hi)
  have hjourneys : Json.readOption (Json.readList (readOrderJourney crates))
      (nullable (journeysJson crates) req.journeys) = some req.journeys := by
    refine readOption_nullable (fun journeys hj => Json.readList_map (fun j hm => ?_)) (fun _ hj => by cases hj)
    obtain ⟨htrip, hitems⟩ := h.journeys journeys hj j hm
    exact readOrderJourney_json hids htrip hitems
  have hpassengers := Json.readList_map (fun p (_ : p ∈ req.passengers) => readPassenger_json p)
  have hlines := Json.readList_map (fun line hl => readLine_json hids (h.ancillaries line hl))
  simp [readOrder, orderJson, Json.source, Json.get_cons_self, Json.get_cons_other, hstr, hid h.tripId,
    hid h.holdId,
    hitems, hjourneys, hpassengers, hlines]

lemma fits_nullable {α : Type} {depth : Nat} {write : α → Json} {x : Option α}
    (h : ∀ a ∈ x, Json.Fits depth (write a)) : Json.Fits depth (nullable write x) := by
  cases x with
  | none => cases depth <;> trivial
  | some a => exact h a rfl

lemma fits_i32 {depth : Nat} {n : Int} (h : -2 ^ 31 ≤ n ∧ n < 2 ^ 31) : Json.Fits depth (.int n) :=
  fits_int (by omega)

lemma fits_usize {depth n : Nat} (h : n < 2 ^ 64) : Json.Fits depth (.int (n : Int)) :=
  fits_int (by omega)

lemma fits_orderItemJson {depth : Nat} {item : OrderItemRequest} (h : ItemFits item) :
    Json.Fits (depth + 1) (orderItemJson item) := by
  have hquantity : Json.Fits depth (nullable Json.int item.quantity) :=
    fits_nullable (fun n hn => fits_i32 (h.quantity n hn))
  have hpassenger : Json.Fits depth (nullable (fun n : Nat => Json.int n) item.passenger) :=
    fits_nullable (fun n hn => fits_usize (h.passenger n hn))
  simp [orderItemJson, hquantity, hpassenger]

lemma fits_itemsJson {depth : Nat} {items : List OrderItemRequest} (h : ∀ i ∈ items, ItemFits i) :
    Json.Fits (depth + 2) (itemsJson items) :=
  fits_arr_map.mpr (fun i hi => fits_orderItemJson (h i hi))

lemma fits_lineJson {depth : Nat} {line : AncillaryLine} (h : LineFits line) :
    Json.Fits (depth + 1) (lineJson crates line) := by
  obtain ⟨code, tripId, passenger, quantity⟩ := line
  have hquantity : Json.Fits depth (.int quantity) := fits_i32 h.quantity
  have hpassenger : ∀ n ∈ passenger, Json.Fits depth (.int (n : Int)) := fun n hn => fits_usize (h.passenger n hn)
  cases tripId <;> cases passenger <;>
    simp_all [lineJson, lineFields, skipped, uuidJson]

lemma fits_orderJson {req : CreateOrderRequest} (h : RequestFits req) : Json.Fits 127 (orderJson crates req) := by
  have hstr (s : Option String) : Json.Fits 126 (nullable Json.str s) := fits_nullable (fun s _ => fits_str s)
  have hid (id : Option Uuid) : Json.Fits 126 (nullable (uuidJson crates) id) :=
    fits_nullable (fun _ _ => fits_str _)
  have hitems : Json.Fits 126 (nullable itemsJson req.items) :=
    fits_nullable (fun items hi => fits_itemsJson (h.items items hi))
  have hjourneys : Json.Fits 126 (nullable (journeysJson crates) req.journeys) := by
    refine fits_nullable (fun journeys hj => fits_arr_map.mpr (fun j hm => ?_))
    have hfits : Json.Fits 124 (itemsJson j.items) := fits_itemsJson (h.journeys journeys hj j hm).2
    simp [orderJourneyJson, uuidJson, hfits]
  have hpassengers : Json.Fits 126 (.arr (req.passengers.map passengerJson)) := by
    refine fits_arr_map.mpr (fun p _ => ?_)
    have hbirthdate : Json.Fits 124 (nullable Json.str p.birthdate) := fits_nullable (fun s _ => fits_str s)
    simp [passengerJson, hbirthdate]
  have hlines : Json.Fits 126 (.arr (req.ancillaries.map (lineJson crates))) :=
    fits_arr_map.mpr (fun line hl => fits_lineJson (h.ancillaries line hl))
  simp [orderJson, hstr, hid, hitems, hjourneys, hpassengers, hlines]

/-- Requests with one canonical form are one request. -/
lemma orderJson_toVec_inj (hids : ReadsUuids crates) {req req' : CreateOrderRequest} (h : RequestFits req)
    (h' : RequestFits req') (heq : (orderJson crates req).toVec = (orderJson crates req').toVec) : req = req' := by
  have hjson := Json.toVec_inj (fits_orderJson h) (fits_orderJson h') heq
  apply Option.some.inj
  rw [← readOrder_orderJson hids h, hjson, readOrder_orderJson hids h']

end Canonical

section Hashes

variable {crates : Crates} {sha : Bytes → Bytes} {lower : String → String}

lemma base64_inj {a b : Bytes} (h : base64 a = base64 b) : a = b := by
  apply Option.some.inj
  rw [← unbase64_base64 a, h, unbase64_base64 b]

lemma requestHash_inj (hsha : Function.Injective sha) (hids : ReadsUuids crates) {req req' : CreateOrderRequest}
    (h : RequestFits req) (h' : RequestFits req')
    (heq : requestHash crates sha req = requestHash crates sha req') :
    req = req' :=
  orderJson_toVec_inj hids h h' (hsha (base64_inj heq))

/-- Guests with one hash have one normalised contact. -/
lemma contactHash_inj (hsha : Function.Injective sha) {contact contact' : String}
    (heq : contactHash sha lower contact = contactHash sha lower contact') :
    normalised lower contact = normalised lower contact' :=
  String.toList_inj.mp (utf8_injective (hsha (base64_inj heq)))

end Hashes

end Lulan.Proofs
