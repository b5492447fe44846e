import Mathlib.Data.String.Basic
import Lulan.Lib.JsonText
import Lulan.Pricing.Rules

/-!
# The wire format of pricing modules

Requests and responses as JSON, with the fields that are skipped or defaulted.
-/

namespace Lulan.Rules

open Lib (Json)

/-- The wire request a pricing module receives. -/
structure PriceRequest where
  rules : FareRuleSet
  input : RuleInput
deriving DecidableEq

/-- The wire response a pricing module returns. -/
structure PriceResponse where
  ok : Option Quote
  err : Option String
deriving DecidableEq

/-! ### Maps -/

section Map

variable {α : Type}

/-- The entries after a key was given a value. -/
def insertEntry (key : String) (a : α) : List (String × α) → List (String × α)
  | [] => [(key, a)]
  | (k, b) :: rest =>
    if key < k then (key, a) :: (k, b) :: rest
    else if key = k then (key, a) :: rest
    else (k, b) :: insertEntry key a rest

lemma mem_keys_insertEntry {key k : String} {a : α} {entries : List (String × α)}
    (h : k ∈ (insertEntry key a entries).map Prod.fst) : k = key ∨ k ∈ entries.map Prod.fst := by
  induction entries with
  | nil => exact Or.inl (List.mem_singleton.mp h)
  | cons e rest ih =>
    rw [insertEntry] at h
    split_ifs at h with hlt heq
    · exact List.mem_cons.mp h
    · rw [List.map_cons, List.mem_cons] at h
      exact h.imp_right (List.mem_cons_of_mem e.1)
    · rw [List.map_cons, List.mem_cons] at h
      obtain rfl | h := h
      · exact Or.inr List.mem_cons_self
      · exact (ih h).imp_right (List.mem_cons_of_mem e.1)

lemma sorted_insertEntry {key : String} {a : α} {entries : List (String × α)}
    (h : (entries.map Prod.fst).Pairwise (· < ·)) :
    ((insertEntry key a entries).map Prod.fst).Pairwise (· < ·) := by
  induction entries with
  | nil => exact List.pairwise_singleton _ _
  | cons e rest ih =>
    obtain ⟨hhead, hrest⟩ := List.pairwise_cons.mp h
    rw [insertEntry]
    split_ifs with hlt heq
    · apply List.Pairwise.cons _ h
      intro k hk
      obtain rfl | hk := List.mem_cons.mp hk
      · exact hlt
      · exact lt_trans hlt (hhead k hk)
    · rw [List.map_cons, heq]
      exact h
    · apply List.Pairwise.cons _ (ih hrest)
      intro k hk
      obtain rfl | hk := mem_keys_insertEntry hk
      · exact lt_of_le_of_ne (not_lt.mp hlt) (Ne.symm heq)
      · exact hhead k hk

namespace BTreeMap

lemma sorted_nil : (([] : List (String × α)).map Prod.fst).Pairwise (· < ·) := List.Pairwise.nil

def empty : BTreeMap α := ⟨[], sorted_nil⟩

def insert (m : BTreeMap α) (key : String) (a : α) : BTreeMap α :=
  ⟨insertEntry key a m.entries, sorted_insertEntry m.sorted⟩

/-- The entries of a map, read one after the other. -/
def ofEntries (entries : List (String × α)) : BTreeMap α :=
  entries.foldl (fun m e => m.insert e.1 e.2) empty

end BTreeMap

end Map

/-! ### Writing -/

def int64Json (n : Int64) : Json := .int n.toInt

def int32Json (n : Int32) : Json := .int n.toInt

def uint8Json (n : UInt8) : Json := .int n.toNat

def mapJson (m : BTreeMap Int64) : Json := .obj (m.entries.map (fun e => (e.1, int64Json e.2)))

def optionJson : Option String → Json
  | none => .null
  | some s => .str s

def occupancyTierJson (t : OccupancyTier) : Json :=
  .obj [("min_occupancy_bp", int64Json t.minOccupancyBp), ("surcharge_bp", int64Json t.surchargeBp)]

def advanceTierJson (t : AdvanceTier) : Json :=
  .obj [("min_days", int32Json t.minDays), ("discount_bp", int64Json t.discountBp)]

def rulesJson (rules : FareRuleSet) : Json := .obj [
  ("currency", .str rules.currency),
  ("base_fare_per_segment", mapJson rules.baseFarePerSegment),
  ("peak_weekdays", .arr (rules.peakWeekdays.map uint8Json)),
  ("peak_surcharge_bp", int64Json rules.peakSurchargeBp),
  ("occupancy_tiers", .arr (rules.occupancyTiers.map occupancyTierJson)),
  ("advance_purchase_tiers", .arr (rules.advancePurchaseTiers.map advanceTierJson)),
  ("promos", mapJson rules.promos),
  ("passenger_type_discounts", mapJson rules.passengerTypeDiscounts),
  ("round_trip_discount_bp", int64Json rules.roundTripDiscountBp)]

def inputJson (input : RuleInput) : Json := .obj [
  ("fare_key", .str input.fareKey),
  ("segments", uint8Json input.segments),
  ("quantity", int32Json input.quantity),
  ("weekday", uint8Json input.weekday),
  ("days_before_departure", int32Json input.daysBeforeDeparture),
  ("occupancy_bp", int64Json input.occupancyBp),
  ("promo_code", optionJson input.promoCode),
  ("passenger_type", optionJson input.passengerType),
  ("journey_count", .int input.journeyCount.toNat),
  ("is_round_trip", .bool input.isRoundTrip)]

def adjustmentJson (a : Adjustment) : Json :=
  .obj [("label", .str a.label), ("amount_minor", int64Json a.amountMinor)]

def quoteJson (quote : Quote) : Json := .obj [
  ("currency", .str quote.currency),
  ("base_minor", int64Json quote.baseMinor),
  ("adjustments", .arr (quote.adjustments.map adjustmentJson)),
  ("total_minor", int64Json quote.totalMinor)]

def requestJson (request : PriceRequest) : Json :=
  .obj [("rules", rulesJson request.rules), ("input", inputJson request.input)]

/-- A field that is not there is skipped. -/
def responseJson (response : PriceResponse) : Json :=
  .obj ((response.ok.map (fun quote => ("ok", quoteJson quote))).toList ++
    (response.err.map (fun err => ("err", Json.str err))).toList)

/-! ### Reading -/

def readInt64 (value : Json) : Option Int64 := (Json.readInt (-2 ^ 63) (2 ^ 63) value).map Int64.ofInt

def readInt32 (value : Json) : Option Int32 := (Json.readInt (-2 ^ 31) (2 ^ 31) value).map Int32.ofInt

def readUInt8 (value : Json) : Option UInt8 := (Json.readInt 0 (2 ^ 8) value).map (fun n => UInt8.ofNat n.toNat)

def readUInt32 (value : Json) : Option UInt32 :=
  (Json.readInt 0 (2 ^ 32) value).map (fun n => UInt32.ofNat n.toNat)

def readBool : Json → Option Bool
  | .bool b => some b
  | _ => none

/-- The last entry of a key counts. -/
def readMap : Json → Option (BTreeMap Int64)
  | .obj fields => (fields.mapM (fun f => (readInt64 f.2).map (fun n => (f.1, n)))).map BTreeMap.ofEntries
  | _ => none

def readOccupancyTier (value : Json) : Option OccupancyTier := do
  let source ← value.source 2
  let minOccupancyBp ← source.get "min_occupancy_bp" 0 none readInt64
  let surchargeBp ← source.get "surcharge_bp" 1 none readInt64
  return ⟨minOccupancyBp, surchargeBp⟩

def readAdvanceTier (value : Json) : Option AdvanceTier := do
  let source ← value.source 2
  let minDays ← source.get "min_days" 0 none readInt32
  let discountBp ← source.get "discount_bp" 1 none readInt64
  return ⟨minDays, discountBp⟩

def readRules (value : Json) : Option FareRuleSet := do
  let source ← value.source 9
  let currency ← source.get "currency" 0 none Json.readStr
  let baseFarePerSegment ← source.get "base_fare_per_segment" 1 none readMap
  let peakWeekdays ← source.get "peak_weekdays" 2 (some []) (Json.readList readUInt8)
  let peakSurchargeBp ← source.get "peak_surcharge_bp" 3 (some 0) readInt64
  let occupancyTiers ← source.get "occupancy_tiers" 4 (some []) (Json.readList readOccupancyTier)
  let advancePurchaseTiers ← source.get "advance_purchase_tiers" 5 (some []) (Json.readList readAdvanceTier)
  let promos ← source.get "promos" 6 (some .empty) readMap
  let passengerTypeDiscounts ← source.get "passenger_type_discounts" 7 (some .empty) readMap
  let roundTripDiscountBp ← source.get "round_trip_discount_bp" 8 (some 0) readInt64
  return ⟨currency, baseFarePerSegment, peakWeekdays, peakSurchargeBp, occupancyTiers, advancePurchaseTiers,
    promos, passengerTypeDiscounts, roundTripDiscountBp⟩

def readInput (value : Json) : Option RuleInput := do
  let source ← value.source 10
  let fareKey ← source.get "fare_key" 0 none Json.readStr
  let segments ← source.get "segments" 1 none readUInt8
  let quantity ← source.get "quantity" 2 none readInt32
  let weekday ← source.get "weekday" 3 none readUInt8
  let daysBeforeDeparture ← source.get "days_before_departure" 4 none readInt32
  let occupancyBp ← source.get "occupancy_bp" 5 none readInt64
  let promoCode ← source.get "promo_code" 6 (some none) (Json.readOption Json.readStr)
  let passengerType ← source.get "passenger_type" 7 (some none) (Json.readOption Json.readStr)
  let journeyCount ← source.get "journey_count" 8 (some 1) readUInt32
  let isRoundTrip ← source.get "is_round_trip" 9 (some false) readBool
  return ⟨fareKey, segments, quantity, weekday, daysBeforeDeparture, occupancyBp, promoCode, passengerType,
    journeyCount, isRoundTrip⟩

def readAdjustment (value : Json) : Option Adjustment := do
  let source ← value.source 2
  let label ← source.get "label" 0 none Json.readStr
  let amountMinor ← source.get "amount_minor" 1 none readInt64
  return ⟨label, amountMinor⟩

def readQuote (value : Json) : Option Quote := do
  let source ← value.source 4
  let currency ← source.get "currency" 0 none Json.readStr
  let baseMinor ← source.get "base_minor" 1 none readInt64
  let adjustments ← source.get "adjustments" 2 none (Json.readList readAdjustment)
  let totalMinor ← source.get "total_minor" 3 none readInt64
  return ⟨currency, baseMinor, adjustments, totalMinor⟩

def readRequest (value : Json) : Option PriceRequest := do
  let source ← value.source 2
  let rules ← source.get "rules" 0 none readRules
  let input ← source.get "input" 1 none readInput
  return ⟨rules, input⟩

def readResponse (value : Json) : Option PriceResponse := do
  let source ← value.source 2
  let ok ← source.get "ok" 0 (some none) (Json.readOption readQuote)
  let err ← source.get "err" 1 (some none) (Json.readOption Json.readStr)
  return ⟨ok, err⟩

end Lulan.Rules
