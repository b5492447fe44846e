import Lulan.Holds.Store

/-!
# The registry texts

The values of the registry and itinerary keys as they are written and read back.
-/

namespace Lulan.Holds

/-- How an identifier is written and parsed. -/
structure UuidText where
  write : Uuid → List Char
  read : List Char → Option Uuid

namespace UuidText

variable (u : UuidText)

/-- `trip:unit`. -/
def seatText (trip unit : Uuid) : String := String.ofList (u.write trip ++ ':' :: u.write unit)

/-- `split_once(':')` and both sides parsed. -/
def readSeat (value : String) : Option (Uuid × Uuid) :=
  match value.toList.dropWhile (fun c => c ≠ ':') with
  | [] => none
  | _ :: unit => do return (← u.read (value.toList.takeWhile (fun c => c ≠ ':')), ← u.read unit)

/-- `hold:trip:unit`. -/
def memberText (m : Uuid × Uuid × Uuid) : List Char :=
  u.write m.1 ++ ':' :: (u.write m.2.1 ++ ':' :: u.write m.2.2)

def readMember (text : List Char) : Option (Uuid × Uuid × Uuid) :=
  match text.splitOn ':' with
  | [hold, trip, unit] => do return (← u.read hold, ← u.read trip, ← u.read unit)
  | _ => none

/-- The members of an itinerary, joined by `;`. -/
def itineraryText (members : List (Uuid × Uuid × Uuid)) : String :=
  String.ofList ([';'].intercalate (members.map u.memberText))

/-- The members that can be read; the others are left out. -/
def readItinerary (value : String) : List (Uuid × Uuid × Uuid) :=
  (value.toList.splitOn ';').filterMap u.readMember

/-- What is relied on: an identifier is read back as it was written, and its text has no separator. -/
structure Lawful : Prop where
  read_write : ∀ id, u.read (u.write id) = some id
  colon : ∀ id, ':' ∉ u.write id
  semicolon : ∀ id, ';' ∉ u.write id

variable {u}

lemma Lawful.readSeat_seatText (hu : u.Lawful) (trip unit : Uuid) : u.readSeat (u.seatText trip unit) = some (trip, unit) := by
  have hno : ∀ c ∈ u.write trip, decide (c ≠ ':') = true :=
    fun c hc => decide_eq_true (fun he => hu.colon trip (by rw [← he]; exact hc))
  have hstop : decide ((':' : Char) ≠ ':') = false := by decide
  rw [readSeat, seatText, String.toList_ofList, List.dropWhile_append_of_pos hno, List.takeWhile_append_of_pos hno,
    List.dropWhile_cons, List.takeWhile_cons, hstop]
  simp only [Bool.false_eq_true, if_false, List.append_nil, hu.read_write]
  rfl

lemma Lawful.readMember_memberText (hu : u.Lawful) (m : Uuid × Uuid × Uuid) : u.readMember (u.memberText m) = some m := by
  rw [readMember, memberText, List.splitOn_append_cons_self_of_not_mem (hu.colon _),
    List.splitOn_append_cons_self_of_not_mem (hu.colon _), List.splitOn_eq_singleton (hu.colon _)]
  simp only [hu.read_write]
  rfl

lemma Lawful.semicolon_member (hu : u.Lawful) (m : Uuid × Uuid × Uuid) : ';' ∉ u.memberText m := by
  rw [memberText]
  simp [hu.semicolon]

/-- An itinerary is read back as it was written. -/
theorem Lawful.readItinerary_itineraryText (hu : u.Lawful) (members : List (Uuid × Uuid × Uuid)) :
    u.readItinerary (u.itineraryText members) = members := by
  rw [readItinerary, itineraryText, String.toList_ofList]
  cases members with
  | nil => rfl
  | cons m rest =>
    have hsep : ∀ l ∈ (m :: rest).map u.memberText, ';' ∉ l := by
      intro l hl
      obtain ⟨m', -, rfl⟩ := List.mem_map.mp hl
      exact hu.semicolon_member m'
    rw [List.splitOn_intercalate ';' hsep (by simp), List.filterMap_map]
    have hread : u.readMember ∘ u.memberText = some := funext hu.readMember_memberText
    rw [hread, List.filterMap_some]

end UuidText

/-! ### The operations that read the texts -/

namespace HoldTexts

variable (u : UuidText)

/-- Release a hold by id, from the text of its registry key. -/
def release (holdId : Uuid) : Operation Bool := do
  match ← Operation.send (.getRegistry holdId) Reply.seat? with
  | none => return false
  | some (trip, unit) =>
    match u.readSeat (u.seatText trip unit) with
    | none =>
      Operation.send (.delRegistry holdId) Reply.ok?
      return true
    | some (trip, unit) =>
      Operation.send (.hdel trip unit holdId) Reply.ok?
      let remaining ← Operation.send (.hlen trip unit) Reply.int?
      if remaining = 0 then Operation.send (.srem trip [unit]) Reply.ok?
      Operation.send (.delRegistry holdId) Reply.ok?
      return true

/-- The members of an itinerary; `none` where its key has expired. -/
def itineraryRaw (holdId : Uuid) : Operation (Option (List (Uuid × Uuid × Uuid))) := do
  match ← Operation.send (.getItinerary holdId) Reply.itinerary? with
  | none => return none
  | some members => return some (u.readItinerary (u.itineraryText members))

/-- The seats an itinerary hold covers. -/
def itineraryMembers (holdId : Uuid) : Operation (Option (List (Uuid × Uuid))) := do
  let members ← itineraryRaw u holdId
  return members.map (List.map Prod.snd)

def releaseSeats : List (Uuid × Uuid × Uuid) → Operation Unit
  | [] => return ()
  | (seatHoldId, _, _) :: rest => do
    let _ ← release u seatHoldId
    releaseSeats rest

/-- Release every seat of an itinerary hold; false where it had already expired. -/
def releaseItinerary (holdId : Uuid) : Operation Bool := do
  match ← itineraryRaw u holdId with
  | none => return false
  | some members =>
    releaseSeats u members
    Operation.send (.delItinerary holdId) Reply.ok?
    return true

variable {u}

/-- Reading the texts gives what the store is modelled with. -/
lemma release_eq (hu : u.Lawful) (holdId : Uuid) : release u holdId = HoldStore.release holdId := by
  unfold release
  simp only [hu.readSeat_seatText]
  rfl

lemma itineraryRaw_eq (hu : u.Lawful) (holdId : Uuid) :
    itineraryRaw u holdId = Operation.send (.getItinerary holdId) Reply.itinerary? := by
  change Lib.Prog.tx (Command.getItinerary holdId) _ = Lib.Prog.tx (Command.getItinerary holdId) _
  congr 1
  funext reply
  cases reply with
  | itinerary members =>
    change Lib.Prog.ret (Except.ok (some (u.readItinerary (u.itineraryText members)))) = _
    rw [hu.readItinerary_itineraryText]
    rfl
  | _ => rfl

lemma releaseSeats_eq (hu : u.Lawful) (members : List (Uuid × Uuid × Uuid)) :
    releaseSeats u members = HoldStore.releaseSeats members := by
  induction members with
  | nil => rfl
  | cons m rest ih =>
    unfold releaseSeats HoldStore.releaseSeats
    rw [release_eq hu, ih]

lemma releaseItinerary_eq (hu : u.Lawful) (holdId : Uuid) :
    releaseItinerary u holdId = HoldStore.releaseItinerary holdId := by
  unfold releaseItinerary
  simp only [itineraryRaw_eq hu, releaseSeats_eq hu]
  rfl

lemma itineraryMembers_eq (hu : u.Lawful) (holdId : Uuid) : itineraryMembers u holdId = (do
    let members ← Operation.send (.getItinerary holdId) Reply.itinerary?
    return members.map (List.map Prod.snd)) := by
  unfold itineraryMembers
  rw [itineraryRaw_eq hu]

end HoldTexts

end Lulan.Holds
