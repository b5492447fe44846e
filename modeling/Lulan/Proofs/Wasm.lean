import Lulan.Pricing.Wasm

/-!
# The reference pricing module prices like the native engine

Requests and responses survive the JSON they cross the boundary in, pointers and lengths survive
the word they are packed into, and a module that stays within its limits gives the outcome of
the native engine.
-/

namespace Lulan.Proofs

open Rules
open Lib (Json)

/-! ### Values are read back from what they are written as -/

/-- A key above all others goes last. -/
lemma insertEntry_last {α : Type} {key : String} {a : α} {entries : List (String × α)}
    (h : ∀ k ∈ entries.map Prod.fst, k < key) : insertEntry key a entries = entries ++ [(key, a)] := by
  induction entries with
  | nil => rfl
  | cons e rest ih =>
    have he : e.1 < key := h e.1 List.mem_cons_self
    rw [insertEntry, if_neg (lt_asymm he), if_neg (ne_of_gt he), ih
      (fun k hk => h k (List.mem_cons_of_mem e.1 hk))]
    rfl

/-- The entries of a map make the map again. -/
lemma ofEntries_entries {α : Type} (m : BTreeMap α) : BTreeMap.ofEntries m.entries = m := by
  have hfold : ∀ (rest : List (String × α)) (acc : BTreeMap α),
      ((acc.entries ++ rest).map Prod.fst).Pairwise (· < ·) →
      (rest.foldl (fun m e => m.insert e.1 e.2) acc).entries = acc.entries ++ rest := by
    intro rest
    induction rest with
    | nil => exact fun acc _ => (List.append_nil _).symm
    | cons e rest ih =>
      intro acc h
      have hlast : ∀ k ∈ acc.entries.map Prod.fst, k < e.1 := by
        rw [List.map_append, List.pairwise_append] at h
        exact fun k hk => h.2.2 k hk e.1 List.mem_cons_self
      have hentries : (acc.insert e.1 e.2).entries = acc.entries ++ [e] := insertEntry_last hlast
      rw [List.foldl_cons, ih _ (by rw [hentries, List.append_assoc]; exact h), hentries, List.append_assoc]
      rfl
  have hentries := hfold m.entries .empty m.sorted
  cases hm : BTreeMap.ofEntries m.entries with
  | mk entries sorted =>
    cases m with
    | mk entries' sorted' =>
      congr
      exact (congrArg BTreeMap.entries hm).symm.trans hentries

section Scalars

@[simp] lemma readInt64_int64Json (n : Int64) : readInt64 (int64Json n) = some n := by
  rw [readInt64, int64Json, Json.readInt_int ⟨n.le_toInt, n.toInt_lt⟩, Option.map_some, Int64.ofInt_toInt]

@[simp] lemma readInt32_int32Json (n : Int32) : readInt32 (int32Json n) = some n := by
  rw [readInt32, int32Json, Json.readInt_int ⟨n.le_toInt, n.toInt_lt⟩, Option.map_some, Int32.ofInt_toInt]

@[simp] lemma readUInt8_uint8Json (n : UInt8) : readUInt8 (uint8Json n) = some n := by
  have hlt := n.toNat_lt
  rw [readUInt8, uint8Json, Json.readInt_int (by omega), Option.map_some, Int.toNat_natCast, UInt8.ofNat_toNat]

@[simp] lemma readUInt32_int (n : UInt32) : readUInt32 (.int (n.toNat : Int)) = some n := by
  have hlt := n.toNat_lt
  rw [readUInt32, Json.readInt_int (by omega), Option.map_some, Int.toNat_natCast, UInt32.ofNat_toNat]

@[simp] lemma readOption_optionJson (s : Option String) :
    Json.readOption Json.readStr (optionJson s) = some s := by
  cases s <;> rfl

@[simp] lemma readMap_mapJson (m : BTreeMap Int64) : readMap (mapJson m) = some m := by
  have hentries : ∀ entries : List (String × Int64),
      (entries.map (fun e => (e.1, int64Json e.2))).mapM (fun f => (readInt64 f.2).map (fun n => (f.1, n))) =
        some entries := by
    intro entries
    induction entries with
    | nil => rfl
    | cons e entries ih =>
      rw [List.map_cons, List.mapM_cons, ih, readInt64_int64Json]
      rfl
  rw [mapJson, readMap, hentries, Option.map_some, ofEntries_entries]

end Scalars

lemma readOccupancyTier_json (t : OccupancyTier) : readOccupancyTier (occupancyTierJson t) = some t := by
  simp [readOccupancyTier, occupancyTierJson, Json.source, Json.get_cons_self, Json.get_cons_other]

lemma readAdvanceTier_json (t : AdvanceTier) : readAdvanceTier (advanceTierJson t) = some t := by
  simp [readAdvanceTier, advanceTierJson, Json.source, Json.get_cons_self, Json.get_cons_other]

lemma readAdjustment_json (a : Rules.Adjustment) : readAdjustment (adjustmentJson a) = some a := by
  simp [readAdjustment, adjustmentJson, Json.source, Json.get_cons_self, Json.get_cons_other, Json.readStr]

lemma readRules_json (rules : Rules.FareRuleSet) : readRules (rulesJson rules) = some rules := by
  have hweekdays := Json.readList_map (fun n (_ : n ∈ rules.peakWeekdays) => readUInt8_uint8Json n)
  have hoccupancy := Json.readList_map (fun t (_ : t ∈ rules.occupancyTiers) => readOccupancyTier_json t)
  have hadvance := Json.readList_map (fun t (_ : t ∈ rules.advancePurchaseTiers) => readAdvanceTier_json t)
  simp [readRules, rulesJson, Json.source, Json.get_cons_self, Json.get_cons_other, Json.readStr, hweekdays,
    hoccupancy, hadvance]

lemma readInput_json (input : Rules.RuleInput) : readInput (inputJson input) = some input := by
  simp [readInput, inputJson, Json.source, Json.get_cons_self, Json.get_cons_other, Json.readStr, readBool]

lemma readQuote_json (quote : Rules.Quote) : readQuote (quoteJson quote) = some quote := by
  have hadjustments := Json.readList_map (fun a (_ : a ∈ quote.adjustments) => readAdjustment_json a)
  simp [readQuote, quoteJson, Json.source, Json.get_cons_self, Json.get_cons_other, Json.readStr, hadjustments]

lemma readRequest_json (request : PriceRequest) : readRequest (requestJson request) = some request := by
  simp [readRequest, requestJson, Json.source, Json.get_cons_self, Json.get_cons_other, readRules_json,
    readInput_json]

lemma readResponse_json (response : PriceResponse) : readResponse (responseJson response) = some response := by
  obtain ⟨ok, err⟩ := response
  have hok : ∀ quote, Json.readOption readQuote (quoteJson quote) = some (some quote) := by
    intro quote
    rw [Json.readOption_of_ne_null (by rintro ⟨⟩), readQuote_json, Option.map_some]
  have herr : ∀ s, Json.readOption Json.readStr (.str s) = some (some s) := fun s => rfl
  cases ok <;> cases err <;>
    simp [readResponse, responseJson, Json.source, Json.get_cons_self, Json.get_cons_other, hok, herr]

/-! ### What is written fits a text -/

section Fits

variable {depth : Nat}

@[simp] lemma fits_str (s : String) : Json.Fits depth (.str s) := by
  cases depth <;> trivial

@[simp] lemma fits_bool (b : Bool) : Json.Fits depth (.bool b) := by
  cases depth <;> trivial

lemma fits_int {n : Int} (h : -2 ^ 63 ≤ n ∧ n < 2 ^ 64) : Json.Fits depth (.int n) := by
  cases depth <;> exact h

@[simp] lemma fits_int64Json (n : Int64) : Json.Fits depth (int64Json n) := by
  have hlo := n.le_toInt
  have hhi := n.toInt_lt
  exact fits_int (by omega)

@[simp] lemma fits_int32Json (n : Int32) : Json.Fits depth (int32Json n) := by
  have hlo := n.le_toInt
  have hhi := n.toInt_lt
  exact fits_int (by omega)

@[simp] lemma fits_uint8Json (n : UInt8) : Json.Fits depth (uint8Json n) := by
  have hlt := n.toNat_lt
  exact fits_int (by omega)

@[simp] lemma fits_uint32 (n : UInt32) : Json.Fits depth (.int (n.toNat : Int)) := by
  have hlt := n.toNat_lt
  exact fits_int (by omega)

@[simp] lemma fits_optionJson (s : Option String) : Json.Fits depth (optionJson s) := by
  cases s <;> cases depth <;> trivial

@[simp] lemma fits_obj {fields : List (String × Json)} :
    Json.Fits (depth + 1) (.obj fields) ↔ ∀ f ∈ fields, Json.Fits depth f.2 := Iff.rfl

@[simp] lemma fits_arr_map {α : Type} {items : List α} {write : α → Json} :
    Json.Fits (depth + 1) (.arr (items.map write)) ↔ ∀ a ∈ items, Json.Fits depth (write a) :=
  List.forall_mem_map

@[simp] lemma fits_mapJson (m : BTreeMap Int64) : Json.Fits (depth + 1) (mapJson m) := by
  intro f hf
  obtain ⟨e, -, rfl⟩ := List.mem_map.mp hf
  exact fits_int64Json e.2

lemma fits_requestJson (request : PriceRequest) : Json.Fits 127 (requestJson request) := by
  simp [requestJson, rulesJson, inputJson, occupancyTierJson, advanceTierJson]

lemma fits_responseJson (response : PriceResponse) : Json.Fits 127 (responseJson response) := by
  obtain ⟨ok, err⟩ := response
  cases ok <;> cases err <;> simp [responseJson, quoteJson, adjustmentJson]

end Fits

/-- A request survives its way into the module. -/
lemma request_round_trip (request : PriceRequest) :
    (Json.fromSlice (requestJson request).toVec).bind readRequest = some request := by
  rw [Json.fromSlice_toVec (fits_requestJson request), Option.bind_some, readRequest_json]

/-- A response survives its way back. -/
lemma response_round_trip (response : PriceResponse) :
    (Json.fromSlice (responseJson response).toVec).bind readResponse = some response := by
  rw [Json.fromSlice_toVec (fits_responseJson response), Option.bind_some, readResponse_json]

/-! ### The calling convention -/

section Abi

variable {ptr len : Nat}

/-- A pointer and a length survive in one signed word. -/
lemma unpack_pack (hptr : ptr < 2 ^ 32) (hlen : len < 2 ^ 32) :
    WasmEngine.unpack (Guest.pack (UInt64.ofNat ptr) (UInt64.ofNat len)) = (ptr, len) := by
  have hword : ((UInt64.ofNat ptr <<< 32) ||| UInt64.ofNat len).toNat = ptr * 2 ^ 32 + len := by
    rw [UInt64.toNat_or, UInt64.toNat_shiftLeft, UInt64.toNat_ofNat_of_lt' (Nat.lt_trans hptr (by decide)),
      UInt64.toNat_ofNat_of_lt' (Nat.lt_trans hlen (by decide))]
    change (ptr <<< 32) % 2 ^ 64 ||| len = _
    rw [Nat.mod_eq_of_lt (by rw [Nat.shiftLeft_eq]; omega), ← Nat.shiftLeft_add_eq_or_of_lt hlen, Nat.shiftLeft_eq]
  simp only [WasmEngine.unpack, Guest.pack, UInt64.toUInt64_toInt64, UInt64.toNat_shiftRight, UInt64.toNat_and,
    hword]
  change ((ptr * 2 ^ 32 + len) >>> 32, (ptr * 2 ^ 32 + len) &&& (2 ^ 32 - 1)) = _
  rw [Nat.shiftRight_eq_div_pow, Nat.and_two_pow_sub_one_eq_mod]
  congr 1 <;> omega

lemma toNat_toUInt32_ofNat (h : ptr < 2 ^ 31) : (Int32.ofNat ptr).toUInt32.toNat = ptr := by
  change (UInt32.ofNat ptr).toNat = ptr
  exact UInt32.toNat_ofNat_of_lt' (Nat.lt_trans h (by decide))

lemma index_ofNat (h : ptr < 2 ^ 31) : WasmEngine.index (Int32.ofNat ptr) = ptr := by
  have h64 : (Int32.ofNat ptr).toInt64 = Int64.ofNat ptr := by
    apply Int64.toInt_inj.mp
    rw [Int32.toInt_toInt64, Int32.toInt_ofNat_of_lt h, Int64.toInt_ofNat_of_lt (by omega)]
  rw [WasmEngine.index, h64]
  change (UInt64.ofNat ptr).toNat = ptr
  exact UInt64.toNat_ofNat_of_lt' (Nat.lt_trans h (by decide))

/-- A length below `2 ^ 31` arrives as it is. -/
lemma length_toNat {bytes : Bytes} (h : bytes.length < 2 ^ 31) :
    (max (WasmEngine.length bytes) 0).toInt.toNat = bytes.length := by
  have hlen : (WasmEngine.length bytes).toInt = bytes.length := Int32.toInt_ofNat_of_lt h
  have hmax : max (WasmEngine.length bytes) 0 = WasmEngine.length bytes := by
    change (if WasmEngine.length bytes ≤ 0 then 0 else WasmEngine.length bytes) = WasmEngine.length bytes
    by_cases hle : WasmEngine.length bytes ≤ 0
    · rw [if_pos hle]
      apply Int32.toInt_inj.mp
      exact Int.le_antisymm (by rw [hlen]; exact Int.natCast_nonneg _) (Int32.le_iff_toInt_le.mp hle)
    · exact if_neg hle
  rw [hmax, hlen, Int.toNat_natCast]

variable {m m' : Memory} {start : Nat} {bytes : Bytes}

lemma get_write (h : m.write start bytes = some m') : m'.get start bytes.length = some bytes := by
  unfold Memory.write at h
  split_ifs at h with hle
  cases h
  have hlen : (m.take start).length = start := List.length_take_of_le (by omega)
  rw [Memory.get, if_pos (by simp only [List.length_append, hlen]; omega), List.append_assoc,
    List.drop_append_of_le_length (by omega), List.drop_of_length_le (by omega), List.nil_append, List.take_left]

lemma le_of_write (h : m.write start bytes = some m') : start + bytes.length ≤ m.length := by
  unfold Memory.write at h
  split_ifs at h with hle
  exact hle

lemma write_of_le (h : start + bytes.length ≤ m.length) : ∃ m', m.write start bytes = some m' := ⟨_, if_pos h⟩

lemma length_write (h : m.write start bytes = some m') : m'.length = m.length := by
  have hle := le_of_write h
  unfold Memory.write at h
  rw [if_pos hle] at h
  cases h
  rw [List.length_append, List.length_append, List.length_take_of_le (by omega), List.length_drop]
  omega

lemma le_of_get (h : m.get start len = some bytes) : start + len ≤ m.length := by
  unfold Memory.get at h
  split_ifs at h with hle
  exact hle

end Abi

/-! ### Runs of a module -/

section Runs

variable {onRequest onResponse : Bytes → String} {request : PriceRequest}

def requestBytes (request : PriceRequest) : Bytes := (requestJson request).toVec

lemma moduleErr_bind {α β : Type} {what : String} {x : Except String α} {f : α → Except PricingError β} {b : β} :
    (WasmEngine.moduleErr what x >>= f) = .ok b ↔ ∃ a, x = .ok a ∧ f a = .ok b := by
  constructor
  · intro h
    cases x with
    | error e => cases h
    | ok a => exact ⟨a, rfl, h⟩
  · rintro ⟨a, rfl, h⟩
    exact h

/-- A call of a module in which nothing fails. -/
structure Ran (guest : WasmEngine.Module) (request : PriceRequest) (bytes : Bytes) : Prop where
  run : ∃ s alloc price ptr s' m packed s'', guest.instantiate WasmEngine.limits = .ok s ∧
    guest.exportsMemory = true ∧ guest.alloc = .ok alloc ∧ guest.price = .ok price ∧
    alloc s (WasmEngine.length (requestBytes request)) = .ok (ptr, s') ∧
    s'.2.write (WasmEngine.index ptr) (requestBytes request) = some m ∧
    price (s'.1, m) ptr (WasmEngine.length (requestBytes request)) = .ok (packed, s'') ∧
    s''.2.get (WasmEngine.unpack packed).1 (WasmEngine.unpack packed).2 = some bytes

/-- A response is what the bytes left by a run decode to. -/
lemma call_eq_ok {guest : WasmEngine.Module} {response : PriceResponse} :
    WasmEngine.call guest onResponse request = .ok response ↔
      ∃ bytes, Ran guest request bytes ∧ (Json.fromSlice bytes).bind readResponse = some response := by
  constructor
  · intro h
    unfold WasmEngine.call at h
    obtain ⟨s, hstart, h⟩ := moduleErr_bind.mp h
    by_cases hmemory : guest.exportsMemory = true
    · simp only [hmemory, Bool.not_true, Bool.false_eq_true, if_false] at h
      obtain ⟨alloc, halloc, h⟩ := moduleErr_bind.mp h
      obtain ⟨price, hprice, h⟩ := moduleErr_bind.mp h
      obtain ⟨⟨ptr, s'⟩, hbuffer, h⟩ := moduleErr_bind.mp h
      cases hwrite : s'.2.write (WasmEngine.index ptr) (requestJson request).toVec with
      | none =>
        simp only [hwrite] at h
        cases h
      | some m =>
        simp only [hwrite] at h
        obtain ⟨⟨packed, s''⟩, hpacked, h⟩ := moduleErr_bind.mp h
        cases hget : s''.2.get (WasmEngine.unpack packed).1 (WasmEngine.unpack packed).2 with
        | none =>
          simp only [hget] at h
          cases h
        | some bytes =>
          simp only [hget] at h
          refine ⟨bytes, ⟨s, alloc, price, ptr, s', m, packed, s'', hstart, hmemory, halloc, hprice, hbuffer,
            hwrite,
            hpacked, hget⟩, ?_⟩
          cases hread : (Json.fromSlice bytes).bind readResponse with
          | none =>
            simp only [hread] at h
            cases h
          | some response' =>
            simp only [hread] at h
            cases h
            rfl
    · simp only [Bool.eq_false_iff.mpr hmemory] at h
      cases h
  · rintro ⟨bytes, ⟨s, alloc, price, ptr, s', m, packed, s'', hstart, hmemory, halloc, hprice, hbuffer, hwrite,
      hpacked, hget⟩, hread⟩
    unfold WasmEngine.call
    refine moduleErr_bind.mpr ⟨s, hstart, ?_⟩
    simp only [hmemory, Bool.not_true, Bool.false_eq_true, if_false]
    refine moduleErr_bind.mpr ⟨alloc, halloc, moduleErr_bind.mpr ⟨price, hprice, ?_⟩⟩
    refine moduleErr_bind.mpr ⟨(ptr, s'), hbuffer, ?_⟩
    rw [requestBytes] at hwrite
    simp only [hwrite]
    refine moduleErr_bind.mpr ⟨(packed, s''), hpacked, ?_⟩
    simp only [hget, hread]
    rfl

end Runs

/-! ### The reference module prices like the native engine -/

/-- What an allocator promises where it succeeds: buffers lie inside a memory that never outgrows
its limit, and hold what was put into them. -/
structure LawfulAllocator (allocator : Guest.Allocator) : Prop where
  capacity : ∀ {s n ptr s'}, allocator.capacity s n = .ok (ptr, s') →
    ptr + n ≤ s'.2.length ∧ s'.2.length ≤ WasmEngine.maxMemoryBytes
  keep : ∀ {s bytes ptr s'}, allocator.keep s bytes = .ok (ptr, s') →
    s'.2.get ptr bytes.length = some bytes ∧ s'.2.length ≤ WasmEngine.maxMemoryBytes

/-- What the reference module is meant to answer. -/
def answer (request : PriceRequest) : PriceResponse :=
  match evaluate request.rules request.input with
  | .ok quote => ⟨some quote, none⟩
  | .error e => ⟨none, some e.text⟩

def answerBytes (request : PriceRequest) : Bytes := (responseJson (answer request)).toVec

/-- The limits suffice for one request: no step of the module fails. -/
def Suffices (allocator : Guest.Allocator) (request : PriceRequest) : Prop :=
  ∃ s ptr s', allocator.start WasmEngine.limits = .ok s ∧
    allocator.capacity s (requestBytes request).length = .ok (ptr, s') ∧
    ∀ m, m.length = s'.2.length → ∃ out, allocator.keep (s'.1, m) (answerBytes request) = .ok out

/-- Quotes and error texts, for engines to be compared by. -/
def outcome (engine : PricingEngine) (rules : Rules.FareRuleSet) (input : Rules.RuleInput) :
    Except String Rules.Quote :=
  match engine rules input with
  | .ok quote => .ok quote
  | .error (.eval e) => .error e.text
  | .error (.moduleFailed message) => .error message

section Guest

variable {allocator : Guest.Allocator} {onRequest onResponse : Bytes → String} {request : PriceRequest}
  {s s' : allocator.State × Memory} {ptr len : Int32} {packed : Int64}

lemma alloc_eq_ok : Guest.alloc allocator s len = .ok (ptr, s') ↔
    ∃ start, allocator.capacity s (max len 0).toInt.toNat = .ok (start, s') ∧ Int32.ofNat start = ptr := by
  rw [Guest.alloc]
  cases allocator.capacity s (max len 0).toInt.toNat with
  | error e =>
    constructor
    · intro h
      cases h
    · rintro ⟨start, h, -⟩
      cases h
  | ok r =>
    constructor
    · intro h
      cases h
      exact ⟨r.1, rfl, rfl⟩
    · rintro ⟨start, h, rfl⟩
      cases h
      rfl

lemma respond_requestBytes : Guest.respond onRequest (requestBytes request) = answer request := by
  rw [Guest.respond, requestBytes, request_round_trip]
  rfl

/-- Where the request is in memory, its answer is what the module keeps. -/
lemma price_eq_ok (hget : s.2.get ptr.toUInt32.toNat (max len 0).toInt.toNat = some (requestBytes request)) :
    Guest.price allocator onRequest s ptr len = .ok (packed, s') ↔
      ∃ out, allocator.keep s (answerBytes request) = .ok (out, s') ∧
        Guest.pack (UInt64.ofNat out) (UInt64.ofNat (answerBytes request).length) = packed := by
  rw [Guest.price, hget]
  simp only [respond_requestBytes]
  rw [← answerBytes]
  cases allocator.keep s (answerBytes request) with
  | error e =>
    constructor
    · intro h
      cases h
    · rintro ⟨out, h, -⟩
      cases h
  | ok r =>
    constructor
    · intro h
      cases h
      exact ⟨r.1, rfl, rfl⟩
    · rintro ⟨out, h, rfl⟩
      cases h
      rfl

/-- A run of the reference module leaves the answer. -/
lemma answer_of_ran (hlaw : LawfulAllocator allocator) {bytes : Bytes}
    (h : Ran (Guest.wasm allocator onRequest) request bytes) : bytes = answerBytes request := by
  obtain ⟨s, alloc, price, ptr, s', m, packed, s'', hstart, -, halloc, hprice, hbuffer, hwrite, hpacked,
    hget⟩ := h.run
  cases halloc
  cases hprice
  obtain ⟨start, hcapacity, rfl⟩ := alloc_eq_ok.mp hbuffer
  obtain ⟨hblock, hcap⟩ := hlaw.capacity hcapacity
  unfold WasmEngine.maxMemoryBytes at hcap
  have hle := le_of_write hwrite
  have hstart : start < 2 ^ 31 := by omega
  have hlen : (requestBytes request).length < 2 ^ 31 := by omega
  rw [index_ofNat hstart] at hwrite
  have hread : Memory.get m (Int32.ofNat start).toUInt32.toNat
      (max (WasmEngine.length (requestBytes request)) 0).toInt.toNat = some (requestBytes request) := by
    rw [toNat_toUInt32_ofNat hstart, length_toNat hlen]
    exact get_write hwrite
  obtain ⟨out, hkeep, rfl⟩ := (price_eq_ok (s := (s'.1, m)) hread).mp hpacked
  obtain ⟨hkept, hcap'⟩ := hlaw.keep hkeep
  unfold WasmEngine.maxMemoryBytes at hcap'
  have hout := le_of_get hkept
  rw [unpack_pack (by omega) (by omega), hkept] at hget
  exact (Option.some.inj hget).symm

lemma ran_of_suffices (hlaw : LawfulAllocator allocator) (h : Suffices allocator request) :
    ∃ bytes, Ran (Guest.wasm allocator onRequest) request bytes := by
  obtain ⟨s, start, s', hstart, hcapacity, hkeep⟩ := h
  obtain ⟨hblock, hcap⟩ := hlaw.capacity hcapacity
  unfold WasmEngine.maxMemoryBytes at hcap
  have hlt : start < 2 ^ 31 := by omega
  have hlen : (requestBytes request).length < 2 ^ 31 := by omega
  obtain ⟨m, hwrite⟩ := write_of_le hblock
  obtain ⟨⟨out, s''⟩, hout⟩ := hkeep m (length_write hwrite)
  obtain ⟨hkept, hcap'⟩ := hlaw.keep hout
  unfold WasmEngine.maxMemoryBytes at hcap'
  have hle := le_of_get hkept
  have hread : Memory.get m (Int32.ofNat start).toUInt32.toNat
      (max (WasmEngine.length (requestBytes request)) 0).toInt.toNat = some (requestBytes request) := by
    rw [toNat_toUInt32_ofNat hlt, length_toNat hlen]
    exact get_write hwrite
  have hbuffer : Guest.alloc allocator s (WasmEngine.length (requestBytes request)) =
      .ok (Int32.ofNat start, s') :=
    alloc_eq_ok.mpr ⟨start, by rw [length_toNat hlen]; exact hcapacity, rfl⟩
  have hpacked : Guest.price allocator onRequest (s'.1, m) (Int32.ofNat start)
      (WasmEngine.length (requestBytes request)) =
      .ok (Guest.pack (UInt64.ofNat out) (UInt64.ofNat (answerBytes request).length), s'') :=
    (price_eq_ok (s := (s'.1, m)) hread).mpr ⟨out, hout, rfl⟩
  have hunpack := unpack_pack (show out < 2 ^ 32 by omega) (show (answerBytes request).length < 2 ^ 32 by omega)
  refine ⟨answerBytes request, ⟨s, Guest.alloc allocator, Guest.price allocator onRequest, Int32.ofNat start, s',
    m,
    _, s'', hstart, rfl, rfl, rfl, hbuffer, ?_, hpacked, ?_⟩⟩
  · rw [index_ofNat hlt]
    exact hwrite
  · rw [hunpack]
    exact hkept

/-- A response of the reference module is the answer. -/
lemma call_guest (hlaw : LawfulAllocator allocator) {bytes : Bytes}
    (h : Ran (Guest.wasm allocator onRequest) request bytes) :
    WasmEngine.call (Guest.wasm allocator onRequest) onResponse request = .ok (answer request) := by
  refine call_eq_ok.mpr ⟨bytes, h, ?_⟩
  rw [answer_of_ran hlaw h]
  exact response_round_trip (answer request)

end Guest

/-- Within the limits the reference module gives the quotes and the error texts of the native
engine; beyond them it may fail, but no quote is ever another one. -/
theorem wasm_prices_as_native {allocator : Guest.Allocator} (hlaw : LawfulAllocator allocator)
    (onRequest onResponse : Bytes → String) (rules : Rules.FareRuleSet) (input : Rules.RuleInput) :
    (Suffices allocator ⟨rules, input⟩ →
      outcome (WasmEngine.price (Guest.wasm allocator onRequest) onResponse) rules input =
        outcome NativeEngine.price rules input) ∧
    ∀ quote, WasmEngine.price (Guest.wasm allocator onRequest) onResponse rules input = .ok quote →
      NativeEngine.price rules input = .ok quote := by
  have hprice : ∀ bytes, Ran (Guest.wasm allocator onRequest) ⟨rules, input⟩ bytes →
      WasmEngine.price (Guest.wasm allocator onRequest) onResponse rules input =
        (evaluate rules input).mapError (fun e => .moduleFailed e.text) := by
    intro bytes hran
    rw [WasmEngine.price, call_guest hlaw hran, answer]
    cases evaluate rules input <;> rfl
  constructor
  · intro hsuffices
    obtain ⟨bytes, hran⟩ := ran_of_suffices hlaw hsuffices
    rw [outcome, outcome, hprice bytes hran, NativeEngine.price]
    cases evaluate rules input <;> rfl
  · intro quote hquote
    have hcall : ∃ bytes, Ran (Guest.wasm allocator onRequest) ⟨rules, input⟩ bytes := by
      unfold WasmEngine.price at hquote
      cases hcall : WasmEngine.call (Guest.wasm allocator onRequest) onResponse ⟨rules, input⟩ with
      | error e =>
        rw [hcall] at hquote
        cases hquote
      | ok response =>
        obtain ⟨bytes, hran, -⟩ := call_eq_ok.mp hcall
        exact ⟨bytes, hran⟩
    obtain ⟨bytes, hran⟩ := hcall
    rw [hprice bytes hran] at hquote
    rw [NativeEngine.price]
    cases heval : evaluate rules input with
    | error e =>
      rw [heval] at hquote
      cases hquote
    | ok quote' =>
      rw [heval] at hquote
      exact hquote


/-! ### A module with a bump allocator -/

/-- Buffers one after the other, up to the limit of the memory. -/
def bump : Guest.Allocator where
  State := Unit
  start _ := .ok ((), [])
  capacity s n :=
    if s.2.length + n ≤ WasmEngine.maxMemoryBytes then .ok (s.2.length, ((), s.2 ++ List.replicate n 0))
    else .error "out of memory"
  keep s bytes :=
    if s.2.length + bytes.length ≤ WasmEngine.maxMemoryBytes then .ok (s.2.length, ((), s.2 ++ bytes))
    else .error "out of memory"

lemma bump_lawful : LawfulAllocator bump where
  capacity := by
    intro s n ptr s' h
    simp only [bump] at h
    split_ifs at h with hle
    cases h
    simp only [List.length_append, List.length_replicate]
    exact ⟨Nat.le_refl _, hle⟩
  keep := by
    intro s bytes ptr s' h
    simp only [bump] at h
    split_ifs at h with hle
    cases h
    refine ⟨?_, by rw [List.length_append]; exact hle⟩
    rw [Memory.get, if_pos (Nat.le_of_eq List.length_append.symm), List.drop_left, List.take_length]

lemma bump_suffices {request : PriceRequest}
    (h : (requestBytes request).length + (answerBytes request).length ≤ WasmEngine.maxMemoryBytes) :
    Suffices bump request := by
  refine ⟨((), []), 0, ((), List.replicate (requestBytes request).length 0), rfl, ?_, ?_⟩
  · simp only [bump, List.length_nil, Nat.zero_add, List.nil_append]
    rw [if_pos (Nat.le_trans (Nat.le_add_right _ _) h)]
  · intro m hm
    rw [List.length_replicate] at hm
    simp only [bump, hm, if_pos h]
    exact ⟨_, rfl⟩

def islandRules : Rules.FareRuleSet :=
  ⟨"PHP", ⟨[("economy", 45000)], by decide⟩, [4, 5], 1500, [⟨8000, 1000⟩], [], ⟨[("SUMMER", 500)], by decide⟩,
    ⟨[("child", 5000)], by decide⟩, 0⟩

def childFare : Rules.RuleInput := ⟨"economy", 2, 1, 4, 10, 9000, some "SUMMER", some "child", 1, false⟩

theorem wasm_prices_as_native_island :
    LawfulAllocator bump ∧ Suffices bump ⟨islandRules, childFare⟩ ∧
      outcome (WasmEngine.price (Guest.wasm bump (fun _ => "")) (fun _ => "")) islandRules childFare =
        outcome NativeEngine.price islandRules childFare := by
  have hsuffices : Suffices bump ⟨islandRules, childFare⟩ := bump_suffices (by decide +kernel)
  exact ⟨bump_lawful, hsuffices, (wasm_prices_as_native bump_lawful _ _ islandRules childFare).1 hsuffices⟩

end Lulan.Proofs
