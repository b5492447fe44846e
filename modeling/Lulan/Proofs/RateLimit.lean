import Mathlib.Data.List.Induction
import Lulan.Lib.SlidingWindow
import Lulan.Api.RateLimit

/-!
# The sliding windows of the limiter

What the sorted set of a caller holds along every run of requests, and the windows it enforces.
-/

namespace Lulan.Proofs

open Lib.SlidingWindow
open RateLimit

/-- How far a window reaches back, in milliseconds. -/
def windowMs : Nat := windowSecs * 1000

lemma windowMs_pos : 0 < windowMs := by decide

variable {cfg : Config} {k : Bucket × Caller} {arrivals before : List Arrival} {a b : Arrival} {t : Nat}

/-- The requests charged to a key. -/
def chargedTo (cfg : Config) (k : Bucket × Caller) (arrivals : List Arrival) : List Arrival :=
  arrivals.filter (fun a => a.key cfg = k)

/-- The requests of a kind that the limiter admitted, each judged after the ones before it. -/
def admittedFrom (cfg : Config) (p : Arrival → Bool) : (before arrivals : List Arrival) → List Arrival
  | _, [] => []
  | before, a :: rest =>
    if p a ∧ decision cfg before a = .admitted then a :: admittedFrom cfg p (before ++ [a]) rest
    else admittedFrom cfg p (before ++ [a]) rest

def admittedOf (cfg : Config) (p : Arrival → Bool) (arrivals : List Arrival) : List Arrival :=
  admittedFrom cfg p [] arrivals

/-- The requests charged to a key that the limiter admitted. -/
def admittedTo (cfg : Config) (k : Bucket × Caller) (arrivals : List Arrival) : List Arrival :=
  admittedOf cfg (fun a => a.key cfg = k) arrivals

variable {p q : Arrival → Bool}

lemma admittedFrom_append (l₁ l₂ : List Arrival) :
    admittedFrom cfg p before (l₁ ++ l₂) =
      admittedFrom cfg p before l₁ ++ admittedFrom cfg p (before ++ l₁) l₂ := by
  induction l₁ generalizing before with
  | nil => rw [List.nil_append, List.append_nil, admittedFrom, List.nil_append]
  | cons a rest ih =>
    have ih : admittedFrom cfg p (before ++ [a]) (rest ++ l₂) =
        admittedFrom cfg p (before ++ [a]) rest ++ admittedFrom cfg p (before ++ [a] ++ rest) l₂ := ih
    rw [List.append_assoc, List.singleton_append] at ih
    by_cases h : p a ∧ decision cfg before a = .admitted
    · rw [List.cons_append, admittedFrom, admittedFrom, if_pos h, if_pos h, ih, List.cons_append]
    · rw [List.cons_append, admittedFrom, admittedFrom, if_neg h, if_neg h, ih]

lemma admittedOf_snoc : admittedOf cfg p (arrivals ++ [a]) =
    admittedOf cfg p arrivals ++ if p a ∧ decision cfg arrivals a = .admitted then [a] else [] := by
  rw [admittedOf, admittedFrom_append, List.nil_append, admittedFrom]
  rfl

lemma admittedTo_snoc : admittedTo cfg k (arrivals ++ [a]) =
    admittedTo cfg k arrivals ++
      if a.key cfg = k ∧ decision cfg arrivals a = .admitted then [a] else [] := by
  simp only [admittedTo, admittedOf_snoc, decide_eq_true_eq]

lemma after_snoc : after cfg (arrivals ++ [a]) = (limit cfg (after cfg arrivals) a).2 := by
  rw [after, List.foldl_append]
  rfl

lemma chargedTo_snoc : chargedTo cfg k (arrivals ++ [a]) =
    chargedTo cfg k arrivals ++ if a.key cfg = k then [a] else [] := by
  rw [chargedTo, List.filter_append]
  by_cases h : a.key cfg = k
  · rw [if_pos h, List.filter_cons_of_pos (by simpa using h)]
    rfl
  · rw [if_neg h, List.filter_cons_of_neg (by simpa using h)]
    rfl

lemma admittedTo_sublist : (admittedTo cfg k arrivals).Sublist (chargedTo cfg k arrivals) := by
  induction arrivals using List.reverseRecOn with
  | nil => exact List.Sublist.refl []
  | append_singleton arrivals a ih =>
    rw [admittedTo_snoc, chargedTo_snoc]
    apply List.Sublist.append ih
    by_cases h : a.key cfg = k ∧ decision cfg arrivals a = .admitted
    · rw [if_pos h, if_pos h.1]
    · rw [if_neg h]
      exact List.nil_sublist _

/-- Whether a request's script runs. -/
def Asks (cfg : Config) (a : Arrival) : Prop :=
  "/v1".toList.isPrefixOf a.request.path.toList = true ∧ cfg.redis = true ∧ a.answers = true

lemma limit_of_not_asks (sets : Sets) (h : ¬Asks cfg a) : limit cfg sets a = (.unlimited, sets) := by
  by_cases hpath : "/v1".toList.isPrefixOf a.request.path.toList = true
  · by_cases hredis : cfg.redis = true
    · have hanswers : a.answers = false := Bool.eq_false_iff.mpr (fun ha => h ⟨hpath, hredis, ha⟩)
      rw [limit, hpath, hredis, hanswers]
      rfl
    · rw [limit, hpath, Bool.eq_false_iff.mpr hredis]
      rfl
  · rw [limit, Bool.eq_false_iff.mpr hpath]
    rfl

/-- A request whose script runs is judged under its own key. -/
lemma limit_of_asks (sets : Sets) (h : Asks cfg a) : limit cfg sets a =
    (if (script a.clock (sets (a.key cfg)) a.now windowMs (a.request.bucket.limit cfg) (a.now, a.id)).1 = 0 then
        .refused
      else .admitted,
      Function.update sets (a.key cfg)
        (script a.clock (sets (a.key cfg)) a.now windowMs (a.request.bucket.limit cfg) (a.now, a.id)).2) := by
  obtain ⟨hpath, hredis, hanswers⟩ := h
  rw [limit, hpath, hredis, hanswers]
  rfl

/-! ### What the set holds -/

def entryOf (a : Arrival) : Entry := ⟨(a.now, a.id), a.now⟩

/-- The entries last written under a key, whether it has expired or not. -/
def storedSet (key : Option (Holds.Key (List Entry))) : List Entry := (key.map Holds.Key.value).getD []

/-- From `t` on, the set holds what was admitted in the window before, and it expires no
earlier than a window after the last admission. -/
structure Logged (t : Nat) (admitted : List Arrival) (key : Option (Holds.Key (List Entry))) : Prop where
  entries : (storedSet key).filter (fun e => t < e.score + windowMs) =
    (admitted.filter (fun b => t < b.now + windowMs)).map entryOf
  expiry : ∀ l ∈ admitted.getLast?, t < l.now + windowMs → ∃ v, key = some ⟨v, l.clock + windowMs⟩

lemma logged_none : Logged t [] none := ⟨rfl, fun _ h => by cases h⟩

variable {admitted : List Arrival} {key : Option (Holds.Key (List Entry))} {cap : Nat}

/-- What the script is left with after dropping old entries. -/
def keptBy (key : Option (Holds.Key (List Entry))) (a : Arrival) : List Entry :=
  zremrangebyscore (visibleSet a.clock key) ((a.now : Int) - windowMs)

lemma zremrangebyscore_eq (set : List Entry) (now : Nat) :
    zremrangebyscore set ((now : Int) - windowMs) = set.filter (fun e => now < e.score + windowMs) := by
  apply List.filter_congr
  intro e _
  apply decide_eq_decide.mpr
  omega

/-- The earlier admissions a request may still meet in its window were made within a window of
its script too. -/
def Timely (admitted : List Arrival) (a : Arrival) : Prop :=
  ∀ b ∈ admitted, a.now < b.now + windowMs → a.clock ≤ b.clock + windowMs

lemma visibleSet_cases (clock : Nat) (key : Option (Holds.Key (List Entry))) :
    visibleSet clock key = storedSet key ∨ visibleSet clock key = [] := by
  cases key with
  | none => exact Or.inl rfl
  | some k =>
    by_cases h : clock ≤ k.expiresAt
    · left
      simp only [visibleSet, storedSet, Holds.Key.get, Option.bind_some, if_pos h, Option.map_some,
        Option.getD_some]
    · right
      simp only [visibleSet, Holds.Key.get, Option.bind_some, if_neg h, Option.getD_none]

lemma le_last {b l : Arrival} (hsorted : admitted.Pairwise (fun b c => b.now ≤ c.now)) (hb : b ∈ admitted)
    (hl : admitted.getLast? = some l) : b.now ≤ l.now := by
  obtain ⟨front, rfl⟩ := List.getLast?_eq_some_iff.mp hl
  rcases List.mem_append.mp hb with hb | hb
  · exact (List.pairwise_append.mp hsorted).2.2 b hb l List.mem_cons_self
  · rw [List.mem_singleton.mp hb]

/-- The script counts exactly what was admitted in the window before the request. -/
lemma Logged.kept (h : Logged a.now admitted key) (hsorted : admitted.Pairwise (fun b c => b.now ≤ c.now))
    (htimely : Timely admitted a) :
    keptBy key a = (admitted.filter (fun b => a.now < b.now + windowMs)).map entryOf := by
  rw [keptBy, zremrangebyscore_eq]
  by_cases hrecent : ∃ b ∈ admitted, a.now < b.now + windowMs
  · obtain ⟨b, hb, hlt⟩ := hrecent
    obtain ⟨l, hl⟩ := Option.ne_none_iff_exists'.mp (mt List.getLast?_eq_none_iff.mp (List.ne_nil_of_mem hb))
    have hle := le_last hsorted hb hl
    have hlast : a.now < l.now + windowMs := by omega
    obtain ⟨v, hv⟩ := h.expiry l hl hlast
    have hclock := htimely l (List.mem_of_getLast? hl) hlast
    have hvisible : visibleSet a.clock key = storedSet key := by
      rw [hv]
      simp only [visibleSet, storedSet, Holds.Key.get, Option.bind_some, if_pos hclock, Option.map_some,
        Option.getD_some]
    rw [hvisible]
    exact h.entries
  · have hnone : admitted.filter (fun b => a.now < b.now + windowMs) = [] := by
      apply List.filter_eq_nil_iff.mpr
      intro b hb hlt
      exact hrecent ⟨b, hb, of_decide_eq_true hlt⟩
    have hstored := h.entries
    rw [hnone] at hstored ⊢
    rcases visibleSet_cases a.clock key with heq | heq
    · rw [heq]
      exact hstored
    · rw [heq]
      rfl

lemma filter_filter_score {t' : Nat} (set : List Entry) (h : t ≤ t') :
    (set.filter (fun e => t < e.score + windowMs)).filter (fun e => t' < e.score + windowMs) =
      set.filter (fun e => t' < e.score + windowMs) := by
  rw [List.filter_filter]
  apply List.filter_congr
  intro e _
  rw [Bool.and_eq_left_iff_imp]
  intro he
  have hlt := of_decide_eq_true he
  apply decide_eq_true
  omega

/-- What is logged from one time on is logged from every later one. -/
lemma Logged.later {t' : Nat} (h : Logged t admitted key) (hle : t ≤ t') : Logged t' admitted key := by
  constructor
  · rw [← filter_filter_score _ hle, h.entries, List.filter_map, List.filter_filter]
    apply congrArg (List.map entryOf)
    apply List.filter_congr
    intro b _
    change (decide (t' < b.now + windowMs) && decide (t < b.now + windowMs)) = decide (t' < b.now + windowMs)
    rw [Bool.and_eq_left_iff_imp]
    intro hb
    have hlt := of_decide_eq_true hb
    apply decide_eq_true
    omega
  · intro l hl hlt
    exact h.expiry l hl (by omega)

lemma zadd_new {set : List Entry} {entry : Entry} (h : ∀ e ∈ set, e.member ≠ entry.member) :
    zadd set entry = set ++ [entry] := by
  have hany : set.any (fun e => e.member = entry.member) = false := by
    rw [List.any_eq_false]
    intro e he
    simpa using h e he
  rw [zadd, hany]
  rfl

lemma filter_kept (set : List Entry) :
    (zremrangebyscore set ((t : Int) - windowMs)).filter (fun e => t < e.score + windowMs) =
      zremrangebyscore set ((t : Int) - windowMs) := by
  rw [zremrangebyscore_eq, filter_filter_score set (Nat.le_refl t)]

/-- A refused request leaves what is logged as it is. -/
lemma Logged.refuse (h : Logged a.now admitted key) (hsorted : admitted.Pairwise (fun b c => b.now ≤ c.now))
    (htimely : Timely admitted a) :
    Logged a.now admitted
      (if (keptBy key a).isEmpty then none else key.map (fun k => { k with value := keptBy key a })) := by
  have hkept := h.kept hsorted htimely
  by_cases hempty : keptBy key a = []
  · rw [hempty, List.isEmpty_nil, if_pos rfl]
    rw [hempty] at hkept
    constructor
    · exact hkept
    · intro l hl hlt
      have hmem : entryOf l ∈ (admitted.filter (fun b => a.now < b.now + windowMs)).map entryOf :=
        List.mem_map_of_mem (List.mem_filter.mpr ⟨List.mem_of_getLast? hl, decide_eq_true hlt⟩)
      rw [← hkept] at hmem
      cases hmem
  · rw [if_neg (by simpa using hempty)]
    cases key with
    | none => exact absurd rfl hempty
    | some k =>
      constructor
      · rw [← hkept]
        exact filter_kept _
      · intro l hl hlt
        obtain ⟨v, hv⟩ := h.expiry l hl hlt
        cases hv
        exact ⟨_, rfl⟩

/-- An admitted request is logged. -/
lemma Logged.charged (h : Logged a.now admitted key) (hsorted : admitted.Pairwise (fun b c => b.now ≤ c.now))
    (htimely : Timely admitted a) (hnew : ∀ b ∈ admitted, (b.now, b.id) ≠ (a.now, a.id)) :
    Logged a.now (admitted ++ [a])
      (Holds.pexpire (zadd (keptBy key a) ⟨(a.now, a.id), a.now⟩) a.clock windowMs) := by
  have hkept := h.kept hsorted htimely
  have hzadd : zadd (keptBy key a) ⟨(a.now, a.id), a.now⟩ = keptBy key a ++ [entryOf a] := by
    apply zadd_new
    intro e he
    rw [hkept] at he
    obtain ⟨b, hb, rfl⟩ := List.mem_map.mp he
    exact hnew b (List.mem_filter.mp hb).1
  rw [hzadd, Holds.pexpire, if_neg (Nat.ne_of_gt windowMs_pos)]
  have hself : a.now < a.now + windowMs := Nat.lt_add_of_pos_right windowMs_pos
  constructor
  · change (keptBy key a ++ [entryOf a]).filter _ = _
    rw [List.filter_append, List.filter_append, List.map_append, ← hkept,
      List.filter_cons_of_pos (by simpa [entryOf] using windowMs_pos),
      List.filter_cons_of_pos (by simpa using windowMs_pos), keptBy, filter_kept]
    rfl
  · intro l hl _
    rw [List.getLast?_append, List.getLast?_singleton, Option.some_or] at hl
    cases hl
    exact ⟨_, rfl⟩

/-! ### Runs -/

/-- The requests of a key arrive with their stamps in order, and no random part is drawn twice. -/
structure Orderly (cfg : Config) (k : Bucket × Caller) (arrivals : List Arrival) : Prop where
  stamps : (chargedTo cfg k arrivals).Pairwise (fun a b => a.now ≤ b.now)
  ids : (chargedTo cfg k arrivals).Pairwise (fun a b => a.id ≠ b.id)

/-- A script that may still meet an earlier request of its key in the window runs at most a
windowMs after that request's. -/
def InTime (cfg : Config) (k : Bucket × Caller) (arrivals : List Arrival) : Prop :=
  (chargedTo cfg k arrivals).Pairwise (fun a b => b.now < a.now + windowMs → b.clock ≤ a.clock + windowMs)

lemma pairwise_snoc {r : Arrival → Arrival → Prop} (hk : a.key cfg = k)
    (h : (chargedTo cfg k (arrivals ++ [a])).Pairwise r) : ∀ b ∈ chargedTo cfg k arrivals, r b a := by
  rw [chargedTo_snoc, if_pos hk] at h
  intro b hb
  exact (List.pairwise_append.mp h).2.2 b hb a List.mem_cons_self

lemma pairwise_init {r : Arrival → Arrival → Prop} {rest : List Arrival}
    (h : (chargedTo cfg k (arrivals ++ rest)).Pairwise r) : (chargedTo cfg k arrivals).Pairwise r := by
  rw [chargedTo, List.filter_append] at h
  exact (List.pairwise_append.mp h).1

lemma Orderly.init {rest : List Arrival} (h : Orderly cfg k (arrivals ++ rest)) : Orderly cfg k arrivals :=
  ⟨pairwise_init h.stamps, pairwise_init h.ids⟩

lemma Orderly.sorted (h : Orderly cfg k arrivals) :
    (admittedTo cfg k arrivals).Pairwise (fun b c => b.now ≤ c.now) := h.stamps.sublist admittedTo_sublist

/-- A request under another key leaves the key alone. -/
lemma limit_other (sets : Sets) (h : a.key cfg ≠ k) : (limit cfg sets a).2 k = sets k := by
  by_cases hasks : Asks cfg a
  · rw [limit_of_asks sets hasks]
    exact Function.update_of_ne (Ne.symm h) _ _
  · rw [limit_of_not_asks sets hasks]

/-- How the script decides and what it leaves, by the number of entries it counts. -/
lemma script_cases (key : Option (Holds.Key (List Entry))) (cap : Nat) (a : Arrival) :
    script a.clock key a.now windowMs cap (a.now, a.id) =
      if cap ≤ (keptBy key a).length then
        (0, if (keptBy key a).isEmpty then none else key.map (fun k => { k with value := keptBy key a }))
      else (1, Holds.pexpire (zadd (keptBy key a) ⟨(a.now, a.id), a.now⟩) a.clock windowMs) := rfl

/-- A judged request is refused exactly where the script counts the limit. -/
lemma decision_cases (arrivals : List Arrival) (hk : a.key cfg = k) :
    ¬Asks cfg a ∧ decision cfg arrivals a = .unlimited ∧ after cfg (arrivals ++ [a]) k = after cfg arrivals k ∨
    decision cfg arrivals a = .refused ∧ k.1.limit cfg ≤ (keptBy (after cfg arrivals k) a).length ∧
      after cfg (arrivals ++ [a]) k =
        (if (keptBy (after cfg arrivals k) a).isEmpty then none
          else (after cfg arrivals k).map (fun key => { key with value := keptBy (after cfg arrivals k) a })) ∨
    decision cfg arrivals a = .admitted ∧ (keptBy (after cfg arrivals k) a).length < k.1.limit cfg ∧
      after cfg (arrivals ++ [a]) k =
        Holds.pexpire (zadd (keptBy (after cfg arrivals k) a) ⟨(a.now, a.id), a.now⟩) a.clock windowMs := by
  subst hk
  rw [decision, after_snoc]
  by_cases hasks : Asks cfg a
  · right
    rw [limit_of_asks _ hasks, script_cases]
    dsimp only
    rw [Function.update_self]
    by_cases hcount : a.request.bucket.limit cfg ≤ (keptBy (after cfg arrivals (a.key cfg)) a).length
    · left
      rw [if_pos hcount]
      exact ⟨rfl, hcount, rfl⟩
    · right
      rw [if_neg hcount]
      exact ⟨rfl, Nat.lt_of_not_le hcount, rfl⟩
  · left
    rw [limit_of_not_asks _ hasks]
    exact ⟨hasks, rfl, rfl⟩

lemma timely_of_inTime (hk : a.key cfg = k) (h : InTime cfg k (arrivals ++ [a])) :
    Timely (admittedTo cfg k arrivals) a :=
  fun b hb => pairwise_snoc hk h b (admittedTo_sublist.subset hb)

/-- Along a run in time, every key holds the admissions that a later request may count. -/
theorem logged_run (horderly : Orderly cfg k arrivals) (hin : InTime cfg k arrivals)
    (ht : ∀ b ∈ chargedTo cfg k arrivals, b.now ≤ t) :
    Logged t (admittedTo cfg k arrivals) (after cfg arrivals k) := by
  induction arrivals using List.reverseRecOn generalizing t with
  | nil => exact logged_none
  | append_singleton arrivals a ih =>
    have hcharged : ∀ b ∈ chargedTo cfg k arrivals, b ∈ chargedTo cfg k (arrivals ++ [a]) := by
      intro b hb
      rw [chargedTo_snoc]
      exact List.mem_append_left _ hb
    have ih := fun u hu => ih (t := u) horderly.init (pairwise_init hin) hu
    by_cases hk : a.key cfg = k
    · have hself : a ∈ chargedTo cfg k (arrivals ++ [a]) := by
        rw [chargedTo_snoc, if_pos hk]
        exact List.mem_append_right _ List.mem_cons_self
      have hlogged := ih a.now (pairwise_snoc hk horderly.stamps)
      have htimely := timely_of_inTime hk hin
      have hsorted := horderly.init.sorted
      rw [admittedTo_snoc]
      rcases decision_cases arrivals hk with ⟨-, hd, hs⟩ | ⟨hd, -, hs⟩ | ⟨hd, -, hs⟩
      · rw [hd, hs, if_neg (by simp), List.append_nil]
        exact ih t (fun b hb => ht b (hcharged b hb))
      · rw [hd, hs, if_neg (by simp), List.append_nil]
        exact (hlogged.refuse hsorted htimely).later (ht a hself)
      · rw [hd, hs, if_pos ⟨hk, rfl⟩]
        apply (hlogged.charged hsorted htimely _).later (ht a hself)
        intro b hb heq
        cases pairwise_snoc hk horderly.ids b (admittedTo_sublist.subset hb) (congrArg Prod.snd heq)
    · rw [admittedTo_snoc, after_snoc, if_neg (fun h => hk h.1), List.append_nil, limit_other _ hk]
      exact ih t (fun b hb => ht b (hcharged b hb))

/-! ### The windows -/

/-- The stamps of the requests a key was charged for and that were admitted. -/
def admittedStamps (cfg : Config) (k : Bucket × Caller) (arrivals : List Arrival) : List Nat :=
  (admittedTo cfg k arrivals).map Arrival.now

/-- An exact sliding window over a run: no window holds more admissions than the limit, a request
is refused only if the window that ends at it is full, and what a script sees of the window is
all that was admitted in it. -/
structure ExactWindow (cfg : Config) (k : Bucket × Caller) (arrivals : List Arrival) : Prop where
  windows : Sparse windowMs (k.1.limit cfg) (admittedStamps cfg k arrivals)
  refusals : ∀ before a rest, arrivals = before ++ a :: rest → a.key cfg = k → decision cfg before a = .refused →
    (within windowMs a.now (admittedStamps cfg k before)).length = k.1.limit cfg
  remembered : ∀ before a rest, arrivals = before ++ a :: rest → a.key cfg = k →
    recent windowMs a.now ((visibleSet a.clock (after cfg before k)).map Entry.score) =
      within windowMs a.now (admittedStamps cfg k before)

lemma recent_stamps : recent windowMs t (admittedStamps cfg k arrivals) =
    ((admittedTo cfg k arrivals).filter (fun b => t < b.now + windowMs)).map Arrival.now := by
  rw [admittedStamps, recent, List.filter_map]
  rfl

/-- What the script counts, as stamps. -/
lemma kept_stamps (a : Arrival) :
    (keptBy key a).map Entry.score = recent windowMs a.now ((visibleSet a.clock key).map Entry.score) := by
  rw [keptBy, zremrangebyscore_eq, recent, List.filter_map]
  rfl

lemma kept_run (hk : a.key cfg = k) (horderly : Orderly cfg k (arrivals ++ [a]))
    (hin : InTime cfg k (arrivals ++ [a])) :
    (keptBy (after cfg arrivals k) a).map Entry.score = recent windowMs a.now (admittedStamps cfg k arrivals) := by
  have hlogged := logged_run horderly.init (pairwise_init hin) (pairwise_snoc hk horderly.stamps)
  rw [hlogged.kept horderly.init.sorted (timely_of_inTime hk hin), recent_stamps, List.map_map]
  rfl

lemma stamps_le (hk : a.key cfg = k) (horderly : Orderly cfg k (arrivals ++ [a])) :
    ∀ t ∈ admittedStamps cfg k arrivals, t ≤ a.now := by
  intro t ht
  obtain ⟨b, hb, rfl⟩ := List.mem_map.mp ht
  exact pairwise_snoc hk horderly.stamps b (admittedTo_sublist.subset hb)

lemma windows_run (horderly : Orderly cfg k arrivals) (hin : InTime cfg k arrivals) :
    Sparse windowMs (k.1.limit cfg) (admittedStamps cfg k arrivals) := by
  induction arrivals using List.reverseRecOn with
  | nil => exact sparse_nil
  | append_singleton arrivals a ih =>
    have ih := ih horderly.init (pairwise_init hin)
    by_cases h : a.key cfg = k ∧ decision cfg arrivals a = .admitted
    · obtain ⟨hk, hd⟩ := h
      rw [admittedStamps, admittedTo_snoc, if_pos ⟨hk, hd⟩, List.map_append]
      apply ih.append (stamps_le hk horderly)
      rw [← kept_run hk horderly hin, List.length_map]
      rcases decision_cases arrivals hk with ⟨-, hd', -⟩ | ⟨hd', -⟩ | ⟨-, hroom, -⟩
      · rw [hd] at hd'
        cases hd'
      · rw [hd] at hd'
        cases hd'
      · exact hroom
    · rw [admittedStamps, admittedTo_snoc, if_neg h, List.append_nil]
      exact ih

/-- The limiter enforces an exact sliding window along every run whose scripts are in time. -/
theorem exactWindow_of_inTime (cfg : Config) (k : Bucket × Caller) (arrivals : List Arrival)
    (horderly : Orderly cfg k arrivals) (hin : InTime cfg k arrivals) : ExactWindow cfg k arrivals := by
  have hsplit : ∀ {before a rest}, arrivals = before ++ a :: rest →
      Orderly cfg k (before ++ [a]) ∧ InTime cfg k (before ++ [a]) := by
    rintro before a rest rfl
    rw [← List.singleton_append, ← List.append_assoc] at horderly hin
    exact ⟨horderly.init, pairwise_init hin⟩
  constructor
  · exact windows_run horderly hin
  · intro before a rest heq hk hrefused
    obtain ⟨ho, hi⟩ := hsplit heq
    have hfew := windows_run ho.init (pairwise_init hi) a.now
    rw [within_eq_recent (stamps_le hk ho)] at hfew ⊢
    rw [← kept_run hk ho hi, List.length_map] at hfew ⊢
    rcases decision_cases before hk with ⟨-, hd, -⟩ | ⟨-, hfull, -⟩ | ⟨hd, -⟩
    · rw [hrefused] at hd
      cases hd
    · omega
    · rw [hrefused] at hd
      cases hd
  · intro before a rest heq hk
    obtain ⟨ho, hi⟩ := hsplit heq
    rw [within_eq_recent (stamps_le hk ho), ← kept_run hk ho hi, kept_stamps]

/-- A process that lets one write a minute through. -/
def onePerMinute : Config := ⟨fun v => if v = "LULAN_RATE_LIMIT" then some "1" else none, id, true⟩

def post (headers : List (String × Bytes)) : RateLimit.Request :=
  ⟨.other "POST", "/v1/orders", headers, some (.v4 10 0 0 5)⟩

/-- Two requests a little less than a minute apart, the second of which takes two milliseconds to
reach Redis. -/
def lateScript : List Arrival := [⟨post [], 0, 0, 1, true⟩, ⟨post [], 59999, 60001, 2, true⟩]

theorem exactWindow_of_inTime_spaced :
    ExactWindow onePerMinute (.w, .ip (.v4 10 0 0 5))
      [⟨post [], 0, 0, 1, true⟩, ⟨post [], 60000, 60000, 2, true⟩] :=
  exactWindow_of_inTime _ _ _ ⟨by decide, by decide⟩ (by rw [InTime]; decide)

/-- The expiry of the key forgets the first of them while it is still inside the window. -/
theorem expiry_forgets : ¬∀ cfg k arrivals, Orderly cfg k arrivals → ExactWindow cfg k arrivals := by
  intro h
  have hexact := h onePerMinute (.w, .ip (.v4 10 0 0 5)) lateScript ⟨by decide, by decide⟩
  exact absurd (hexact.windows 59999) (by decide)

/-! ### One address, many headers -/

/-- The limited requests of a bucket that come from a peer. -/
def sentBy (peer : Lib.IpAddr) (bucket : Bucket) (a : Arrival) : Bool :=
  a.request.peer = some peer ∧ a.request.bucket = bucket ∧ "/v1".toList.isPrefixOf a.request.path.toList

/-- Whatever the peer sends among `sends`, no window holds more than the limit of the bucket. -/
def PeerBounded (cfg : Config) (peer : Lib.IpAddr) (bucket : Bucket) (sends : RateLimit.Request → Prop) : Prop :=
  ∀ arrivals, (∀ k, Orderly cfg k arrivals) → (∀ k, InTime cfg k arrivals) →
    (∀ a ∈ arrivals, sentBy peer bucket a → sends a.request) →
    Sparse windowMs (bucket.limit cfg) ((admittedOf cfg (sentBy peer bucket) arrivals).map Arrival.now)

lemma admittedOf_sublist (h : ∀ a ∈ arrivals, p a → a.key cfg = k) :
    (admittedOf cfg p arrivals).Sublist (admittedTo cfg k arrivals) := by
  induction arrivals using List.reverseRecOn with
  | nil => exact List.Sublist.refl []
  | append_singleton arrivals a ih =>
    rw [admittedOf_snoc, admittedTo_snoc]
    apply List.Sublist.append (ih (fun b hb => h b (List.mem_append_left _ hb)))
    by_cases hp : p a ∧ decision cfg arrivals a = .admitted
    · rw [if_pos hp, if_pos ⟨h a (List.mem_append_right _ List.mem_cons_self) hp.1, hp.2⟩]
    · rw [if_neg hp]
      exact List.nil_sublist _

lemma admittedOf_eq_nil (h : ∀ a ∈ arrivals, p a → a.request.bucket.limit cfg = 0) :
    admittedOf cfg p arrivals = [] := by
  induction arrivals using List.reverseRecOn with
  | nil => rfl
  | append_singleton arrivals a ih =>
    rw [admittedOf_snoc, ih (fun b hb => h b (List.mem_append_left _ hb)), List.nil_append, if_neg]
    rintro ⟨hp, hd⟩
    have hzero := h a (List.mem_append_right _ List.mem_cons_self) hp
    have hcases : a.key cfg = a.key cfg := rfl
    rcases decision_cases arrivals hcases with ⟨-, hd', -⟩ | ⟨hd', -⟩ | ⟨-, hroom, -⟩
    · rw [hd] at hd'
      cases hd'
    · rw [hd] at hd'
      cases hd'
    · change _ < a.request.bucket.limit cfg at hroom
      omega

/-- A request is admitted while fewer than the limit were. -/
lemma admitted_of_room (hk : a.key cfg = k) (hasks : Asks cfg a) (horderly : Orderly cfg k (arrivals ++ [a]))
    (hin : InTime cfg k (arrivals ++ [a])) (hroom : (admittedTo cfg k arrivals).length < k.1.limit cfg) :
    decision cfg arrivals a = .admitted := by
  rcases decision_cases arrivals hk with ⟨hn, -⟩ | ⟨-, hfull, -⟩ | ⟨hd, -⟩
  · exact absurd hasks hn
  · have hfew : (recent windowMs a.now (admittedStamps cfg k arrivals)).length ≤
        (admittedTo cfg k arrivals).length := by
      rw [recent_stamps, List.length_map]
      exact List.length_filter_le _ _
    rw [← kept_run hk horderly hin, List.length_map] at hfew
    omega
  · exact hd

/-- The request `n` times over, all at once. -/
def burst (r : RateLimit.Request) (n : Nat) : List Arrival := (List.range n).map (fun i => ⟨r, 0, 0, i, true⟩)

lemma burst_succ (r : RateLimit.Request) (n : Nat) : burst r (n + 1) = burst r n ++ [⟨r, 0, 0, n, true⟩] := by
  rw [burst, List.range_succ, List.map_append]
  rfl

lemma length_burst (r : RateLimit.Request) (n : Nat) : (burst r n).length = n := by
  rw [burst, List.length_map, List.length_range]

/-- A burst of one request and then another one. -/
def burstThen (r r' : RateLimit.Request) (n : Nat) : List Arrival := burst r n ++ [⟨r', 0, 0, n, true⟩]

lemma burstThen_at_once {r r' : RateLimit.Request} {n : Nat} :
    ∀ a ∈ burstThen r r' n, a.now = 0 ∧ a.clock = 0 := by
  intro a ha
  rcases List.mem_append.mp ha with ha | ha
  · obtain ⟨i, -, rfl⟩ := List.mem_map.mp ha
    exact ⟨rfl, rfl⟩
  · rw [List.mem_singleton.mp ha]
    exact ⟨rfl, rfl⟩

lemma burstThen_ids (r r' : RateLimit.Request) (n : Nat) :
    (burstThen r r' n).Pairwise (fun a b => a.id ≠ b.id) := by
  apply List.pairwise_append.mpr
  refine ⟨List.pairwise_map.mpr List.nodup_range, List.pairwise_singleton _ _, ?_⟩
  intro a ha b hb
  obtain ⟨i, hi, rfl⟩ := List.mem_map.mp ha
  rw [List.mem_singleton.mp hb]
  exact Nat.ne_of_lt (List.mem_range.mp hi)

lemma orderly_burstThen (r r' : RateLimit.Request) (n : Nat) : Orderly cfg k (burstThen r r' n) := by
  have hids := (burstThen_ids r r' n).filter (fun a => a.key cfg = k)
  constructor
  · apply hids.imp_of_mem
    intro a b ha hb _
    rw [(burstThen_at_once a (List.mem_filter.mp ha).1).1]
    exact Nat.zero_le b.now
  · exact hids

lemma inTime_burstThen (r r' : RateLimit.Request) (n : Nat) : InTime cfg k (burstThen r r' n) := by
  apply ((burstThen_ids r r' n).filter (fun a => a.key cfg = k)).imp_of_mem
  intro a b ha hb _ _
  rw [(burstThen_at_once b (List.mem_filter.mp hb).1).2]
  exact Nat.zero_le _

/-- A burst within the limit is admitted whole. -/
lemma admittedOf_burst {r : RateLimit.Request} {n : Nat} (hp : ∀ i, p ⟨r, 0, 0, i, true⟩)
    (hasks : ∀ i, Asks cfg ⟨r, 0, 0, i, true⟩) (hn : n ≤ r.bucket.limit cfg) :
    admittedOf cfg p (burst r n) = burst r n := by
  induction n with
  | zero => rfl
  | succ n ih =>
    have hfew : (admittedTo cfg (Arrival.key cfg ⟨r, 0, 0, n, true⟩) (burst r n)).length ≤ (burst r n).length :=
      admittedTo_sublist.length_le.trans (List.length_filter_le _ (burst r n))
    rw [length_burst] at hfew
    have hadmitted : decision cfg (burst r n) ⟨r, 0, 0, n, true⟩ = .admitted := by
      apply admitted_of_room rfl (hasks n) (orderly_burstThen r r n) (inTime_burstThen r r n)
      change _ < r.bucket.limit cfg
      omega
    rw [burst_succ, admittedOf_snoc, ih (by omega), if_pos ⟨hp n, hadmitted⟩]

/-- Two callers behind one address: the second is admitted after the first has used up the limit. -/
lemma admittedOf_burstThen {r r' : RateLimit.Request} (hp : ∀ i, p ⟨r, 0, 0, i, true⟩)
    (hp' : ∀ i, p ⟨r', 0, 0, i, true⟩) (hasks : ∀ i, Asks cfg ⟨r, 0, 0, i, true⟩) (hasks' : ∀ i, Asks cfg ⟨r', 0, 0, i, true⟩)
    (hpos : 0 < r'.bucket.limit cfg)
    (hne : Arrival.key cfg ⟨r, 0, 0, 0, true⟩ ≠ Arrival.key cfg ⟨r', 0, 0, 0, true⟩) :
    admittedOf cfg p (burstThen r r' (r.bucket.limit cfg)) = burstThen r r' (r.bucket.limit cfg) := by
  have hnone : chargedTo cfg (Arrival.key cfg ⟨r', 0, 0, 0, true⟩) (burst r (r.bucket.limit cfg)) = [] := by
    apply List.filter_eq_nil_iff.mpr
    intro a ha
    obtain ⟨i, -, rfl⟩ := List.mem_map.mp ha
    exact fun heq => hne (of_decide_eq_true heq)
  have hfew : (admittedTo cfg (Arrival.key cfg ⟨r', 0, 0, 0, true⟩) (burst r (r.bucket.limit cfg))).length ≤
      (chargedTo cfg (Arrival.key cfg ⟨r', 0, 0, 0, true⟩) (burst r (r.bucket.limit cfg))).length :=
    admittedTo_sublist.length_le
  rw [hnone, List.length_nil] at hfew
  have hadmitted :
      decision cfg (burst r (r.bucket.limit cfg)) ⟨r', 0, 0, r.bucket.limit cfg, true⟩ = .admitted := by
    apply admitted_of_room rfl (hasks' _) (orderly_burstThen r r' _) (inTime_burstThen r r' _)
    change (admittedTo cfg (Arrival.key cfg ⟨r', 0, 0, 0, true⟩) _).length < r'.bucket.limit cfg
    omega
  rw [burstThen, admittedOf_snoc, admittedOf_burst hp hasks (Nat.le_refl _), if_pos ⟨hp' _, hadmitted⟩]

/-- What a peer gets admitted is bounded by the limit exactly where all it sends is charged to
one caller. -/
theorem peerBounded_iff (cfg : Config) (peer : Lib.IpAddr) (bucket : Bucket) (sends : RateLimit.Request → Prop)
    (hredis : cfg.redis = true) (hhops : trustedProxyHops cfg = 0)
    (hsends : ∀ r, sends r → r.peer = some peer ∧ r.bucket = bucket ∧ "/v1".toList.isPrefixOf r.path.toList) :
    PeerBounded cfg peer bucket sends ↔
      bucket.limit cfg = 0 ∨
        ∀ r r', sends r → sends r' → callerKey cfg.sha256 r 0 = callerKey cfg.sha256 r' 0 := by
  have hsent : ∀ {r : RateLimit.Request}, sends r → ∀ i, sentBy peer bucket ⟨r, 0, 0, i, true⟩ := by
    intro r hr i
    exact decide_eq_true (hsends r hr)
  constructor
  · intro h
    by_contra hn
    obtain ⟨hlimit, hcallers⟩ := not_or.mp hn
    simp only [not_forall] at hcallers
    obtain ⟨r, r', hr, hr', hne⟩ := hcallers
    have hb := (hsends r hr).2.1
    have hb' := (hsends r' hr').2.1
    have hsparse := h (burstThen r r' (r.bucket.limit cfg)) (fun k => orderly_burstThen r r' _)
      (fun k => inTime_burstThen r r' _) (by
        intro a ha _
        rcases List.mem_append.mp ha with ha | ha
        · obtain ⟨i, -, rfl⟩ := List.mem_map.mp ha
          exact hr
        · rw [List.mem_singleton.mp ha]
          exact hr')
    rw [admittedOf_burstThen (hsent hr) (hsent hr') (fun _ => ⟨(hsends r hr).2.2, hredis, rfl⟩)
      (fun _ => ⟨(hsends r' hr').2.2, hredis, rfl⟩) (by rw [hb']; omega)
      (fun heq => hne (by rw [← hhops]; exact congrArg Prod.snd heq))] at hsparse
    have hfull : within windowMs 0 ((burstThen r r' (r.bucket.limit cfg)).map Arrival.now) =
        (burstThen r r' (r.bucket.limit cfg)).map Arrival.now := by
      apply List.filter_eq_self.mpr
      intro t ht
      obtain ⟨a, ha, rfl⟩ := List.mem_map.mp ht
      rw [(burstThen_at_once a ha).1]
      decide
    have hmany := hsparse 0
    rw [hfull, List.length_map, burstThen, List.length_append, length_burst, hb, List.length_singleton] at hmany
    omega
  · rintro (hzero | hsame) arrivals horderly hin hall
    · rw [admittedOf_eq_nil]
      · exact sparse_nil
      · intro a _ ha
        rw [(of_decide_eq_true ha).2.1]
        exact hzero
    · by_cases hany : ∃ a ∈ arrivals, sentBy peer bucket a
      · obtain ⟨a, ha, hsa⟩ := hany
        have hkey : ∀ b ∈ arrivals, sentBy peer bucket b → b.key cfg = a.key cfg := by
          intro b hb hsb
          have hcaller := hsame b.request a.request (hall b hb hsb) (hall a ha hsa)
          rw [← hhops] at hcaller
          exact Prod.ext ((of_decide_eq_true hsb).2.1.trans (of_decide_eq_true hsa).2.1.symm) hcaller
        have hb : (a.key cfg).1 = bucket := (of_decide_eq_true hsa).2.1
        have hsparse := windows_run (horderly (a.key cfg)) (hin (a.key cfg))
        rw [hb] at hsparse
        exact hsparse.sublist ((admittedOf_sublist hkey).map _)
      · rw [admittedOf_eq_nil (fun a ha hsa => absurd ⟨a, ha, hsa⟩ hany)]
        exact sparse_nil

/-- Without a credential, an invented hop changes nothing. -/
def uncredentialed (r : RateLimit.Request) : Prop :=
  r = post [] ∨ r = post [("x-forwarded-for", [49, 46, 49, 46, 49, 46, 49])]

theorem peerBounded_iff_post : PeerBounded onePerMinute (.v4 10 0 0 5) .w uncredentialed := by
  refine (peerBounded_iff onePerMinute (.v4 10 0 0 5) .w uncredentialed rfl rfl ?_).mpr (.inr ?_)
  · rintro r (rfl | rfl)
    · decide
    · decide
  · rintro r r' (rfl | rfl) (rfl | rfl)
    · rfl
    · rfl
    · rfl
    · rfl

/-- A key nobody checks yet is a new caller: with it a peer is admitted a second time. -/
theorem fresh_key_passes : ¬∀ cfg peer bucket, cfg.redis = true → trustedProxyHops cfg = 0 →
    PeerBounded cfg peer bucket
      (fun r => r.peer = some peer ∧ r.bucket = bucket ∧ "/v1".toList.isPrefixOf r.path.toList) := by
  intro h
  have hsparse := h onePerMinute (.v4 10 0 0 5) .w rfl rfl (burstThen (post []) (post [("x-api-key", [97])]) 1)
    (fun k => orderly_burstThen _ _ _) (fun k => inTime_burstThen _ _ _) (fun a _ ha => of_decide_eq_true ha)
  exact absurd (hsparse 0) (by decide)

end Lulan.Proofs
