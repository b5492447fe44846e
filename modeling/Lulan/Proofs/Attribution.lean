import Mathlib.Data.List.Induction
import Lulan.Api.RateLimit

/-!
# Whom a request is charged to

The address a request is attributed to, from what its sender writes into `X-Forwarded-For` and
what the proxies in front add to it.
-/

namespace Lulan.Proofs

open RateLimit

/-- A proxy puts the address it was called from behind the lines it joins into one, or adds it as
a line of its own. -/
inductive Forwarding where
  | entry
  | line
deriving DecidableEq

/-- A trusted proxy and the address it writes down. -/
structure Hop where
  adds : Forwarding
  address : Bytes
  plain : ∀ b ∈ address, 33 ≤ b ∧ b < 127 ∧ b ≠ 44

def text (line : Bytes) : List Char := line.map (fun b => Char.ofNat b.toNat)

def joined (lines : List Bytes) : Bytes := [44, 32].intercalate lines

def forward (lines : List Bytes) (hop : Hop) : List Bytes :=
  match hop.adds with
  | .entry => [joined (lines ++ [hop.address])]
  | .line => lines ++ [hop.address]

/-- What reaches the server of the lines a client sent. -/
def front (hops : List Hop) (sent : List Bytes) : List Bytes := hops.foldl forward sent

/-- The entries of the lines, in order. -/
def entriesOf (lines : List Bytes) : List (List Char) := lines.flatMap (fun line => entries (text line))

variable {hops : List Hop} {hop : Hop} {lines sent : List Bytes} {line : Bytes} {r : RateLimit.Request} {n : Nat}

/-! ### Entries -/

lemma text_append (l₁ l₂ : Bytes) : text (l₁ ++ l₂) = text l₁ ++ text l₂ := List.map_append

lemma trimmed_blank (s : List Char) : trimmed (' ' :: s) = trimmed s := rfl

lemma entries_blank (s : List Char) : entries (' ' :: s) = entries s := by
  rw [entries, entries, List.splitOn_cons_eq_if_modifyHead, if_neg (by decide)]
  cases s.splitOn ',' with
  | nil => rfl
  | cons first rest => rw [List.modifyHead_cons, List.map_cons, List.map_cons, trimmed_blank]

lemma entries_append (l₁ l₂ : Bytes) :
    entries (text (l₁ ++ 44 :: 32 :: l₂)) = entries (text l₁) ++ entries (text l₂) := by
  have hcomma : text (l₁ ++ 44 :: 32 :: l₂) = text l₁ ++ ',' :: ' ' :: text l₂ := text_append l₁ _
  rw [← entries_blank (text l₂), hcomma, entries, List.splitOn_append_cons_self, List.map_append]
  rfl

lemma entries_joined (hne : lines ≠ []) : entries (text (joined lines)) = entriesOf lines := by
  induction lines with
  | nil => exact absurd rfl hne
  | cons first rest ih =>
    cases rest with
    | nil => rw [joined, List.intercalate_singleton, entriesOf, List.flatMap_singleton]
    | cons second rest =>
      have hsplit : joined (first :: second :: rest) = first ++ 44 :: 32 :: joined (second :: rest) := by
        rw [joined, List.intercalate_cons_cons, List.append_assoc]
        rfl
      rw [hsplit, entries_append, ih (List.cons_ne_nil _ _)]
      rfl

lemma plain_char : ∀ b < 127, 33 ≤ b → b ≠ 44 → Char.ofNat b ≠ ',' ∧ blank (Char.ofNat b) = false := by decide

lemma Hop.char (hop : Hop) {c : Char} (hc : c ∈ text hop.address) : c ≠ ',' ∧ blank c = false := by
  obtain ⟨b, hb, rfl⟩ := List.mem_map.mp hc
  obtain ⟨hlow, hhigh, hcomma⟩ := hop.plain b hb
  apply plain_char b.toNat hhigh hlow
  intro heq
  exact hcomma (UInt8.toNat_inj.mp heq)

lemma dropWhile_blank {s : List Char} (h : ∀ c ∈ s, blank c = false) : s.dropWhile blank = s := by
  cases s with
  | nil => rfl
  | cons c s => rw [List.dropWhile_cons_of_neg (by simp [h c List.mem_cons_self])]

lemma entries_address (hop : Hop) : entries (text hop.address) = [text hop.address] := by
  have hblank : ∀ c ∈ text hop.address, blank c = false := fun c hc => (hop.char hc).2
  have htrim : trimmed (text hop.address) = text hop.address := by
    rw [trimmed, dropWhile_blank hblank, dropWhile_blank (fun c hc => hblank c (List.mem_reverse.mp hc)),
      List.reverse_reverse]
  rw [entries, List.splitOn_eq_singleton (fun hc => (hop.char hc).1 rfl), List.map_singleton, htrim]

lemma entriesOf_append (l₁ l₂ : List Bytes) : entriesOf (l₁ ++ l₂) = entriesOf l₁ ++ entriesOf l₂ :=
  List.flatMap_append

lemma entriesOf_singleton (line : Bytes) : entriesOf [line] = entries (text line) := List.flatMap_singleton _ _

/-- A proxy adds one entry behind the others. -/
lemma entriesOf_forward (lines : List Bytes) (hop : Hop) :
    entriesOf (forward lines hop) = entriesOf lines ++ [text hop.address] := by
  have happend : entriesOf (lines ++ [hop.address]) = entriesOf lines ++ [text hop.address] := by
    rw [entriesOf_append, entriesOf_singleton, entries_address]
  cases h : hop.adds with
  | entry => rw [forward, h, ← happend, entriesOf_singleton, entries_joined (by simp)]
  | line => rw [forward, h, ← happend]

lemma entriesOf_front (hops : List Hop) (sent : List Bytes) :
    entriesOf (front hops sent) = entriesOf sent ++ hops.map (fun h => text h.address) := by
  induction hops generalizing sent with
  | nil => rw [List.map_nil, List.append_nil]; rfl
  | cons hop hops ih =>
    have hstep : front (hop :: hops) sent = front hops (forward sent hop) := rfl
    rw [hstep, ih, entriesOf_forward, List.append_assoc, List.map_cons, List.singleton_append]

lemma front_append (hops : List Hop) (hop : Hop) (sent : List Bytes) :
    front (hops ++ [hop]) sent = forward (front hops sent) hop := by
  rw [front, List.foldl_append]
  rfl

/-! ### Readable lines -/

/-- The bytes of some lines. -/
def bytesOf (lines : List Bytes) : Bytes := lines.flatten

lemma mem_joined {b : UInt8} (hb : b ∈ joined lines) : b ∈ bytesOf lines ∨ b = 44 ∨ b = 32 := by
  induction lines with
  | nil => cases hb
  | cons first rest ih =>
    cases rest with
    | nil =>
      rw [joined, List.intercalate_singleton] at hb
      left
      rw [bytesOf, List.flatten_singleton]
      exact hb
    | cons second rest =>
      rw [joined, List.intercalate_cons_cons, List.mem_append, List.mem_append] at hb
      rcases hb with (hb | hb) | hb
      · left
        exact List.mem_append_left _ hb
      · right
        simpa using hb
      · rcases ih hb with hb | hb
        · left
          exact List.mem_append_right _ hb
        · exact Or.inr hb

lemma joined_mem {b : UInt8} (hb : b ∈ bytesOf lines) : b ∈ joined lines := by
  induction lines with
  | nil => cases hb
  | cons first rest ih =>
    cases rest with
    | nil =>
      rw [joined, List.intercalate_singleton]
      rwa [bytesOf, List.flatten_singleton] at hb
    | cons second rest =>
      rw [joined, List.intercalate_cons_cons, List.mem_append, List.mem_append]
      rcases List.mem_append.mp hb with hb | hb
      · exact Or.inl (Or.inl hb)
      · exact Or.inr (ih hb)

lemma Hop.visible (hop : Hop) {b : UInt8} (hb : b ∈ hop.address) : visible b = true := by
  obtain ⟨hlow, hhigh, -⟩ := hop.plain b hb
  have hlow' : (32 : UInt8) ≤ b := UInt8.le_trans (by decide) hlow
  simp [RateLimit.visible, hlow', hhigh]

/-- What the proxies add is readable. -/
lemma bytesOf_front {b : UInt8} (hb : b ∈ bytesOf (front hops sent)) : b ∈ bytesOf sent ∨ visible b = true := by
  induction hops using List.reverseRecOn with
  | nil => exact Or.inl hb
  | append_singleton hops hop ih =>
    have hadded : b ∈ bytesOf (front hops sent ++ [hop.address]) → b ∈ bytesOf sent ∨ visible b = true := by
      intro hb
      rw [bytesOf, List.flatten_append, List.flatten_singleton] at hb
      rcases List.mem_append.mp hb with hb | hb
      · exact ih hb
      · exact Or.inr (hop.visible hb)
    rw [front_append] at hb
    cases h : hop.adds with
    | entry =>
      rw [forward, h, bytesOf, List.flatten_singleton] at hb
      rcases mem_joined hb with hb | rfl | rfl
      · exact hadded hb
      · exact Or.inr rfl
      · exact Or.inr rfl
    | line =>
      rw [forward, h] at hb
      exact hadded hb

/-- What the client sent reaches the server. -/
lemma mem_front {b : UInt8} (hb : b ∈ bytesOf sent) : b ∈ bytesOf (front hops sent) := by
  induction hops using List.reverseRecOn with
  | nil => exact hb
  | append_singleton hops hop ih =>
    have hadded : b ∈ bytesOf (front hops sent ++ [hop.address]) := by
      rw [bytesOf, List.flatten_append]
      exact List.mem_append_left _ ih
    rw [front_append]
    cases h : hop.adds with
    | entry =>
      rw [forward, h, bytesOf, List.flatten_singleton]
      exact joined_mem hadded
    | line =>
      rw [forward, h]
      exact hadded

/-! ### Attribution -/

def forwardedLines (r : RateLimit.Request) : List Bytes :=
  (r.headers.filter (fun h => h.1 = "x-forwarded-for")).map Prod.snd

/-- A request without a readable credential, as the proxies hand it over. -/
structure Arrives (hops : List Hop) (peer : Option Lib.IpAddr) (sent : List Bytes) (r : RateLimit.Request) :
    Prop where
  anonymous : credential r = none
  peer : r.peer = peer
  lines : forwardedLines r = front hops sent

def callerOf : Option Lib.IpAddr → Caller
  | some ip => .ip ip
  | none => .unknown

lemma callerOf_injective {x y : Option Lib.IpAddr} (h : callerOf x = callerOf y) : x = y := by
  cases x with
  | none =>
    cases y with
    | none => rfl
    | some y => cases h
  | some x =>
    cases y with
    | none => cases h
    | some y => rw [Caller.ip.inj h]

lemma callerKey_eq (sha256 : Bytes → Bytes) (h : credential r = none) :
    callerKey sha256 r n = callerOf (clientIp r n) := by
  rw [callerKey, h]
  cases clientIp r n with
  | none => rfl
  | some ip => rfl

lemma header_eq (r : RateLimit.Request) : r.header "x-forwarded-for" = (forwardedLines r).head? := by
  rw [RateLimit.Request.header, forwardedLines, List.head?_map, List.head?_filter]

/-- The entry that is counted from the right, where there are enough. -/
def counted (es : List (List Char)) (n : Nat) : Option (List Char) :=
  if n ≤ es.length then es[es.length - n]? else none

lemma counted_nil (n : Nat) : counted [] n = none := by
  rw [counted, List.getElem?_nil, ite_self]

lemma counted_append {own added : List (List Char)} {n : Nat} (hn : n = added.length) :
    counted (own ++ added) n = added[0]? := by
  subst hn
  rw [counted, List.length_append, if_pos (Nat.le_add_left _ _), Nat.add_sub_cancel,
    List.getElem?_append_right (Nat.le_refl _), Nat.sub_self]

lemma clientIp_readable {rest : List Bytes} (hn : n ≠ 0) (h : forwardedLines r = line :: rest)
    (hv : line.all visible = true) :
    clientIp r n = ((counted (entries (text line)) n).bind Lib.IpAddr.parse).or r.peer := by
  rw [clientIp, if_neg hn, header_eq, h, List.head?_cons, Option.bind_some, toStr, if_pos hv]
  rfl

lemma clientIp_unreadable {rest : List Bytes} (hn : n ≠ 0) (h : forwardedLines r = line :: rest)
    (hv : line.all visible = false) : clientIp r n = r.peer := by
  rw [clientIp, if_neg hn, header_eq, h, List.head?_cons, Option.bind_some, toStr, hv]
  exact congrArg (fun e => (Option.bind e Lib.IpAddr.parse).or r.peer) (counted_nil n)

/-- Behind a proxy that joins the lines, a readable header leads to the address the first proxy
wrote down. -/
lemma clientIp_joined {a : Lib.IpAddr} {peer : Option Lib.IpAddr} (hadds : hop.adds = .entry)
    (hfirst : (hops ++ [hop]).head?.bind (fun h => Lib.IpAddr.parse (text h.address)) = some a)
    (harrives : Arrives (hops ++ [hop]) peer sent r) :
    clientIp r (hops ++ [hop]).length =
      if (bytesOf (front (hops ++ [hop]) sent)).all visible then some a else peer := by
  have hpos : (hops ++ [hop]).length ≠ 0 := by simp
  have hone : front (hops ++ [hop]) sent = [joined (front hops sent ++ [hop.address])] := by
    rw [front_append, forward, hadds]
  have hentries := entriesOf_front (hops ++ [hop]) sent
  have hlines := harrives.lines
  rw [hone] at hlines hentries
  rw [entriesOf_singleton] at hentries
  rw [hone, bytesOf, List.flatten_singleton]
  by_cases hv : (joined (front hops sent ++ [hop.address])).all visible = true
  · rw [if_pos hv, clientIp_readable hpos hlines hv, hentries, counted_append (by rw [List.length_map]),
      ← List.head?_eq_getElem?, List.head?_map, Option.bind_map]
    exact congrArg (fun x => Option.or x r.peer) hfirst
  · rw [if_neg hv, clientIp_unreadable hpos hlines (Bool.eq_false_iff.mpr hv)]
    exact harrives.peer

/-! ### Chosen lines -/

/-- A line that names an address in front of `m` other entries. -/
def decoy (address : Bytes) (m : Nat) : Bytes := joined (address :: List.replicate m [48])

lemma entries_decoy (hop : Hop) (m : Nat) :
    entries (text (decoy hop.address m)) = text hop.address :: List.replicate m ['0'] := by
  have hzeros : entriesOf (List.replicate m [48]) = List.replicate m ['0'] := by
    induction m with
    | zero => rfl
    | succ m ih =>
      rw [List.replicate_succ, List.replicate_succ, ← ih]
      rfl
  rw [decoy, entries_joined (List.cons_ne_nil _ _), entriesOf, List.flatMap_cons, entries_address,
    List.singleton_append]
  exact congrArg _ hzeros

lemma visible_decoy (hop : Hop) {m : Nat} {b : UInt8} (hb : b ∈ decoy hop.address m) : visible b = true := by
  rcases mem_joined hb with hb | rfl | rfl
  · rw [bytesOf, List.flatten_cons] at hb
    rcases List.mem_append.mp hb with hb | hb
    · exact hop.visible hb
    · obtain ⟨zero, hz, hb⟩ := List.mem_flatten.mp hb
      rw [List.eq_of_mem_replicate hz] at hb
      rw [List.mem_singleton.mp hb]
      rfl
  · rfl
  · rfl

/-- Of a client's one line, the first line the server sees holds all and the entries of a number
of proxies that does not depend on it. -/
lemma first_line (hops : List Hop) :
    ∃ k ≤ hops.length, ∀ x : Bytes, ∃ line rest, front hops [x] = line :: rest ∧
      entries (text line) = entries (text x) ++ (hops.take k).map (fun h => text h.address) := by
  induction hops using List.reverseRecOn with
  | nil => exact ⟨0, Nat.le_refl 0, fun x => ⟨x, [], rfl, by rw [List.take_zero, List.map_nil, List.append_nil]⟩⟩
  | append_singleton hops hop ih =>
    obtain ⟨k, hk, hfirst⟩ := ih
    cases h : hop.adds with
    | entry =>
      refine ⟨(hops ++ [hop]).length, Nat.le_refl _, fun x => ?_⟩
      have hentries := entriesOf_front (hops ++ [hop]) [x]
      have hone : front (hops ++ [hop]) [x] = [joined (front hops [x] ++ [hop.address])] := by
        rw [front_append, forward, h]
      rw [hone, entriesOf_singleton, entriesOf_singleton] at hentries
      refine ⟨_, [], hone, ?_⟩
      rw [hentries, List.take_length]
    | line =>
      refine ⟨k, by rw [List.length_append]; omega, fun x => ?_⟩
      obtain ⟨line, rest, hlines, hentries⟩ := hfirst x
      refine ⟨line, rest ++ [hop.address], ?_, ?_⟩
      · rw [front_append, forward, h, hlines]
        rfl
      · rw [hentries, List.take_append_of_le_length hk]

/-- Behind a proxy that adds a line of its own, the client's line decides, and it can name any
address. -/
lemma clientIp_chosen (hops : List Hop) (hadds : hop.adds = .line) (peer : Option Lib.IpAddr) :
    ∃ m, ∀ (named : Hop) (b : Lib.IpAddr) (r : RateLimit.Request), Lib.IpAddr.parse (text named.address) = some b →
      Arrives (hops ++ [hop]) peer [decoy named.address m] r → clientIp r (hops ++ [hop]).length = some b := by
  obtain ⟨k, hk, hfirst⟩ := first_line hops
  refine ⟨hops.length - k, ?_⟩
  intro named b r hparse harrives
  obtain ⟨line, rest, hlines, hentries⟩ := hfirst (decoy named.address (hops.length - k))
  have hseen := harrives.lines
  rw [front_append, forward, hadds, hlines, List.cons_append] at hseen
  have hv : line.all visible = true := by
    apply List.all_eq_true.mpr
    intro c hc
    have hmem : c ∈ bytesOf (front hops [decoy named.address (hops.length - k)]) := by
      rw [hlines]
      exact List.mem_append_left _ hc
    rcases bytesOf_front hmem with hsent | hv
    · rw [bytesOf, List.flatten_singleton] at hsent
      exact visible_decoy named hsent
    · exact hv
  have hcounted : counted (entries (text line)) (hops ++ [hop]).length = some (text named.address) := by
    have hlength : (entries (text line)).length = (hops ++ [hop]).length := by
      rw [hentries, entries_decoy, List.length_append, List.length_cons, List.length_replicate, List.length_map,
        List.length_take, List.length_append, List.length_singleton]
      omega
    rw [counted, if_pos (Nat.le_of_eq hlength.symm), hlength, Nat.sub_self, hentries, entries_decoy]
    rfl
  rw [clientIp_readable (by simp) hseen hv, hcounted, Option.bind_some, hparse, Option.some_or]

/-- The request with these lines and no other header. -/
def arriving (hops : List Hop) (peer : Option Lib.IpAddr) (sent : List Bytes) : RateLimit.Request :=
  ⟨.get, "/v1/trips/search", (front hops sent).map (fun line => ("x-forwarded-for", line)), peer⟩

lemma arrives_arriving (hops : List Hop) (peer : Option Lib.IpAddr) (sent : List Bytes) :
    Arrives hops peer sent (arriving hops peer sent) := by
  constructor
  · have hnone : ∀ name, name ≠ "x-forwarded-for" → (arriving hops peer sent).header name = none := by
      intro name hname
      rw [RateLimit.Request.header, arriving, List.find?_eq_none.mpr, Option.map_none]
      intro h hh
      obtain ⟨line, -, rfl⟩ := List.mem_map.mp hh
      simpa using Ne.symm hname
    rw [credential, hnone _ (by decide), hnone _ (by decide)]
    rfl
  · rfl
  · rw [forwardedLines, arriving, List.filter_map, List.map_map]
    have hall : (front hops sent).filter ((fun h : String × Bytes => decide (h.1 = "x-forwarded-for")) ∘
        fun line => ("x-forwarded-for", line)) = front hops sent :=
      List.filter_eq_self.mpr (fun _ _ => rfl)
    rw [hall]
    exact List.map_id _

def LetThrough (lets : UInt8 → Prop) (sent : List Bytes) : Prop := ∀ b ∈ bytesOf sent, lets b

/-- Whatever a client sends, as far as bytes are let through, it is charged to the same caller. -/
def Fixed (sha256 : Bytes → Bytes) (lets : UInt8 → Prop) (hops : List Hop) (peer : Option Lib.IpAddr) : Prop :=
  ∀ sent₁ sent₂ r₁ r₂, LetThrough lets sent₁ → LetThrough lets sent₂ →
    Arrives hops peer sent₁ r₁ → Arrives hops peer sent₂ r₂ →
    callerKey sha256 r₁ hops.length = callerKey sha256 r₂ hops.length

def ones : Hop := ⟨.line, [49, 46, 49, 46, 49, 46, 49], by simp⟩

def twos : Hop := ⟨.line, [50, 46, 50, 46, 50, 46, 50], by simp⟩

/-- A client cannot change its attribution exactly where the last proxy joins the lines and no
unreadable byte comes through; a client at the address of the connection has nothing to gain from
one. -/
theorem fixed_iff (sha256 : Bytes → Bytes) (lets : UInt8 → Prop) (hops : List Hop) (peer : Option Lib.IpAddr)
    (a : Lib.IpAddr) (hlets : ∀ b, visible b = true → lets b)
    (hfirst : hops.head?.bind (fun h => Lib.IpAddr.parse (text h.address)) = some a) :
    Fixed sha256 lets hops peer ↔
      (∀ hop ∈ hops.getLast?, hop.adds = .entry) ∧ ((∀ b, lets b → visible b = true) ∨ peer = some a) := by
  obtain ⟨init, hop, rfl⟩ : ∃ init hop, hops = init ++ [hop] := by
    rcases List.eq_nil_or_concat hops with rfl | h
    · cases hfirst
    · simpa using h
  constructor
  · intro hfixed
    have hadds : hop.adds = .entry := by
      cases h : hop.adds with
      | entry => rfl
      | line =>
        obtain ⟨m, hchosen⟩ := clientIp_chosen init h peer
        have hsent : ∀ named : Hop, LetThrough lets [decoy named.address m] := by
          intro named b hb
          rw [bytesOf, List.flatten_singleton] at hb
          exact hlets b (visible_decoy named hb)
        have harrives := arrives_arriving (init ++ [hop]) peer
        have hone := hchosen ones (.v4 1 1 1 1) _ rfl (harrives [decoy ones.address m])
        have htwo := hchosen twos (.v4 2 2 2 2) _ rfl (harrives [decoy twos.address m])
        have heq := hfixed _ _ _ _ (hsent ones) (hsent twos) (harrives _) (harrives _)
        rw [callerKey_eq sha256 (harrives _).anonymous, callerKey_eq sha256 (harrives _).anonymous, hone,
          htwo] at heq
        cases heq
    refine ⟨by simp [hadds], ?_⟩
    by_contra hn
    obtain ⟨hbytes, hpeer⟩ := not_or.mp hn
    simp only [not_forall] at hbytes
    obtain ⟨b, hb, hv⟩ := hbytes
    have hsent : LetThrough lets [[b]] := by
      intro c hc
      rw [bytesOf, List.flatten_singleton] at hc
      rw [List.mem_singleton.mp hc]
      exact hb
    have harrives := arrives_arriving (init ++ [hop]) peer
    have heq := hfixed [[b]] [] _ _ hsent (fun _ h => by cases h) (harrives _) (harrives _)
    have hunread : (bytesOf (front (init ++ [hop]) [[b]])).all visible = false := by
      apply List.all_eq_false.mpr
      exact ⟨b, mem_front (by simp [bytesOf]), hv⟩
    have hread : (bytesOf (front (init ++ [hop]) [])).all visible = true := by
      apply List.all_eq_true.mpr
      intro c hc
      rcases bytesOf_front hc with h | h
      · cases h
      · exact h
    rw [callerKey_eq sha256 (harrives _).anonymous, callerKey_eq sha256 (harrives _).anonymous,
      clientIp_joined hadds hfirst (harrives _), clientIp_joined hadds hfirst (harrives _), hunread, hread] at heq
    exact hpeer (callerOf_injective heq)
  · rintro ⟨hlast, hreadable⟩ sent₁ sent₂ r₁ r₂ hsent₁ hsent₂ h₁ h₂
    have hadds : hop.adds = .entry := hlast hop (by simp)
    have hattributed : ∀ {sent r}, LetThrough lets sent → Arrives (init ++ [hop]) peer sent r →
        clientIp r (init ++ [hop]).length = some a := by
      intro sent r hsent harrives
      rw [clientIp_joined hadds hfirst harrives]
      rcases hreadable with hbytes | hpeer
      · rw [if_pos]
        apply List.all_eq_true.mpr
        intro c hc
        rcases bytesOf_front hc with h | h
        · exact hbytes c (hsent c h)
        · exact h
      · rw [hpeer, ite_self]
    rw [callerKey_eq sha256 h₁.anonymous, callerKey_eq sha256 h₂.anonymous, hattributed hsent₁ h₁,
      hattributed hsent₂ h₂]

/-- One proxy in front, in either way of adding its entry. -/
def oneProxy (adds : Forwarding) : List Hop := [⟨adds, [50, 48, 51, 46, 48, 46, 49, 49, 51, 46, 55], by simp⟩]

theorem fixed_iff_joining : Fixed id (fun b => visible b = true) (oneProxy .entry) (some (.v4 10 0 0 5)) := by
  refine (fixed_iff id (fun b => visible b = true) (oneProxy .entry) (some (.v4 10 0 0 5)) (.v4 203 0 113 7)
    (fun _ h => h) rfl).mpr ⟨fun hop hhop => ?_, .inl (fun _ h => h)⟩
  cases hhop
  rfl

/-- The bytes the HTTP layer admits in a header value. -/
def headerByte (b : UInt8) : Prop := 32 ≤ b ∧ b ≠ 127 ∨ b = 9

/-- A line of the client's own in front of the proxy's is the one that counts. -/
theorem own_line_counts : ¬∀ sha256 hops peer, hops ≠ [] → Fixed sha256 headerByte hops peer := by
  intro h
  have harrives := arrives_arriving (oneProxy .line) (some (.v4 10 0 0 5))
  have heq := h id (oneProxy .line) (some (.v4 10 0 0 5)) (List.cons_ne_nil _ _) [ones.address] [twos.address] _ _
    (by simp [LetThrough, headerByte, bytesOf, ones]) (by simp [LetThrough, headerByte, bytesOf, twos])
    (harrives _) (harrives _)
  exact absurd heq (by decide)

end Lulan.Proofs
