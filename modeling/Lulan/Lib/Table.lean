import Mathlib.Data.List.Nodup
import Mathlib.Algebra.BigOperators.Group.List.Basic

/-!
# Keyed tables

A table is a list of rows in insertion order together with the proof that its
primary key is unique. Inserts refuse a duplicate key, updates may not touch the key.
-/

namespace Lib

/-- Rows in insertion order, unique by `key`. -/
structure Table {α κ : Type} (key : α → κ) where
  rows : List α
  nodup : (rows.map key).Nodup

/-- A change to a row that leaves its key alone. -/
structure Assign {α κ : Type} (key : α → κ) where
  set : α → α
  key_set : ∀ r, key (set r) = key r

namespace Table

variable {α κ : Type} {key : α → κ}

@[ext] lemma ext {t u : Table key} (h : t.rows = u.rows) : t = u := by
  cases t
  cases u
  cases h
  rfl

def empty : Table key := ⟨[], List.nodup_nil⟩

instance : Inhabited (Table key) := ⟨empty⟩

@[simp] lemma rows_empty : (empty : Table key).rows = [] := rfl

/-- `SELECT … WHERE p`, in insertion order. -/
def select (t : Table key) (p : α → Bool) : List α := t.rows.filter p

lemma mem_select {t : Table key} {p : α → Bool} {r : α} :
    r ∈ t.select p ↔ r ∈ t.rows ∧ p r = true := List.mem_filter

/-- The same rows with other columns; the key stays. -/
def mapRows {β : Type} {key' : β → κ} (t : Table key) (f : α → β) (hf : ∀ r, key' (f r) = key r) : Table key' where
  rows := t.rows.map f
  nodup := by
    have he : key' ∘ f = key := by
      funext r
      exact hf r
    rw [List.map_map, he]
    exact t.nodup

/-- `UPDATE … SET f WHERE p`. -/
def update (t : Table key) (p : α → Bool) (f : Assign key) : Table key where
  rows := t.rows.map (fun r => if p r then f.set r else r)
  nodup := by
    have he : key ∘ (fun r => if p r then f.set r else r) = key := by
      funext r
      by_cases h : p r <;> simp [h, f.key_set]
    rw [List.map_map, he]
    exact t.nodup

/-- Rows an `UPDATE … WHERE p` reports as affected. -/
def affected (t : Table key) (p : α → Bool) : Nat := t.rows.countP p

/-- `DELETE … WHERE p`. -/
def delete (t : Table key) (p : α → Bool) : Table key where
  rows := t.rows.filter (fun r => !p r)
  nodup := t.nodup.sublist (List.filter_sublist.map key)

@[simp] lemma rows_update (t : Table key) (p : α → Bool) (f : Assign key) :
    (t.update p f).rows = t.rows.map (fun r => if p r then f.set r else r) := rfl

@[simp] lemma rows_delete (t : Table key) (p : α → Bool) :
    (t.delete p).rows = t.rows.filter (fun r => !p r) := rfl

lemma update_false (t : Table key) (p : α → Bool) (f : Assign key) (hp : ∀ r ∈ t.rows, p r = false) :
    t.update p f = t := by
  apply ext
  rw [rows_update]
  conv_rhs => rw [← List.map_id t.rows]
  exact List.map_congr_left (fun r hr => by simp [hp r hr])

section Lookup

variable [DecidableEq κ]

/-- The row with primary key `k`. -/
def find? (t : Table key) (k : κ) : Option α := t.rows.find? (fun r => decide (key r = k))

/-- `INSERT`; `none` is a primary key violation. -/
def insert (t : Table key) (r : α) : Option (Table key) :=
  if h : key r ∈ t.rows.map key then none
  else some ⟨t.rows ++ [r], by
    rw [List.map_append, List.nodup_append]
    refine ⟨t.nodup, by simp, ?_⟩
    intro a ha b hb
    rw [List.map_singleton, List.mem_singleton] at hb
    subst hb
    exact fun he => h (he ▸ ha)⟩

lemma find?_eq_some {t : Table key} {k : κ} {r : α} :
    t.find? k = some r ↔ r ∈ t.rows ∧ key r = k := by
  constructor
  · intro h
    exact ⟨List.mem_of_find?_eq_some h, by simpa using List.find?_some h⟩
  · rintro ⟨hr, rfl⟩
    cases h : t.find? (key r) with
    | none =>
      have hn := List.find?_eq_none.mp h r hr
      simp at hn
    | some r' =>
      have hr' : r' ∈ t.rows := List.mem_of_find?_eq_some h
      have hk : key r' = key r := by simpa using List.find?_some h
      rw [List.inj_on_of_nodup_map t.nodup hr' hr hk]

lemma find?_eq_none {t : Table key} {k : κ} : t.find? k = none ↔ ∀ r ∈ t.rows, key r ≠ k := by
  simp [find?, List.find?_eq_none]

lemma find?_key {t : Table key} {k : κ} {r : α} (h : t.find? k = some r) : key r = k :=
  (find?_eq_some.mp h).2

lemma find?_mem {t : Table key} {k : κ} {r : α} (h : t.find? k = some r) : r ∈ t.rows :=
  (find?_eq_some.mp h).1

lemma find?_of_mem {t : Table key} {r : α} (h : r ∈ t.rows) : t.find? (key r) = some r :=
  find?_eq_some.mpr ⟨h, rfl⟩

@[simp] lemma find?_empty (k : κ) : (empty : Table key).find? k = none := rfl

lemma insert_eq_some {t t' : Table key} {r : α} :
    t.insert r = some t' ↔ t.find? (key r) = none ∧ t'.rows = t.rows ++ [r] := by
  have hm : key r ∈ t.rows.map key ↔ t.find? (key r) ≠ none := by
    rw [ne_eq, find?_eq_none]
    simp [List.mem_map]
  unfold insert
  split
  · rename_i h
    exact ⟨fun he => (Option.some_ne_none _ he.symm).elim, fun he => absurd he.1 (hm.mp h)⟩
  · rename_i h
    have hn : t.find? (key r) = none := not_not.mp (fun hc => h (hm.mpr hc))
    constructor
    · intro he
      cases he
      exact ⟨hn, rfl⟩
    · rintro ⟨_, hr⟩
      exact congrArg some (ext hr.symm)

lemma insert_eq_none {t : Table key} {r : α} : t.insert r = none ↔ t.find? (key r) ≠ none := by
  constructor
  · intro h hn
    have he : key r ∉ t.rows.map key := by
      rw [List.mem_map]
      rintro ⟨r', hr', hk⟩
      exact find?_eq_none.mp hn r' hr' hk
    rw [insert, dif_neg he] at h
    exact Option.some_ne_none _ h
  · intro h
    cases hi : t.insert r with
    | none => rfl
    | some t' => exact absurd (insert_eq_some.mp hi).1 h

lemma find?_insert {t t' : Table key} {r : α} (h : t.insert r = some t') (k : κ) :
    t'.find? k = if key r = k then some r else t.find? k := by
  obtain ⟨hn, hr⟩ := insert_eq_some.mp h
  unfold find?
  rw [hr, List.find?_append]
  by_cases hk : key r = k
  · subst hk
    have hn' : t.rows.find? (fun r' => decide (key r' = key r)) = none := hn
    simp [hn']
  · simp [hk]

lemma find?_update (t : Table key) (p : α → Bool) (f : Assign key) (k : κ) :
    (t.update p f).find? k = (t.find? k).map (fun r => if p r then f.set r else r) := by
  have he : (fun r => decide (key r = k)) ∘ (fun r => if p r then f.set r else r) =
      fun r => decide (key r = k) := by
    funext r
    by_cases h : p r <;> simp [h, f.key_set]
  unfold find?
  rw [rows_update, List.find?_map, he]

lemma find?_update_of_forall_ne {t : Table key} {p : α → Bool} {f : Assign key} {k : κ}
    (hp : ∀ r, key r = k → p r = false) : (t.update p f).find? k = t.find? k := by
  rw [find?_update]
  cases h : t.find? k with
  | none => rfl
  | some r => simp [hp r (find?_key h)]

lemma find?_delete (t : Table key) (p : α → Bool) (k : κ) :
    (t.delete p).find? k = (t.find? k).filter (fun r => !p r) := by
  cases h : t.find? k with
  | none =>
    rw [Option.filter_none, find?_eq_none]
    exact fun r hr => find?_eq_none.mp h r (List.mem_filter.mp hr).1
  | some r =>
    obtain ⟨hr, hk⟩ := find?_eq_some.mp h
    by_cases hp : p r
    · have hnone : (t.delete p).find? k = none := by
        rw [find?_eq_none]
        intro r' hr' hk'
        obtain ⟨hm, hq⟩ := List.mem_filter.mp hr'
        have he := List.inj_on_of_nodup_map t.nodup hm hr (hk'.trans hk.symm)
        simp [he, hp] at hq
      rw [hnone, Option.filter_some, hp]
      rfl
    · have hsome : (t.delete p).find? k = some r :=
        find?_eq_some.mpr ⟨List.mem_filter.mpr ⟨hr, by simp [hp]⟩, hk⟩
      rw [hsome, Option.filter_some, if_pos (by simp [hp])]

lemma find?_mapRows {β : Type} {key' : β → κ} (t : Table key) (f : α → β) (hf : ∀ r, key' (f r) = key r) (k : κ) :
    (t.mapRows f hf).find? k = (t.find? k).map f := by
  unfold find? mapRows
  rw [List.find?_map]
  congr 2
  funext r
  simp only [Function.comp_apply, hf]

/-- `INSERT … ON CONFLICT DO UPDATE`: the row as it is, whatever stood under its key. -/
def put (t : Table key) (r : α) : Table key :=
  (t.insert r).getD (t.update (fun r' => decide (key r' = key r))
    ⟨fun r' => if key r' = key r then r else r', fun r' => by
      split
      · rename_i h
        exact h.symm
      · rfl⟩)

lemma find?_put (t : Table key) (r : α) (k : κ) :
    (t.put r).find? k = if key r = k then some r else t.find? k := by
  unfold put
  cases hi : t.insert r with
  | some t' => exact find?_insert hi k
  | none =>
    rw [Option.getD_none, find?_update]
    cases hf : t.find? k with
    | none =>
      have hne : key r ≠ k := fun he => insert_eq_none.mp hi (he ▸ hf)
      rw [if_neg hne, Option.map_none]
    | some r' =>
      have hk := find?_key hf
      by_cases h : key r = k
      · simp [h, hk]
      · simp [h, hk, Ne.symm h]

/-- The rows of `u` over those of `t`. -/
def merge (t u : Table key) : Table key := u.rows.foldl put t

@[simp] lemma merge_empty (t : Table key) : t.merge empty = t := rfl

lemma find?_merge (t u : Table key) (k : κ) : (t.merge u).find? k = (u.find? k).or (t.find? k) := by
  obtain ⟨rows, hnodup⟩ := u
  simp only [merge, find?]
  induction rows generalizing t with
  | nil => rfl
  | cons r rest ih =>
    obtain ⟨hr, hrest⟩ := List.nodup_cons.mp (List.map_cons ▸ hnodup)
    have htail := ih (t.put r) hrest
    rw [List.foldl_cons, List.find?_cons, htail]
    have hput : List.find? (fun r' => decide (key r' = k)) (t.put r).rows =
        if key r = k then some r else t.find? k := find?_put t r k
    rw [hput]
    by_cases h : key r = k
    · subst h
      have hnone : rest.find? (fun r' => decide (key r' = key r)) = none := by
        rw [List.find?_eq_none]
        intro r' hr' he
        exact hr (List.mem_map.mpr ⟨r', hr', of_decide_eq_true he⟩)
      simp [hnone]
    · simp [h, find?]

/-- A primary key selects its row alone. -/
lemma filter_key {t : Table key} {k : κ} {r : α} (h : t.find? k = some r) :
    t.rows.filter (fun r => decide (key r = k)) = [r] := by
  have hmem : r ∈ t.rows.filter (fun r => decide (key r = k)) :=
    List.mem_filter.mpr ⟨find?_mem h, decide_eq_true (find?_key h)⟩
  have hall : ∀ x ∈ t.rows.filter (fun r => decide (key r = k)), x = r := by
    intro x hx
    obtain ⟨hx, hk⟩ := List.mem_filter.mp hx
    exact List.inj_on_of_nodup_map t.nodup hx (find?_mem h) ((of_decide_eq_true hk).trans (find?_key h).symm)
  have hnodup : (t.rows.filter (fun r => decide (key r = k))).Nodup := (List.Nodup.of_map key t.nodup).filter _
  generalize t.rows.filter (fun r => decide (key r = k)) = rows at *
  cases rows with
  | nil => cases hmem
  | cons a rest =>
    cases rest with
    | nil => rw [hall a List.mem_cons_self]
    | cons b rest =>
      have he : a = b := (hall a (by simp)).trans (hall b (by simp)).symm
      simp [he] at hnodup

/-- An update addressed by primary key touches at most that row. -/
lemma affected_of_key {t : Table key} {p : α → Bool} {k : κ} (hp : ∀ r, p r = true → key r = k) :
    t.affected p = match t.find? k with
      | some r => if p r then 1 else 0
      | none => 0 := by
  unfold affected
  cases h : t.find? k with
  | none =>
    refine List.countP_eq_zero.mpr (fun r hr hpr => ?_)
    exact find?_eq_none.mp h r hr (hp r hpr)
  | some r =>
    obtain ⟨hr, hk⟩ := find?_eq_some.mp h
    have hle : t.rows.countP p ≤ 1 := by
      have hcount : t.rows.countP p ≤ t.rows.countP (fun r => decide (key r = k)) :=
        List.countP_mono_left (fun r _ hpr => by simpa using hp r hpr)
      have hmap : t.rows.countP (fun r => decide (key r = k)) = (t.rows.map key).count k := by
        rw [List.count, List.countP_map]
        rfl
      have hone := List.nodup_iff_count_le_one.mp t.nodup k
      omega
    by_cases hpr : p r
    · have hpos : 0 < t.rows.countP p := List.countP_pos_iff.mpr ⟨r, hr, hpr⟩
      simp only [hpr, if_true]
      omega
    · simp only [hpr]
      refine List.countP_eq_zero.mpr (fun r' hr' hpr' => ?_)
      have he := List.inj_on_of_nodup_map t.nodup hr' hr ((hp r' hpr').trans hk.symm)
      exact hpr (he ▸ hpr')

end Lookup

end Table

end Lib
