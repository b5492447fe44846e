import Lulan.Lib.Table

/-!
# Tables with a second key

A table whose rows are also unique by a column beside the primary key. Inserts refuse a
duplicate of either, updates may touch neither.
-/

namespace Lib

/-- Rows in insertion order, unique by `key` and by `idx`. -/
structure Indexed {α κ ι : Type} (key : α → κ) (idx : α → ι) extends Table key where
  unique : (rows.map idx).Nodup

/-- A change to a row that leaves both keys alone. -/
structure Amend {α κ ι : Type} (key : α → κ) (idx : α → ι) extends Assign key where
  idx_set : ∀ r, idx (set r) = idx r

namespace Indexed

variable {α κ ι : Type} {key : α → κ} {idx : α → ι}

def empty : Indexed key idx := ⟨Table.empty, List.nodup_nil⟩

lemma eq_of_idx {t : Indexed key idx} {r r' : α} (hr : r ∈ t.rows) (hr' : r' ∈ t.rows) (h : idx r = idx r') :
    r = r' := List.inj_on_of_nodup_map t.unique hr hr' h

lemma eq_of_key {t : Indexed key idx} {r r' : α} (hr : r ∈ t.rows) (hr' : r' ∈ t.rows) (h : key r = key r') :
    r = r' := List.inj_on_of_nodup_map t.nodup hr hr' h

/-- `UPDATE … SET f WHERE p`. -/
def amend (t : Indexed key idx) (p : α → Bool) (f : Amend key idx) : Indexed key idx where
  toTable := t.toTable.update p f.toAssign
  unique := by
    have he : idx ∘ (fun r => if p r then f.set r else r) = idx := by
      funext r
      by_cases h : p r <;> simp [h, f.idx_set]
    rw [Table.rows_update, List.map_map, he]
    exact t.unique

@[simp] lemma rows_amend (t : Indexed key idx) (p : α → Bool) (f : Amend key idx) :
    (t.amend p f).rows = t.rows.map (fun r => if p r then f.set r else r) := rfl

lemma mem_amend {t : Indexed key idx} {p : α → Bool} {f : Amend key idx} {r : α} :
    r ∈ (t.amend p f).rows ↔ ∃ r₀ ∈ t.rows, r = if p r₀ then f.set r₀ else r₀ := by
  rw [rows_amend, List.mem_map]
  exact exists_congr (fun r₀ => and_congr_right (fun _ => eq_comm))

lemma amend_keeps {t : Indexed key idx} {p : α → Bool} {f : Amend key idx} {P : α → Prop}
    (hf : ∀ r, p r = true → P r → P (f.set r)) (h : ∃ r ∈ t.rows, P r) : ∃ r ∈ (t.amend p f).rows, P r := by
  obtain ⟨r, hr, hP⟩ := h
  refine ⟨_, mem_amend.mpr ⟨r, hr, rfl⟩, ?_⟩
  split
  · rename_i hp
    exact hf r hp hP
  · exact hP

lemma append_keeps {t t' : Indexed key idx} {x : α} (hrows : t'.rows = t.rows ++ [x]) {P : α → Prop}
    (h : ∃ r ∈ t.rows, P r) : ∃ r ∈ t'.rows, P r := by
  obtain ⟨r, hr, hP⟩ := h
  exact ⟨r, by rw [hrows]; exact List.mem_append_left _ hr, hP⟩

section Lookup

variable [DecidableEq ι]

/-- The row with second key `i`. -/
def lookup (t : Indexed key idx) (i : ι) : Option α := t.rows.find? (fun r => decide (idx r = i))

lemma lookup_eq_some {t : Indexed key idx} {i : ι} {r : α} : t.lookup i = some r ↔ r ∈ t.rows ∧ idx r = i := by
  constructor
  · intro h
    exact ⟨List.mem_of_find?_eq_some h, by simpa using List.find?_some h⟩
  · rintro ⟨hr, rfl⟩
    cases h : t.lookup (idx r) with
    | none =>
      have hn := List.find?_eq_none.mp h r hr
      simp at hn
    | some r' =>
      have hr' : r' ∈ t.rows := List.mem_of_find?_eq_some h
      have hi : idx r' = idx r := by simpa using List.find?_some h
      rw [eq_of_idx hr' hr hi]

variable [DecidableEq κ]

/-- `INSERT`; `none` is a violation of one of the keys. -/
def insert (t : Indexed key idx) (r : α) : Option (Indexed key idx) :=
  if h : key r ∈ t.rows.map key ∨ idx r ∈ t.rows.map idx then none
  else
    some
      { rows := t.rows ++ [r]
        nodup := by
          rw [List.map_append, List.map_singleton, List.nodup_append_comm]
          exact List.nodup_cons.mpr ⟨fun hm => h (.inl hm), t.nodup⟩
        unique := by
          rw [List.map_append, List.map_singleton, List.nodup_append_comm]
          exact List.nodup_cons.mpr ⟨fun hm => h (.inr hm), t.unique⟩ }

lemma insert_eq_some {t t' : Indexed key idx} {r : α} (h : t.insert r = some t') :
    (∀ r' ∈ t.rows, key r' ≠ key r) ∧ (∀ r' ∈ t.rows, idx r' ≠ idx r) ∧ t'.rows = t.rows ++ [r] := by
  unfold insert at h
  split at h
  · cases h
  · rename_i hn
    cases h
    refine ⟨fun r' hr' he => hn (.inl ?_), fun r' hr' he => hn (.inr ?_), rfl⟩
    · exact List.mem_map.mpr ⟨r', hr', he⟩
    · exact List.mem_map.mpr ⟨r', hr', he⟩

end Lookup

end Indexed

end Lib
