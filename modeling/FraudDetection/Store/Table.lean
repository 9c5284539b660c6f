import Mathlib.Data.List.Nodup

/-!
# Tables with a primary key

Rows in the order of their insertion, with a column that tells them apart. A row is inserted under a
key that is not in use, and a row that is modified keeps its key. A query that asks for no order has
its rows in any (`Scan`).
-/

namespace FraudDetection.Store

/-- The orders in which queries that ask for none have their rows, by the number of the query. -/
structure Scan (R : Type) where
  order : ℕ → List R → List R
  perm : ∀ n rows, (order n rows).Perm rows

/-- Every query has the rows inserted last first. -/
def Scan.newestFirst (R : Type) : Scan R := ⟨fun _ => List.reverse, fun _ => List.reverse_perm⟩

/-- Rows with distinct keys. -/
structure Table {R K : Type} (key : R → K) where
  rows : List R
  nodup : (rows.map key).Nodup

namespace Table

variable {R K : Type} {key : R → K}

/-- The table without rows. -/
def empty : Table key := ⟨[], List.nodup_nil⟩

@[simp] theorem rows_empty : (empty : Table key).rows = [] := rfl

/-- Two rows with one key are the same row. -/
theorem eq_of_key (t : Table key) {r r' : R} (hr : r ∈ t.rows) (hr' : r' ∈ t.rows)
    (h : key r = key r') : r = r' :=
  List.inj_on_of_nodup_map t.nodup hr hr' h

variable [DecidableEq K]

/-- The row under a key. -/
def find? (t : Table key) (k : K) : Option R := t.rows.find? fun r => key r = k

theorem find?_eq_some_iff {t : Table key} {k : K} {r : R} :
    t.find? k = some r ↔ r ∈ t.rows ∧ key r = k := by
  constructor
  · intro h
    exact ⟨List.mem_of_find?_eq_some h, by simpa using List.find?_some h⟩
  · rintro ⟨hr, rfl⟩
    cases hfind : t.find? (key r) with
    | none =>
      have hnone := List.find?_eq_none.mp hfind r hr
      simp at hnone
    | some r' =>
      have hkey : key r' = key r := by simpa using List.find?_some hfind
      rw [t.eq_of_key (List.mem_of_find?_eq_some hfind) hr hkey]

theorem find?_eq_none_iff {t : Table key} {k : K} :
    t.find? k = none ↔ ∀ r ∈ t.rows, key r ≠ k := by
  rw [find?, List.find?_eq_none]
  simp

theorem find?_of_mem {t : Table key} {r : R} (h : r ∈ t.rows) : t.find? (key r) = some r :=
  find?_eq_some_iff.mpr ⟨h, rfl⟩

/-! ## Inserts -/

/-- Insert a row under a key that is not in use. -/
def insert (t : Table key) (r : R) (h : t.find? (key r) = none) : Table key where
  rows := t.rows ++ [r]
  nodup := by
    rw [List.map_append, List.map_singleton, List.nodup_append]
    refine ⟨t.nodup, List.nodup_singleton _, ?_⟩
    intro a ha b hb
    obtain ⟨r', hr', rfl⟩ := List.mem_map.mp ha
    rw [List.mem_singleton.mp hb]
    exact find?_eq_none_iff.mp h r' hr'

@[simp] theorem rows_insert {t : Table key} {r : R} (h : t.find? (key r) = none) :
    (t.insert r h).rows = t.rows ++ [r] := rfl

/-! ## Updates -/

/-- Modify the row under a key. -/
def modify (t : Table key) (k : K) (f : R → R) (hf : ∀ r, key (f r) = key r) : Table key where
  rows := t.rows.map fun r => if key r = k then f r else r
  nodup := by
    have hkeys : (t.rows.map fun r => if key r = k then f r else r).map key = t.rows.map key := by
      rw [List.map_map]
      refine List.map_congr_left ?_
      intro r _
      show key (if key r = k then f r else r) = key r
      split
      · exact hf r
      · rfl
    rw [hkeys]
    exact t.nodup

variable {t : Table key} {k : K} {f : R → R} (hf : ∀ r, key (f r) = key r)

theorem mem_modify {r : R} : r ∈ (t.modify k f hf).rows ↔
    (r ∈ t.rows ∧ key r ≠ k) ∨ ∃ r' ∈ t.rows, key r' = k ∧ r = f r' := by
  show r ∈ t.rows.map (fun r => if key r = k then f r else r) ↔ _
  rw [List.mem_map]
  constructor
  · rintro ⟨r', hr', h⟩
    split at h
    · rename_i hk
      exact Or.inr ⟨r', hr', hk, h.symm⟩
    · rename_i hk
      subst h
      exact Or.inl ⟨hr', hk⟩
  · rintro (⟨hr, hk⟩ | ⟨r', hr', hk, rfl⟩)
    · exact ⟨r, hr, if_neg hk⟩
    · exact ⟨r', hr', if_pos hk⟩

/-- The other rows are left alone. -/
theorem find?_modify_of_ne {k' : K} (h : k' ≠ k) : (t.modify k f hf).find? k' = t.find? k' := by
  refine Option.ext fun r => ?_
  rw [find?_eq_some_iff, find?_eq_some_iff, mem_modify hf]
  constructor
  · rintro ⟨⟨hr, -⟩ | ⟨r', -, hr', rfl⟩, hk⟩
    · exact ⟨hr, hk⟩
    · rw [hf, hr'] at hk
      exact absurd hk.symm h
  · rintro ⟨hr, rfl⟩
    exact ⟨Or.inl ⟨hr, h⟩, rfl⟩

theorem find?_modify_self : (t.modify k f hf).find? k = (t.find? k).map f := by
  refine Option.ext fun r => ?_
  rw [find?_eq_some_iff, mem_modify hf, Option.map_eq_some_iff]
  constructor
  · rintro ⟨⟨-, hne⟩ | ⟨r', hr', hk, rfl⟩, hkey⟩
    · exact absurd hkey hne
    · exact ⟨r', find?_eq_some_iff.mpr ⟨hr', hk⟩, rfl⟩
  · rintro ⟨r', hr', rfl⟩
    obtain ⟨hmem, hk⟩ := find?_eq_some_iff.mp hr'
    exact ⟨Or.inr ⟨r', hmem, hk, rfl⟩, (hf r').trans hk⟩

end Table

end FraudDetection.Store
