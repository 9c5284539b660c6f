import Mathlib.Data.List.Basic
import Mathlib.Data.List.Nodup

/-!
# Lists that change

An iterator over a list holds an index. What it yields of an element depends on the element's
position, which a removal before it moves down by one. A list of the latest entries takes each new
one in front and keeps the first `n`.
-/

namespace FraudDetection.Store

/-! ## Iteration -/

section Iteration

variable {α : Type} [DecidableEq α] {a b : α} {l : List α} {i : ℕ}

/-- A removal before an element moves it down. -/
theorem idxOf_erase_of_lt (h : l.idxOf b < l.idxOf a) : (l.erase b).idxOf a + 1 = l.idxOf a := by
  induction l with
  | nil => simp at h
  | cons x xs ih =>
    by_cases hb : x = b
    · subst hb
      rw [List.erase_cons_head]
      grind
    · rw [List.erase_cons_tail (by simpa using hb)]
      grind

/-- A removal behind an element leaves it in its place. -/
theorem idxOf_erase_of_le (hne : a ≠ b) (h : l.idxOf a ≤ l.idxOf b) :
    (l.erase b).idxOf a = l.idxOf a := by
  induction l with
  | nil => rfl
  | cons x xs ih =>
    by_cases ha : x = a
    · subst ha
      rw [List.erase_cons_tail (by simpa using hne), List.idxOf_cons_self, List.idxOf_cons_self]
    · grind

theorem idxOf_erase_le (hne : a ≠ b) : (l.erase b).idxOf a ≤ l.idxOf a := by
  rcases Nat.lt_or_ge (l.idxOf b) (l.idxOf a) with h | h
  · have hmoved := idxOf_erase_of_lt h
    omega
  · exact Nat.le_of_eq (idxOf_erase_of_le hne h)

/-- The iterator yields nothing but the element at its index. -/
theorem idxOf_of_getElem? (hnodup : l.Nodup) (h : l[i]? = some a) : l.idxOf a = i := by
  obtain ⟨hi, rfl⟩ := List.getElem?_eq_some_iff.mp h
  exact hnodup.idxOf_getElem i hi

/-- An iterator that has not passed an element is not at the end. -/
theorem exists_getElem?_of_le_idxOf (ha : a ∈ l) (h : i ≤ l.idxOf a) : ∃ c, l[i]? = some c :=
  ⟨_, List.getElem?_eq_getElem (Nat.lt_of_le_of_lt h (List.idxOf_lt_length_of_mem ha))⟩

omit [DecidableEq α] in
/-- The iterator yields an element and goes on with the others. -/
theorem drop_of_getElem? (h : l[i]? = some a) : l.drop i = a :: l.drop (i + 1) := by
  obtain ⟨hi, rfl⟩ := List.getElem?_eq_some_iff.mp h
  exact List.drop_eq_getElem_cons hi

omit [DecidableEq α] in
theorem not_mem_drop_succ (hnodup : l.Nodup) (h : l[i]? = some a) : a ∉ l.drop (i + 1) := by
  have hrest := hnodup.sublist (List.drop_sublist i l)
  rw [drop_of_getElem? h] at hrest
  exact (List.nodup_cons.mp hrest).1

omit [DecidableEq α] in
theorem mem_drop_succ (hnodup : l.Nodup) :
    a ∈ l.drop (i + 1) ↔ a ∈ l.drop i ∧ l[i]? ≠ some a := by
  cases h : l[i]? with
  | none =>
    have hend : l.length ≤ i := List.getElem?_eq_none_iff.mp h
    rw [List.drop_eq_nil_of_le hend, List.drop_eq_nil_of_le (Nat.le_succ_of_le hend)]
    simp
  | some b =>
    have hlast := not_mem_drop_succ hnodup h
    rw [drop_of_getElem? h, List.mem_cons]
    grind

/-- What an iterator has left after a removal: it loses the removed element, and also the next one
if the removed one was before it. -/
theorem mem_drop_erase (hnodup : l.Nodup) (hne : a ≠ b) :
    a ∈ (l.erase b).drop i ↔ a ∈ l.drop i ∧ ¬ (l.idxOf b < i ∧ l[i]? = some a) := by
  induction l generalizing i with
  | nil => simp
  | cons x xs ih =>
    obtain ⟨-, hxs⟩ := List.nodup_cons.mp hnodup
    by_cases hb : x = b
    · subst hb
      rw [List.erase_cons_head]
      cases i with
      | zero => simp [hne]
      | succ i =>
        rw [List.idxOf_cons_self, List.drop_succ_cons, List.getElem?_cons_succ, mem_drop_succ hxs]
        simp
    · rw [List.erase_cons_tail (by simpa using hb)]
      cases i with
      | zero => simp [List.mem_erase_of_ne hne]
      | succ i => simp [ih hxs, List.idxOf_cons_ne xs hb]

end Iteration

/-! ## The latest entries -/

section Recent

variable {α : Type} {n : ℕ}

/-- The list with a new entry. -/
def recent (n : ℕ) (entries : List α) (entry : α) : List α := (entry :: entries).take n

/-- After any number of entries the list holds the last `n`, the newest first. -/
theorem foldl_recent (xs entries : List α) :
    xs.foldl (recent n) (entries.take n) = (xs.reverse ++ entries).take n := by
  induction xs generalizing entries with
  | nil => rfl
  | cons x xs ih =>
    have hfirst : recent n (entries.take n) x = (x :: entries).take n := by
      cases n with
      | zero => rfl
      | succ n => simp [recent, List.take_take]
    rw [List.foldl_cons, hfirst, ih, List.reverse_cons, List.append_assoc]
    rfl

end Recent

end FraudDetection.Store
