import Mathlib.Data.List.Basic
import FraudDetection.Python.Value

/-!
# Splitting texts

Where one part of a text joined by a separator does not contain the separator, the text determines
its parts; and so does a text that is cut at the last occurrence of one separator, and what precedes
it at the last occurrence of another. `str.split` and `str.rsplit` cut at one character.
-/

namespace FraudDetection.Python

/-! ## Lists cut at an element -/

section Joined

variable {α : Type} {c : α} {a a' s s' : List α}

/-- What follows the last separator of a text, and what precedes it. -/
theorem append_sep_inj (hs : c ∉ s) (hs' : c ∉ s') (h : a ++ c :: s = a' ++ c :: s') :
    a = a' ∧ s = s' := by
  rcases List.append_eq_append_iff.mp h with ⟨l, rfl, htail⟩ | ⟨l, rfl, htail⟩
  · cases l with
    | nil => exact ⟨by simp, by simpa using htail⟩
    | cons x l =>
        rw [List.cons_append, List.cons.injEq] at htail
        exact absurd (htail.2 ▸ by simp) hs
  · cases l with
    | nil => exact ⟨by simp, by simpa using htail.symm⟩
    | cons x l =>
        rw [List.cons_append, List.cons.injEq] at htail
        exact absurd (htail.2 ▸ by simp) hs'

/-- What precedes the first separator of a text, and what follows it. -/
theorem sep_append_inj (ha : c ∉ a) (ha' : c ∉ a') (h : a ++ c :: s = a' ++ c :: s') :
    a = a' ∧ s = s' := by
  have hreverse := congrArg List.reverse h
  simp only [List.reverse_append, List.reverse_cons, List.append_assoc, List.singleton_append]
    at hreverse
  obtain ⟨hafter, hbefore⟩ := append_sep_inj (by simpa using ha) (by simpa using ha') hreverse
  exact ⟨List.reverse_injective hbefore, List.reverse_injective hafter⟩

/-- What holds at each element of a list holds at the first one and at those after it. -/
theorem forall_cut_cons {P : List α → α → List α → Prop} {x : α} {xs : List α} :
    (∀ before y after, x :: xs = before ++ y :: after → P before y after) ↔
      P [] x xs ∧ ∀ before y after, xs = before ++ y :: after → P (x :: before) y after := by
  constructor
  · intro hall
    refine ⟨hall [] x xs rfl, ?_⟩
    intro before y after hcut
    apply hall (x :: before) y after
    rw [hcut, List.cons_append]
  · rintro ⟨hfirst, hrest⟩ before y after hcut
    cases before with
    | nil =>
        cases hcut
        exact hfirst
    | cons b before =>
        obtain ⟨rfl, htail⟩ := List.cons.inj hcut
        exact hrest before y after htail

end Joined

/-! ## The last occurrence of an element -/

section Lists

variable {α : Type} {c : α} {a b l : List α}

theorem exists_last (h : c ∈ l) : ∃ a b, l = a ++ c :: b ∧ c ∉ b := by
  obtain ⟨b, a, hcut, hb⟩ := List.eq_append_cons_of_mem (List.mem_reverse.mpr h)
  refine ⟨a.reverse, b.reverse, ?_, by rwa [List.mem_reverse]⟩
  have hreverse := congrArg List.reverse hcut
  simpa using hreverse

/-- A text that is cut at its last `d`, and what precedes it at its last `c`. -/
structure Cut (c d : α) (l before between after : List α) : Prop where
  eq : l = before ++ c :: (between ++ d :: after)
  between_plain : c ∉ between
  after_plain : d ∉ after

variable {d : α} {between after before' between' after' : List α}

theorem Cut.prepend (h : Cut c d l a between after) (x : List α) :
    Cut c d (x ++ l) (x ++ a) between after where
  eq := by rw [h.eq, List.append_assoc]
  between_plain := h.between_plain
  after_plain := h.after_plain

/-- The parts of a cut are determined by the text. -/
theorem Cut.unique (h : Cut c d l a between after) (h' : Cut c d l before' between' after') :
    a = before' ∧ between = between' ∧ after = after' := by
  have heq : (a ++ c :: between) ++ d :: after = (before' ++ c :: between') ++ d :: after' := by
    rw [List.append_assoc, List.append_assoc, List.cons_append, List.cons_append, ← h.eq, ← h'.eq]
  obtain ⟨hfirst, hafter⟩ := append_sep_inj h.after_plain h'.after_plain heq
  obtain ⟨hbefore, hbetween⟩ := append_sep_inj h.between_plain h'.between_plain hfirst
  exact ⟨hbefore, hbetween, hafter⟩

variable [DecidableEq α]

/-- What precedes and what follows the last occurrence of an element. -/
def cutLast (c : α) : List α → Option (List α × List α)
  | [] => none
  | x :: xs =>
      match cutLast c xs with
      | some (before, after) => some (x :: before, after)
      | none => if x = c then some ([], xs) else none

theorem cutLast_of_not_mem (h : c ∉ l) : cutLast c l = none := by
  induction l with
  | nil => rfl
  | cons x xs ih =>
      obtain ⟨hx, hxs⟩ := not_or.mp (List.mem_cons.not.mp h)
      rw [cutLast, ih hxs]
      exact if_neg fun heq => hx heq.symm

theorem cutLast_append (h : c ∉ b) : cutLast c (a ++ c :: b) = some (a, b) := by
  induction a with
  | nil =>
      rw [List.nil_append, cutLast, cutLast_of_not_mem h]
      exact if_pos rfl
  | cons x a ih => rw [List.cons_append, cutLast, ih]

end Lists

/-! ## Python -/

/-- `except ValueError` -/
def Exn.isValueError (x : Exn) : Bool :=
  x.cls == .other "ValueError" || x.cls == .jsonDecodeError || x.cls == .unicodeDecodeError

/-- `except IndexError` -/
def Exn.isIndexError (x : Exn) : Bool := x.cls == .other "IndexError"

/-- `text.split(sep)[0]` -/
def firstPart (text : String) (sep : Char) : String :=
  String.ofList (text.toList.takeWhile (· ≠ sep))

/-- `text.rsplit(sep, 1)` -/
def rsplit (text : String) (sep : Char) : List String :=
  match cutLast sep text.toList with
  | some (before, after) => [String.ofList before, String.ofList after]
  | none => [text]

/-- `a, b = parts` -/
def unpackPair (parts : List String) : Except Exn (String × String) :=
  match parts with
  | [a, b] => .ok (a, b)
  | _ :: _ :: _ :: _ => .error ⟨.other "ValueError", "too many values to unpack (expected 2)"⟩
  | parts => .error ⟨.other "ValueError",
      "not enough values to unpack (expected 2, got " ++ toString parts.length ++ ")"⟩

theorem isValueError_of_unpackPair {parts : List String} {x : Exn}
    (h : unpackPair parts = .error x) : x.isValueError = true := by
  unfold unpackPair at h
  split at h
  · cases h
  · cases h
    rfl
  · cases h
    rfl

/-- A text with the separator is split into what stands around its last occurrence. -/
theorem unpackPair_rsplit {text : String} {sep : Char} {a b : List Char}
    (htext : text.toList = a ++ sep :: b) (hb : sep ∉ b) :
    unpackPair (rsplit text sep) = .ok (String.ofList a, String.ofList b) := by
  unfold rsplit
  rw [htext, cutLast_append hb]
  rfl

/-- A separator that precedes every occurrence of another one stands in the first part. -/
theorem mem_firstPart {text : String} {sep c : Char} {a b : List Char}
    (htext : text.toList = a ++ c :: b) (ha : sep ∉ a) (hc : c ≠ sep) :
    c ∈ (firstPart text sep).toList := by
  have hall : ∀ x ∈ a, decide (x ≠ sep) = true := by
    intro x hx
    rw [decide_eq_true_eq]
    rintro rfl
    exact ha hx
  rw [firstPart, String.toList_ofList, htext, List.takeWhile_append_of_pos hall]
  apply List.mem_append_right
  rw [List.takeWhile_cons, if_pos (decide_eq_true hc)]
  exact List.mem_cons_self

end FraudDetection.Python
