import Mathlib.Algebra.Order.Field.Rat
import Mathlib.Data.List.Infix
import FraudDetection.Python.Value

/-!
# Python comparisons

`==` is defined on all values; the order operators raise a `TypeError` where the types have no
common order. A bool counts as a number.
-/

namespace FraudDetection.Python

namespace Json

/-- The number a value stands for in a comparison. -/
def number? : Json → Option ℚ
  | bool b => some (if b then 1 else 0)
  | int n => some n
  | float q => some q
  | _ => none

mutual

/-- `a == b` -/
def eq : Json → Json → Bool
  | null, null => true
  | str s, str t => s == t
  | list vs, list ws => eqElems vs ws
  | dict fs, dict gs => fs.length == gs.length && eqFields fs gs
  | a, b =>
      match a.number?, b.number? with
      | some p, some q => p == q
      | _, _ => false

def eqElems : List Json → List Json → Bool
  | [], [] => true
  | v :: vs, w :: ws => eq v w && eqElems vs ws
  | _, _ => false

def eqFields : List (String × Json) → List (String × Json) → Bool
  | [], _ => true
  | (k, v) :: fs, gs =>
      (match gs.lookup k with
        | some w => eq v w
        | none => false) && eqFields fs gs

end

@[simp] theorem eq_str (s t : String) : (str s).eq (str t) = true ↔ s = t := by
  simp [eq]

/-- Only a string equals a string. -/
theorem eq_str_iff {v : Json} {s : String} : v.eq (str s) = true ↔ v = str s := by
  cases v with
  | str t => simp [eq]
  | null => simp [eq, number?]
  | bool b => simp [eq, number?]
  | int n => simp [eq, number?]
  | float q => simp [eq, number?]
  | list vs => simp [eq, number?]
  | dict fs => simp [eq, number?]

@[simp] theorem eq_float (p q : ℚ) : (float p).eq (float q) = true ↔ p = q := by
  simp [eq, number?]

@[simp] theorem eq_bool (a b : Bool) : (bool a).eq (bool b) = true ↔ a = b := by
  cases a <;> cases b <;> simp [eq, number?]

/-- Only an empty dict equals one. -/
@[simp] theorem eq_dict_nil (fs : List (String × Json)) : (dict fs).eq (dict []) = true ↔ fs = [] := by
  cases fs with
  | nil => simp [eq, eqFields]
  | cons f fs => simp [eq]

/-- The order of two values, if they have one. The code never has a list on the left. -/
def compare? : Json → Json → Option Ordering
  | str s, str t => some (compare s t)
  | a, b =>
      match a.number?, b.number? with
      | some p, some q => some (compare p q)
      | _, _ => none

/-- A number has an order with the numbers. -/
theorem compare?_number {a : Json} {p : ℚ} (ha : a.number? = some p) (b : Json) :
    a.compare? b = b.number?.map (compare p) := by
  have hmatch : a.compare? b = match a.number?, b.number? with
      | some p, some q => some (compare p q)
      | _, _ => none := by
    cases a with
    | str s => cases ha
    | null => cases ha
    | list vs => cases ha
    | dict fs => cases ha
    | bool v => simp only [compare?]
    | int n => simp only [compare?]
    | float x => simp only [compare?]
  rw [hmatch, ha]
  cases b.number? <;> rfl

/-- `text in v`: an element of a list, a part of a string, a key of a dict. -/
def contains (v : Json) (text : String) : Except Exn Bool :=
  match v with
  | list vs => .ok (vs.any fun w => w.eq (str text))
  | str s => .ok (decide (text.toList <:+: s.toList))
  | dict fs => .ok (fs.any fun f => f.1 == text)
  | v => .error ⟨.typeError, "argument of type '" ++ v.typeName ++ "' is not iterable"⟩

end Json

/-! ## Comparison operators -/

/-- The comparison operators. -/
inductive Operator where
  | gt
  | lt
  | eq
  | ne
  | ge
  | le
  deriving DecidableEq, Repr

namespace Operator

/-- The operator as it is written. -/
def symbol : Operator → String
  | gt => ">"
  | lt => "<"
  | eq => "=="
  | ne => "!="
  | ge => ">="
  | le => "<="

/-- Whether an order operator accepts two values in this order. -/
def accepts : Operator → Ordering → Bool
  | gt, o => o == .gt
  | lt, o => o == .lt
  | ge, o => o != .lt
  | le, o => o != .gt
  | eq, o => o == .eq
  | ne, o => o != .eq

/-- The `TypeError` of two types without an order. -/
def unordered (op : Operator) (left right : String) : Exn :=
  ⟨.typeError, "'" ++ op.symbol ++ "' not supported between instances of '" ++ left ++ "' and '"
    ++ right ++ "'"⟩

/-- `a op b` -/
def apply (op : Operator) (a b : Json) : Except Exn Bool :=
  match op with
  | eq => .ok (a.eq b)
  | ne => .ok (!a.eq b)
  | op =>
      match a.compare? b with
      | some o => .ok (op.accepts o)
      | none => .error (op.unordered a.typeName b.typeName)

/-- Comparisons raise nothing but a `TypeError`. -/
theorem isException_of_apply {op : Operator} {a b : Json} {x : Exn}
    (h : op.apply a b = .error x) : x.isException = true := by
  unfold apply at h
  split at h
  · cases h
  · cases h
  · split at h
    · cases h
    · cases h
      rfl

/-- A number is greater than a value exactly when the value is a smaller number. -/
theorem apply_gt_iff {a b : Json} {p : ℚ} (ha : a.number? = some p) :
    gt.apply a b = .ok true ↔ ∃ q, b.number? = some q ∧ q < p := by
  simp only [apply, Json.compare?_number ha]
  cases b.number? with
  | none => simp
  | some q => simp [accepts, compare_gt_iff_gt]

/-- A comparison with a float is one of numbers, or raises. -/
theorem apply_ge_float (a : Json) (q : ℚ) :
    (∃ p, a.number? = some p ∧ ge.apply a (.float q) = .ok (decide (q ≤ p))) ∨
    (a.number? = none ∧ ∃ x, ge.apply a (.float q) = .error x) := by
  cases ha : a.number? with
  | some p =>
    refine Or.inl ⟨p, rfl, ?_⟩
    have haccepts : ge.accepts (compare p q) = decide (q ≤ p) := by
      rw [accepts, Bool.eq_iff_iff, bne_iff_ne, decide_eq_true_iff]
      exact compare_ge_iff_ge
    simp only [apply, Json.compare?_number ha, Json.number?, Option.map_some]
    rw [haccepts]
  | none =>
    refine Or.inr ⟨rfl, ?_⟩
    cases a with
    | null => exact ⟨_, rfl⟩
    | str s => exact ⟨_, rfl⟩
    | list vs => exact ⟨_, rfl⟩
    | dict fs => exact ⟨_, rfl⟩
    | bool b => cases ha
    | int n => cases ha
    | float p => cases ha

end Operator

end FraudDetection.Python
