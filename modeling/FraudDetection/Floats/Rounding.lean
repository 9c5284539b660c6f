import Mathlib.Algebra.Order.BigOperators.Group.List
import Mathlib.Algebra.Order.Field.Rat
import Mathlib.Algebra.Order.Group.MinMax
import Mathlib.Data.List.Induction
import Mathlib.Data.List.Permutation
import Mathlib.Tactic.GCongr
import Mathlib.Tactic.Linarith
import Mathlib.Tactic.Ring

/-!
# Rounded arithmetic

An operation on floats is the exact operation on rationals, followed by a rounding. What is proved
here needs little of the rounding: it is monotone, it leaves the numbers of the format alone, and a
sum of two of them is off by a bounded part of its size. Infinities are left out.

Sums are added up from the left, so their value depends on the order of the summands.
`abs_total_sub_sum_le` bounds by how much: each addition multiplies the error by `1 + unit` at most.
-/

namespace FraudDetection.Floats

/-- How the exact result of an operation becomes a number of a format. -/
structure Rounding where
  round : ℚ → ℚ
  /-- The largest part of a sum that rounding takes off or adds. -/
  unit : ℚ
  mono : Monotone round
  round_round : ∀ q, round (round q) = round q
  round_zero : round 0 = 0
  round_one : round 1 = 1
  unit_nonneg : 0 ≤ unit
  add_error : ∀ a b, round a = a → round b = b → |round (a + b) - (a + b)| ≤ unit * |a + b|

namespace Rounding

/-- Exact arithmetic. -/
def exact : Rounding where
  round := id
  unit := 0
  mono := monotone_id
  round_round _ := rfl
  round_zero := rfl
  round_one := rfl
  unit_nonneg := le_rfl
  add_error a b _ _ := by simp

@[simp] theorem exact_round (q : ℚ) : exact.round q = q := rfl

attribute [simp] round_round round_zero round_one

variable (fl : Rounding)

/-- A number of the format. -/
def IsFloat (q : ℚ) : Prop := fl.round q = q

/-- `a + b` -/
def plus (a b : ℚ) : ℚ := fl.round (a + b)

/-- `a - b` -/
def minus (a b : ℚ) : ℚ := fl.round (a - b)

/-- `a * b` -/
def times (a b : ℚ) : ℚ := fl.round (a * b)

theorem isFloat_round (q : ℚ) : fl.IsFloat (fl.round q) := fl.round_round q

theorem isFloat_zero : fl.IsFloat 0 := fl.round_zero

variable {fl}

theorem round_nonneg {q : ℚ} (h : 0 ≤ q) : 0 ≤ fl.round q := by
  rw [← fl.round_zero]
  exact fl.mono h

theorem round_le_one {q : ℚ} (h : q ≤ 1) : fl.round q ≤ 1 := by
  rw [← fl.round_one]
  exact fl.mono h

theorem round_unit {q : ℚ} (h : 0 ≤ q ∧ q ≤ 1) : 0 ≤ fl.round q ∧ fl.round q ≤ 1 :=
  ⟨round_nonneg h.1, round_le_one h.2⟩

theorem plus_mono {a b c d : ℚ} (hac : a ≤ c) (hbd : b ≤ d) : fl.plus a b ≤ fl.plus c d :=
  fl.mono (add_le_add hac hbd)

theorem times_mono {a b c : ℚ} (ha : 0 ≤ a) (hbc : b ≤ c) : fl.times a b ≤ fl.times a c :=
  fl.mono (mul_le_mul_of_nonneg_left hbc ha)

@[simp] theorem exact_plus (a b : ℚ) : exact.plus a b = a + b := rfl

@[simp] theorem exact_minus (a b : ℚ) : exact.minus a b = a - b := rfl

@[simp] theorem exact_times (a b : ℚ) : exact.times a b = a * b := rfl

/-! ## Sums -/

variable (fl)

/-- The sum of a list, rounded after each addition. -/
def total (xs : List ℚ) : ℚ := xs.foldl fl.plus 0

variable {fl}

theorem total_concat (xs : List ℚ) (x : ℚ) : fl.total (xs ++ [x]) = fl.plus (fl.total xs) x := by
  rw [total, List.foldl_append]
  rfl

theorem isFloat_total (xs : List ℚ) : fl.IsFloat (fl.total xs) := by
  induction xs using List.reverseRecOn with
  | nil => exact fl.isFloat_zero
  | append_singleton xs x _ =>
      rw [total_concat]
      exact fl.isFloat_round _

@[simp] theorem total_exact (xs : List ℚ) : exact.total xs = xs.sum := by
  induction xs using List.reverseRecOn with
  | nil => rfl
  | append_singleton xs x ih => rw [total_concat, exact_plus, ih, List.sum_append, List.sum_singleton]

/-- A summand that is there or not. -/
theorem total_append_toList (xs : List ℚ) (o : Option ℚ) :
    fl.total (xs ++ o.toList) = fl.plus (fl.total xs) (o.getD 0) := by
  cases o with
  | none =>
      have hfloat : fl.round (fl.total xs) = fl.total xs := isFloat_total xs
      simp [plus, hfloat]
  | some x => exact total_concat xs x

/-- Nonnegative summands have a nonnegative sum. -/
theorem total_nonneg {xs : List ℚ} (h : ∀ x ∈ xs, 0 ≤ x) : 0 ≤ fl.total xs := by
  induction xs using List.reverseRecOn with
  | nil => exact le_rfl
  | append_singleton xs x ih =>
      rw [total_concat]
      have hxs : 0 ≤ fl.total xs := ih fun y hy => h y (List.mem_append_left _ hy)
      exact round_nonneg (add_nonneg hxs (h x (by simp)))

/-- A sum that starts higher ends higher. -/
theorem foldl_mono {a b : ℚ} (h : a ≤ b) (xs : List ℚ) :
    xs.foldl fl.plus a ≤ xs.foldl fl.plus b := by
  induction xs generalizing a b with
  | nil => exact h
  | cons x xs ih => exact ih (plus_mono h le_rfl)

/-- A further nonnegative summand makes no sum smaller. -/
theorem total_insert_le (xs ys : List ℚ) {x : ℚ} (hx : 0 ≤ x) :
    fl.total (xs ++ ys) ≤ fl.total (xs ++ x :: ys) := by
  rw [total, total, List.foldl_append, List.foldl_append, List.foldl_cons]
  apply foldl_mono
  calc fl.total xs = fl.round (fl.total xs) := (isFloat_total xs).symm
    _ ≤ fl.plus (fl.total xs) x := fl.mono (by linarith)

/-! ## The error of a sum -/

/-- How far a sum of `n` floats can be off, for each unit of their size. -/
def errorFactor (fl : Rounding) (n : ℕ) : ℚ := (1 + fl.unit) ^ n - 1

theorem errorFactor_succ (n : ℕ) :
    fl.errorFactor (n + 1) = fl.errorFactor n * (1 + fl.unit) + fl.unit := by
  unfold errorFactor
  ring

theorem errorFactor_nonneg (n : ℕ) : 0 ≤ fl.errorFactor n := by
  have hone : 1 ≤ 1 + fl.unit := by linarith [fl.unit_nonneg]
  exact sub_nonneg.mpr (one_le_pow₀ hone)

@[simp] theorem errorFactor_exact (n : ℕ) : exact.errorFactor n = 0 := by
  simp [errorFactor, exact]

/-- The size of the summands of a list. -/
def size (xs : List ℚ) : ℚ := (xs.map fun x => |x|).sum

theorem size_concat (xs : List ℚ) (x : ℚ) : size (xs ++ [x]) = size xs + |x| := by
  simp [size]

theorem abs_sum_le_size (xs : List ℚ) : |xs.sum| ≤ size xs := by
  induction xs using List.reverseRecOn with
  | nil => simp [size]
  | append_singleton xs x ih =>
      rw [List.sum_append, List.sum_singleton, size_concat]
      exact (abs_add_le _ _).trans (by gcongr)

/-- A sum of floats is off by the error factor of their number at most. -/
theorem abs_total_sub_sum_le {xs : List ℚ} (h : ∀ x ∈ xs, fl.IsFloat x) :
    |fl.total xs - xs.sum| ≤ fl.errorFactor xs.length * size xs := by
  induction xs using List.reverseRecOn with
  | nil => simp [total, size]
  | append_singleton xs x ih =>
      have hprefix : |fl.total xs - xs.sum| ≤ fl.errorFactor xs.length * size xs :=
        ih fun y hy => h y (List.mem_append_left _ hy)
      have hstep : |fl.plus (fl.total xs) x - (fl.total xs + x)| ≤ fl.unit * |fl.total xs + x| :=
        fl.add_error _ _ (isFloat_total xs) (h x (by simp))
      -- what is rounded is the exact sum, up to the error so far
      have hsize : |fl.total xs + x| ≤ |fl.total xs - xs.sum| + size (xs ++ [x]) := by
        have hexact := abs_sum_le_size (xs ++ [x])
        rw [List.sum_append, List.sum_singleton] at hexact
        calc |fl.total xs + x| = |(fl.total xs - xs.sum) + (xs.sum + x)| := by ring_nf
          _ ≤ |fl.total xs - xs.sum| + |xs.sum + x| := abs_add_le _ _
          _ ≤ _ := by gcongr
      have hsplit : |fl.plus (fl.total xs) x - (xs.sum + x)|
          ≤ |fl.plus (fl.total xs) x - (fl.total xs + x)| + |fl.total xs - xs.sum| := by
        refine le_trans (le_of_eq ?_) (abs_add_le _ _)
        ring_nf
      have hgrow : fl.errorFactor xs.length * (1 + fl.unit) * size xs
          ≤ fl.errorFactor xs.length * (1 + fl.unit) * size (xs ++ [x]) := by
        have hunit := fl.unit_nonneg
        have hfactor := @errorFactor_nonneg fl xs.length
        rw [size_concat]
        have hx := abs_nonneg x
        gcongr
        linarith
      rw [total_concat, List.sum_append, List.sum_singleton, List.length_append, List.length_singleton,
        errorFactor_succ]
      have hunit := fl.unit_nonneg
      nlinarith

/-- In two orders the same floats come to sums that differ by twice the error at most. -/
theorem abs_total_sub_total_le {xs ys : List ℚ} (h : xs.Perm ys) (hxs : ∀ x ∈ xs, fl.IsFloat x) :
    |fl.total xs - fl.total ys| ≤ 2 * (fl.errorFactor xs.length * size xs) := by
  have hys : ∀ y ∈ ys, fl.IsFloat y := fun y hy => hxs y (h.mem_iff.mpr hy)
  have hfirst := abs_total_sub_sum_le hxs
  have hsecond := abs_total_sub_sum_le hys
  have hsize : size ys = size xs := ((h.map _).sum_eq).symm
  rw [← h.sum_eq, ← h.length_eq, hsize, abs_sub_comm] at hsecond
  calc |fl.total xs - fl.total ys| = |(fl.total xs - xs.sum) + (xs.sum - fl.total ys)| := by ring_nf
    _ ≤ |fl.total xs - xs.sum| + |xs.sum - fl.total ys| := abs_add_le _ _
    _ ≤ 2 * (fl.errorFactor xs.length * size xs) := by linarith

end Rounding

/-! ## Values that are no numbers -/

/-- A finite float, or the value that is no number. -/
inductive Double where
  | nan
  | num (q : ℚ)
  deriving DecidableEq, Repr

namespace Double

instance : Coe ℚ Double := ⟨num⟩

instance : Zero Double := ⟨num 0⟩

instance : One Double := ⟨num 1⟩

/-- `a <= b`, which is false of `nan`. -/
instance : LE Double where
  le
    | num a, num b => a ≤ b
    | _, _ => False

/-- `a < b`, which is false of `nan`. -/
instance : LT Double where
  lt
    | num a, num b => a < b
    | _, _ => False

instance : (a b : Double) → Decidable (a ≤ b)
  | num a, num b => inferInstanceAs (Decidable (a ≤ b))
  | nan, _ => isFalse (fun h => h)
  | num _, nan => isFalse (fun h => h)

instance : (a b : Double) → Decidable (a < b)
  | num a, num b => inferInstanceAs (Decidable (a < b))
  | nan, _ => isFalse (fun h => h)
  | num _, nan => isFalse (fun h => h)

@[simp] theorem num_le_num {a b : ℚ} : num a ≤ num b ↔ a ≤ b := Iff.rfl

@[simp] theorem num_lt_num {a b : ℚ} : num a < num b ↔ a < b := Iff.rfl

/-- The rational value of a number. -/
def value : Double → ℚ
  | nan => 0
  | num q => q

@[simp] theorem value_num (q : ℚ) : (num q).value = q := rfl

theorem zero_def : (0 : Double) = num 0 := rfl

theorem one_def : (1 : Double) = num 1 := rfl

@[simp] theorem value_zero : (0 : Double).value = 0 := rfl

@[simp] theorem not_nan_le (b : Double) : ¬ nan ≤ b := by
  cases b <;> exact fun h => h

@[simp] theorem not_le_nan (a : Double) : ¬ a ≤ nan := by
  cases a <;> exact fun h => h

/-- Only numbers are comparable. -/
theorem le_iff {a b : Double} : a ≤ b ↔ a ≠ nan ∧ b ≠ nan ∧ a.value ≤ b.value := by
  cases a <;> cases b <;> simp

/-- In the unit interval. -/
def Unit (x : Double) : Prop := 0 ≤ x ∧ x ≤ 1

instance (x : Double) : Decidable x.Unit := inferInstanceAs (Decidable (_ ∧ _))

@[simp] theorem unit_num {q : ℚ} : (num q).Unit ↔ 0 ≤ q ∧ q ≤ 1 := Iff.rfl

@[simp] theorem not_unit_nan : ¬ nan.Unit := fun h => h.1

theorem Unit.value {x : Double} (h : x.Unit) : 0 ≤ x.value ∧ x.value ≤ 1 := by
  cases x with
  | nan => exact absurd h not_unit_nan
  | num q => exact h

theorem unit_zero : (0 : Double).Unit := ⟨le_refl (0 : ℚ), zero_le_one (α := ℚ)⟩

/-- `min(a, b)`: the first argument, unless the second one is smaller. -/
def min (a b : Double) : Double := if b < a then b else a

@[simp] theorem min_nan (b : Double) : nan.min b = nan := if_neg (by cases b <;> exact fun h => h)

@[simp] theorem min_num (a b : ℚ) : (num a).min (num b) = num (Min.min a b) := by
  unfold min
  by_cases h : b < a
  · rw [if_pos (num_lt_num.mpr h), min_eq_right h.le]
  · rw [if_neg (num_lt_num.not.mpr h), min_eq_left (not_lt.mp h)]

/-- A cap keeps the order. -/
theorem min_le_min_right {a b : Double} (h : a ≤ b) (q : ℚ) : a.min (num q) ≤ b.min (num q) := by
  cases a with
  | nan => exact absurd h (not_nan_le b)
  | num a =>
      cases b with
      | nan => exact absurd h (not_le_nan _)
      | num b =>
          rw [min_num, min_num]
          exact num_le_num.mpr (min_le_min h le_rfl)

/-- A capped number is in the unit interval exactly if it is not negative. -/
theorem unit_min_one {a : Double} : (a.min 1).Unit ↔ 0 ≤ a := by
  cases a with
  | nan => simp [zero_def]
  | num q =>
      rw [one_def, min_num, unit_num, zero_def, num_le_num, le_min_iff]
      constructor
      · exact fun h => h.1.1
      · exact fun h => ⟨⟨h, zero_le_one⟩, min_le_right _ _⟩

end Double

namespace Rounding

variable (fl : Rounding)

/-- `a + b`. A sum with `nan` is `nan`. -/
def add : Double → Double → Double
  | .num a, .num b => .num (fl.plus a b)
  | _, _ => .nan

/-- The sum of a list, from the left. -/
def sum (xs : List Double) : Double := xs.foldl fl.add 0

variable {fl}

@[simp] theorem add_nan (a : Double) : fl.add a .nan = .nan := by
  cases a <;> rfl

theorem sum_concat (xs : List Double) (x : Double) : fl.sum (xs ++ [x]) = fl.add (fl.sum xs) x := by
  rw [sum, List.foldl_append]
  rfl

theorem foldl_nan (xs : List Double) : xs.foldl fl.add .nan = .nan := by
  induction xs with
  | nil => rfl
  | cons x xs ih => exact ih

/-- A list with a `nan` has no sum. -/
theorem sum_of_nan {xs : List Double} (h : .nan ∈ xs) : fl.sum xs = .nan := by
  obtain ⟨l, r, rfl⟩ := List.append_of_mem h
  rw [sum, List.foldl_append, List.foldl_cons, add_nan, foldl_nan]

/-- A list of numbers has their sum. -/
theorem sum_of_num {xs : List Double} (h : .nan ∉ xs) :
    fl.sum xs = .num (fl.total (xs.map Double.value)) := by
  induction xs using List.reverseRecOn with
  | nil => rfl
  | append_singleton xs x ih =>
      rw [List.mem_append, not_or, List.mem_singleton] at h
      rw [sum_concat, ih h.1, List.map_append, List.map_singleton, total_concat]
      cases x with
      | nan => exact absurd rfl h.2
      | num q => rfl

/-- Nonnegative summands are numbers, and so is their sum. -/
theorem sum_nonneg {xs : List Double} (h : ∀ x ∈ xs, 0 ≤ x) : 0 ≤ fl.sum xs := by
  have hnum : .nan ∉ xs := fun hnan => Double.not_le_nan 0 (h _ hnan)
  rw [sum_of_num hnum]
  apply total_nonneg
  intro q hq
  obtain ⟨x, hx, rfl⟩ := List.mem_map.mp hq
  exact (Double.le_iff.mp (h x hx)).2.2

/-- A further nonnegative summand makes no sum smaller, and leaves a sum that is `nan` as it is. -/
theorem sum_insert_le (xs ys : List Double) {x : Double} (hx : 0 ≤ x) :
    fl.sum (xs ++ ys) ≤ fl.sum (xs ++ x :: ys) ∨
      fl.sum (xs ++ ys) = .nan ∧ fl.sum (xs ++ x :: ys) = .nan := by
  cases x with
  | nan => exact absurd hx (Double.not_le_nan 0)
  | num q =>
      by_cases hnan : .nan ∈ xs ++ ys
      · have hwith : .nan ∈ xs ++ .num q :: ys := by
          simpa using hnan
        exact Or.inr ⟨sum_of_nan hnan, sum_of_nan hwith⟩
      · have hwith : .nan ∉ xs ++ .num q :: ys := by
          simpa using hnan
        rw [sum_of_num hnan, sum_of_num hwith, List.map_append, List.map_append, List.map_cons]
        exact Or.inl (total_insert_le _ _ hx)

/-- The same value, up to the error of two sums of these summands. -/
def Agree (fl : Rounding) (xs : List Double) (a b : Double) : Prop :=
  a = .nan ∧ b = .nan ∨ ∃ x y, a = .num x ∧ b = .num y ∧
    |x - y| ≤ 2 * (fl.errorFactor xs.length * size (xs.map Double.value))

/-- In two orders the same floats come to sums that agree. -/
theorem sum_agree {xs ys : List Double} (h : xs.Perm ys) (hxs : ∀ x ∈ xs, fl.IsFloat x.value) :
    fl.Agree xs (fl.sum xs) (fl.sum ys) := by
  by_cases hnan : .nan ∈ xs
  · exact Or.inl ⟨sum_of_nan hnan, sum_of_nan (h.mem_iff.mp hnan)⟩
  · right
    refine ⟨_, _, sum_of_num hnan, sum_of_num (h.mem_iff.not.mp hnan), ?_⟩
    have hbound := @abs_total_sub_total_le fl _ _ (h.map Double.value) (by
      intro q hq
      obtain ⟨x, hx, rfl⟩ := List.mem_map.mp hq
      exact hxs x hx)
    rw [List.length_map] at hbound
    exact hbound

/-- A cap does not take two values apart. -/
theorem Agree.min {xs : List Double} {a b : Double} (h : fl.Agree xs a b) (q : ℚ) :
    fl.Agree xs (a.min (.num q)) (b.min (.num q)) := by
  rcases h with ⟨rfl, rfl⟩ | ⟨x, y, rfl, rfl, hxy⟩
  · exact Or.inl ⟨Double.min_nan _, Double.min_nan _⟩
  · refine Or.inr ⟨_, _, Double.min_num x q, Double.min_num y q, ?_⟩
    have hcap := abs_min_sub_min_le_max x q y q
    rw [sub_self, abs_zero, max_eq_left (abs_nonneg _)] at hcap
    exact hcap.trans hxy

/-- Two floats have one sum. -/
theorem sum_eq_of_perm {xs ys : List Double} (h : xs.Perm ys) (hxs : ∀ x ∈ xs, fl.IsFloat x.value)
    (hlength : xs.length ≤ 2) : fl.sum xs = fl.sum ys := by
  have hpair : ∀ a b : Double, fl.IsFloat a.value → fl.IsFloat b.value →
      fl.sum [a, b] = fl.sum [b, a] := by
    intro a b ha hb
    cases a with
    | nan => rw [sum_of_nan (by simp), sum_of_nan (by simp)]
    | num p =>
        cases b with
        | nan => rw [sum_of_nan (by simp), sum_of_nan (by simp)]
        | num q =>
            have hp : fl.round p = p := ha
            have hq : fl.round q = q := hb
            -- adding the first float to zero rounds nothing, and one addition commutes
            show Double.num (fl.plus (fl.plus 0 p) q) = .num (fl.plus (fl.plus 0 q) p)
            simp [plus, hp, hq, add_comm]
  match xs, ys, h, hlength with
  | [], ys, h, _ => rw [h.symm.eq_nil]
  | [a], ys, h, _ => rw [List.singleton_perm.mp h]
  | [a, b], ys, h, _ =>
      rcases List.perm_pair.mp h.symm with rfl | rfl
      · rfl
      · exact hpair a b (hxs a (by simp)) (hxs b (by simp))

end Rounding

end FraudDetection.Floats
