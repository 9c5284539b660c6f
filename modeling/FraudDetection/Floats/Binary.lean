import Mathlib.Data.Int.Log
import Mathlib.Data.Rat.Floor
import Mathlib.Tactic.FieldSimp
import FraudDetection.Floats.Rounding

/-!
# Binary formats

The numbers of a binary format are the multiples of a power of two, with a bounded number of bits:
the larger the number, the wider the grid. A rational is rounded to the nearest point of its grid,
of two points to the one with an even significand.

Two numbers of different size are rounded on different grids. Between them lies a power of two,
which is on both, and this is what makes rounding monotone (`roundPos_mono`).
-/

namespace FraudDetection.Floats

/-! ## The nearest integer -/

/-- The nearest integer; of two, the even one. -/
def roundEven (q : ℚ) : ℤ :=
  if q - ⌊q⌋ < 1 / 2 ∨ q - ⌊q⌋ = 1 / 2 ∧ ⌊q⌋ % 2 = 0 then ⌊q⌋ else ⌊q⌋ + 1

@[simp] theorem roundEven_intCast (n : ℤ) : roundEven n = n := by
  simp [roundEven]

theorem floor_le_roundEven (q : ℚ) : ⌊q⌋ ≤ roundEven q := by
  unfold roundEven
  split <;> omega

theorem roundEven_le_floor_add_one (q : ℚ) : roundEven q ≤ ⌊q⌋ + 1 := by
  unfold roundEven
  split <;> omega

theorem roundEven_mono {q p : ℚ} (h : q ≤ p) : roundEven q ≤ roundEven p := by
  rcases (Int.floor_le_floor h).lt_or_eq with hlt | heq
  · have hstep : ⌊q⌋ + 1 ≤ ⌊p⌋ := hlt
    exact (roundEven_le_floor_add_one q).trans (hstep.trans (floor_le_roundEven p))
  · -- in one unit interval: what is rounded down has only such below it
    have hlow := floor_le_roundEven p
    rw [← heq] at hlow
    unfold roundEven at hlow ⊢
    rw [← heq] at hlow ⊢
    split
    · exact hlow
    · next hq =>
        rw [if_neg]
        intro hp
        apply hq
        rcases hp with hp | ⟨hp, heven⟩
        · exact Or.inl (by linarith)
        · rcases h.lt_or_eq with hlt | rfl
          · exact Or.inl (by linarith)
          · exact Or.inr ⟨hp, heven⟩

theorem abs_roundEven_sub_le (q : ℚ) : |(roundEven q : ℚ) - q| ≤ 1 / 2 := by
  have hlow := Int.floor_le q
  have hhigh := Int.lt_floor_add_one q
  unfold roundEven
  split
  · next h =>
      rw [abs_le]
      constructor
      · rcases h with h | ⟨h, -⟩ <;> linarith
      · linarith
  · next h =>
      have hhalf : 1 / 2 ≤ q - ⌊q⌋ := by
        by_contra hlt
        exact h (Or.inl (not_le.mp hlt))
      push_cast
      rw [abs_le]
      constructor <;> linarith

/-! ## Grids -/

/-- A multiple of `2 ^ k`. -/
def OnGrid (k : ℤ) (q : ℚ) : Prop := ∃ n : ℤ, q = n * 2 ^ k

/-- The nearest multiple of `2 ^ k`. -/
def nearest (k : ℤ) (q : ℚ) : ℚ := roundEven (q / 2 ^ k) * 2 ^ k

theorem two_zpow_pos (k : ℤ) : (0 : ℚ) < 2 ^ k := zpow_pos (by norm_num) k

theorem onGrid_nearest (k : ℤ) (q : ℚ) : OnGrid k (nearest k q) := ⟨_, rfl⟩

theorem onGrid_zero (k : ℤ) : OnGrid k 0 := ⟨0, by simp⟩

theorem onGrid_two_zpow {j k : ℤ} (h : k ≤ j) : OnGrid k (2 ^ j) := by
  refine ⟨2 ^ (j - k).toNat, ?_⟩
  push_cast
  rw [← zpow_natCast, Int.toNat_of_nonneg (by omega), ← zpow_add₀ two_ne_zero]
  congr 1
  omega

/-- The points of a grid are on every finer grid. -/
theorem OnGrid.of_le {j k : ℤ} {q : ℚ} (h : OnGrid k q) (hjk : j ≤ k) : OnGrid j q := by
  obtain ⟨n, rfl⟩ := h
  obtain ⟨m, hm⟩ := onGrid_two_zpow hjk
  refine ⟨n * m, ?_⟩
  rw [hm]
  push_cast
  ring

theorem OnGrid.add {k : ℤ} {a b : ℚ} (ha : OnGrid k a) (hb : OnGrid k b) : OnGrid k (a + b) := by
  obtain ⟨n, rfl⟩ := ha
  obtain ⟨m, rfl⟩ := hb
  refine ⟨n + m, ?_⟩
  push_cast
  ring

theorem OnGrid.neg {k : ℤ} {a : ℚ} (ha : OnGrid k a) : OnGrid k (-a) := by
  obtain ⟨n, rfl⟩ := ha
  refine ⟨-n, ?_⟩
  push_cast
  ring

/-- The points of a grid stay where they are. -/
theorem nearest_of_onGrid {k : ℤ} {q : ℚ} (h : OnGrid k q) : nearest k q = q := by
  obtain ⟨n, rfl⟩ := h
  rw [nearest, mul_div_cancel_right₀ _ (two_zpow_pos k).ne', roundEven_intCast]

theorem nearest_mono (k : ℤ) : Monotone (nearest k) := by
  intro q p h
  unfold nearest
  have hpos := two_zpow_pos k
  have hround : roundEven (q / 2 ^ k) ≤ roundEven (p / 2 ^ k) := roundEven_mono (by gcongr)
  have hcast : (roundEven (q / 2 ^ k) : ℚ) ≤ roundEven (p / 2 ^ k) := by exact_mod_cast hround
  gcongr

/-- No point of a grid is further off than half its width. -/
theorem abs_nearest_sub_le (k : ℤ) (q : ℚ) : |nearest k q - q| ≤ 2 ^ k / 2 := by
  have hpos := two_zpow_pos k
  have herror := abs_roundEven_sub_le (q / 2 ^ k)
  have hscale : nearest k q - q = (roundEven (q / 2 ^ k) - q / 2 ^ k) * 2 ^ k := by
    unfold nearest
    field_simp
  rw [hscale, abs_mul, abs_of_pos hpos]
  nlinarith

/-! ## Formats -/

/-- A binary format: the number of bits of a significand, and the exponent of its smallest positive
number. Exponents are not bounded above. -/
structure Format where
  precision : ℕ
  minExponent : ℤ
  precision_pos : 0 < precision
  minExponent_nonpos : minExponent ≤ 0

namespace Format

variable (F : Format)

/-- The exponent of the last bit of the numbers of the size of `q`. -/
def quantum (q : ℚ) : ℤ := max (Int.log 2 q + 1 - F.precision) F.minExponent

/-- The rounding of a number that is not negative. -/
def roundPos (q : ℚ) : ℚ := nearest (F.quantum q) q

/-- The rounding of a number. -/
def round (q : ℚ) : ℚ := if q < 0 then -F.roundPos (-q) else F.roundPos q

variable {F} {q p : ℚ}

theorem round_of_nonneg (h : 0 ≤ q) : F.round q = F.roundPos q := if_neg (not_lt.mpr h)

theorem round_of_neg (h : q < 0) : F.round q = -F.roundPos (-q) := if_pos h

theorem roundPos_of_onGrid (h : OnGrid (F.quantum q) q) : F.roundPos q = q := nearest_of_onGrid h

theorem roundPos_zero : F.roundPos 0 = 0 := roundPos_of_onGrid (onGrid_zero _)

theorem zpow_log_le (h : 0 < q) : (2 : ℚ) ^ Int.log 2 q ≤ q := by
  exact_mod_cast Int.zpow_log_le_self (b := 2) (by norm_num) h

theorem lt_zpow_log (q : ℚ) : q < (2 : ℚ) ^ (Int.log 2 q + 1) := by
  exact_mod_cast Int.lt_zpow_succ_log_self (b := 2) (by norm_num) q

theorem log_lt_iff {k : ℤ} (h : 0 < q) : Int.log 2 q < k ↔ q < (2 : ℚ) ^ k := by
  have hiff := Int.lt_zpow_iff_log_lt (R := ℚ) (b := 2) (by norm_num) (x := k) h
  exact_mod_cast hiff.symm

/-! ### Monotone -/

/-- Rounding is monotone on the nonnegative numbers. -/
theorem roundPos_mono (hq : 0 ≤ q) (h : q ≤ p) : F.roundPos q ≤ F.roundPos p := by
  rcases hq.lt_or_eq with hpos | rfl
  · have hlog : Int.log 2 q ≤ Int.log 2 p := Int.log_mono_right hpos h
    have hquantum : F.quantum q ≤ F.quantum p := max_le_max (by omega) le_rfl
    rcases hquantum.lt_or_eq with hlt | heq
    · -- the power of two at the size of `p` is on both grids
      have hsize : F.quantum p = Int.log 2 p + 1 - F.precision := by
        rcases max_choice (Int.log 2 p + 1 - F.precision) F.minExponent with hp | hp
        · exact hp
        · exact absurd (lt_of_lt_of_eq hlt hp) (not_lt.mpr (le_max_right _ _))
      have hprecision := F.precision_pos
      have hbelow : q < (2 : ℚ) ^ Int.log 2 p := by
        rw [← log_lt_iff hpos]
        have hq : Int.log 2 q + 1 - F.precision ≤ F.quantum q := le_max_left _ _
        omega
      calc F.roundPos q ≤ nearest (F.quantum q) (2 ^ Int.log 2 p) := nearest_mono _ hbelow.le
        _ = nearest (F.quantum p) (2 ^ Int.log 2 p) := by
            rw [nearest_of_onGrid (onGrid_two_zpow (by omega)),
              nearest_of_onGrid (onGrid_two_zpow (by omega))]
        _ ≤ F.roundPos p := nearest_mono _ (zpow_log_le (hpos.trans_le h))
    · unfold roundPos
      rw [heq]
      exact nearest_mono _ h
  · rw [roundPos_zero]
    exact (nearest_of_onGrid (onGrid_zero (F.quantum p))).symm.le.trans (nearest_mono _ h)

theorem roundPos_nonneg (h : 0 ≤ q) : 0 ≤ F.roundPos q :=
  roundPos_zero.symm.le.trans (roundPos_mono le_rfl h)

theorem round_mono : Monotone F.round := by
  intro q p h
  rcases lt_or_ge q 0 with hq | hq
  · rw [round_of_neg hq]
    rcases lt_or_ge p 0 with hp | hp
    · rw [round_of_neg hp]
      exact neg_le_neg (roundPos_mono (by linarith) (by linarith))
    -- zero is between the two, and is rounded to itself
    · rw [round_of_nonneg hp]
      have hleft : 0 ≤ F.roundPos (-q) := roundPos_nonneg (by linarith)
      have hright : 0 ≤ F.roundPos p := roundPos_nonneg hp
      linarith
  · rw [round_of_nonneg hq, round_of_nonneg (hq.trans h)]
    exact roundPos_mono hq h

/-! ### Rounded numbers -/

/-- A number of the format is a multiple of its smallest positive number. -/
theorem onGrid_of_round (h : F.round q = q) : OnGrid F.minExponent q := by
  have hpos : ∀ x, OnGrid F.minExponent (F.roundPos x) :=
    fun x => (onGrid_nearest (F.quantum x) x).of_le (le_max_right _ _)
  rw [← h]
  unfold round
  split
  · exact (hpos _).neg
  · exact hpos _

/-- Few enough bits on a grid of the format make a number of the format. -/
theorem roundPos_of_bits {n : ℕ} {k : ℤ} (hn : n ≤ 2 ^ F.precision) (hk : F.minExponent ≤ k) :
    F.roundPos (n * 2 ^ k) = n * 2 ^ k := by
  apply roundPos_of_onGrid
  have hprecision := F.precision_pos
  rcases Nat.eq_zero_or_pos n with rfl | hpos
  · rw [Nat.cast_zero, zero_mul]
    exact onGrid_zero _
  have hvalue : (0 : ℚ) < n * 2 ^ k := mul_pos (by exact_mod_cast hpos) (two_zpow_pos k)
  have hscale : ((2 ^ F.precision : ℕ) : ℚ) * 2 ^ k = 2 ^ (F.precision + k) := by
    rw [zpow_add₀ two_ne_zero, zpow_natCast]
    push_cast
    rfl
  rcases hn.lt_or_eq with hlt | rfl
  · -- the significand fits: the grid of the number is not wider
    have hlog : Int.log 2 ((n : ℚ) * 2 ^ k) < F.precision + k := by
      rw [log_lt_iff hvalue, ← hscale]
      have hcast : (n : ℚ) < (2 ^ F.precision : ℕ) := by exact_mod_cast hlt
      have hpow := two_zpow_pos k
      gcongr
    refine OnGrid.of_le ⟨n, by push_cast; rfl⟩ (max_le ?_ hk)
    omega
  · -- a power of two is on the next grid as well
    rw [hscale]
    apply onGrid_two_zpow
    have hlog : Int.log 2 ((2 : ℚ) ^ (F.precision + k)) = F.precision + k := by
      exact_mod_cast Int.log_zpow (R := ℚ) (b := 2) (by norm_num) (F.precision + k)
    unfold quantum
    rw [hlog]
    refine max_le ?_ ?_ <;> omega

theorem roundPos_roundPos (h : 0 ≤ q) : F.roundPos (F.roundPos q) = F.roundPos q := by
  have hgrid := two_zpow_pos (F.quantum q)
  have hnonneg : 0 ≤ roundEven (q / 2 ^ F.quantum q) := by
    have hzero : roundEven ((0 : ℤ) : ℚ) ≤ roundEven (q / 2 ^ F.quantum q) := by
      apply roundEven_mono
      rw [Int.cast_zero]
      positivity
    rwa [roundEven_intCast] at hzero
  -- rounding up can give one bit more, but then the significand is a power of two
  have hbits : roundEven (q / 2 ^ F.quantum q) ≤ 2 ^ F.precision := by
    have hmost : q / 2 ^ F.quantum q ≤ ((2 ^ F.precision : ℤ) : ℚ) := by
      rw [div_le_iff₀ hgrid]
      push_cast
      rw [← zpow_natCast, ← zpow_add₀ two_ne_zero]
      refine (lt_zpow_log q).le.trans (zpow_le_zpow_right₀ one_le_two ?_)
      have hquantum : Int.log 2 q + 1 - F.precision ≤ F.quantum q := le_max_left _ _
      omega
    rw [← roundEven_intCast (2 ^ F.precision)]
    exact roundEven_mono hmost
  obtain ⟨n, hn⟩ := Int.eq_ofNat_of_zero_le hnonneg
  have hvalue : F.roundPos q = n * 2 ^ F.quantum q := by
    unfold roundPos nearest
    rw [hn]
    push_cast
    rfl
  rw [hvalue]
  apply roundPos_of_bits
  · rw [hn] at hbits
    exact_mod_cast hbits
  · exact le_max_right _ _

theorem round_neg (q : ℚ) : F.round (-q) = -F.round q := by
  rcases lt_trichotomy q 0 with hq | rfl | hq
  · rw [round_of_neg hq, round_of_nonneg (by linarith), neg_neg]
  · rw [neg_zero, round_of_nonneg le_rfl, roundPos_zero, neg_zero]
  · rw [round_of_nonneg hq.le, round_of_neg (by linarith), neg_neg]

theorem round_round (q : ℚ) : F.round (F.round q) = F.round q := by
  rcases le_or_gt 0 q with hq | hq
  · rw [round_of_nonneg hq, round_of_nonneg (roundPos_nonneg hq), roundPos_roundPos hq]
  · have hpos : 0 ≤ -q := by linarith
    rw [round_of_neg hq, round_neg, round_of_nonneg (roundPos_nonneg hpos), roundPos_roundPos hpos]

/-- The whole numbers with few enough bits are numbers of the format. -/
theorem round_intCast {n : ℤ} (hn : |n| ≤ 2 ^ F.precision) (hmin : F.minExponent ≤ 0) :
    F.round n = n := by
  have hpos : ∀ k : ℕ, k ≤ 2 ^ F.precision → F.round k = k := by
    intro k hk
    have hbits := roundPos_of_bits (F := F) (k := 0) hk hmin
    rw [zpow_zero, mul_one] at hbits
    rwa [round_of_nonneg (Nat.cast_nonneg k)]
  have habs := hpos n.natAbs (by zify; exact hn)
  rcases Int.natAbs_eq n with h | h
  · rw [h, Int.cast_natCast, habs]
  · rw [h, Int.cast_neg, Int.cast_natCast, round_neg, habs]

theorem round_one : F.round 1 = 1 := by
  rw [round_of_nonneg zero_le_one]
  have hbits := @roundPos_of_bits F 1 0 Nat.one_le_two_pow F.minExponent_nonpos
  simpa using hbits

/-! ### The error of a sum -/

/-- Half a unit in the last place. -/
def unit (F : Format) : ℚ := 1 / 2 ^ F.precision

theorem roundPos_error (h : 0 ≤ q) (hgrid : OnGrid F.minExponent q) :
    |F.roundPos q - q| ≤ F.unit * q := by
  have hunit : 0 ≤ F.unit * q := by
    unfold unit
    positivity
  rcases le_total (Int.log 2 q + 1 - F.precision) F.minExponent with hsmall | hlarge
  · -- on the finest grid nothing is lost
    rw [roundPos_of_onGrid]
    · simpa using hunit
    · rwa [quantum, max_eq_right hsmall]
  · rcases h.lt_or_eq with hpos | rfl
    · have hwidth : (2 : ℚ) ^ F.quantum q / 2 = F.unit * 2 ^ Int.log 2 q := by
        rw [quantum, max_eq_left hlarge, unit, zpow_sub₀ two_ne_zero, zpow_add₀ two_ne_zero,
          zpow_natCast, zpow_one]
        field_simp
      calc |F.roundPos q - q| ≤ 2 ^ F.quantum q / 2 := abs_nearest_sub_le _ _
        _ = F.unit * 2 ^ Int.log 2 q := hwidth
        _ ≤ F.unit * q := by
            have hunit : 0 ≤ F.unit := by
              unfold unit
              positivity
            gcongr
            exact zpow_log_le hpos
    · rw [roundPos_zero]
      simp

theorem round_error (hgrid : OnGrid F.minExponent q) : |F.round q - q| ≤ F.unit * |q| := by
  rcases le_or_gt 0 q with hq | hq
  · rw [round_of_nonneg hq, abs_of_nonneg hq]
    exact roundPos_error hq hgrid
  · rw [round_of_neg hq, abs_of_neg hq, ← abs_neg]
    have herror := roundPos_error (F := F) (by linarith) hgrid.neg
    rwa [neg_sub, sub_neg_eq_add, add_comm, ← sub_neg_eq_add]

/-- The arithmetic of a format. -/
def rounding (F : Format) : Rounding where
  round := F.round
  unit := F.unit
  mono := round_mono
  round_round := round_round
  round_zero := (round_of_nonneg le_rfl).trans roundPos_zero
  round_one := round_one
  unit_nonneg := by
    unfold unit
    positivity
  add_error _ _ ha hb := round_error ((onGrid_of_round ha).add (onGrid_of_round hb))

end Format

/-- The arithmetic of double precision. -/
def binary64 : Rounding := Format.rounding ⟨53, -1074, by norm_num, by norm_num⟩

theorem binary64_intCast {n : ℤ} (h : |n| ≤ 2 ^ 53) : binary64.IsFloat n :=
  Format.round_intCast h (by norm_num)

example : binary64.round (binary64.round (1 / 10) + binary64.round (2 / 10)) ≠ binary64.round (3 / 10) := by
  decide +kernel

example : binary64.round (2 ^ 53 + 1) = 2 ^ 53 := by decide +kernel

end FraudDetection.Floats
