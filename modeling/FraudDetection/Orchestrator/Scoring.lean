import Mathlib.Algebra.Order.Field.Rat
import Mathlib.Order.Interval.Set.Defs
import Mathlib.Tactic.Linarith
import FraudDetection.Floats.Binary
import FraudDetection.Python.CompactJson

/-!
# Score aggregation and decisions

The scores of the engines are checked, weighted and added up, and the sum is clamped to the unit
interval. Three thresholds, in any order, turn the result into a decision. The arithmetic is a
parameter: that of floats, or the exact one.

`aggregate_ok` gives the result for valid scores and tolerable weights. It is a clamped weighted
sum, so it is monotone in every arithmetic; in the exact one the tolerance on the weights bounds how
far it leaves the range of the scores. A decision is the first threshold that the score does not
exceed, which is monotone whatever the thresholds are.
-/

namespace FraudDetection.Orchestrator

open Python Floats

/-! ## Models -/

/-- `FraudDecision` -/
inductive FraudDecision where
  | approve
  | review
  | decline
  | block
  deriving DecidableEq, Repr

namespace FraudDecision

/-- The text of a decision. -/
def value : FraudDecision → String
  | approve => "approve"
  | review => "review"
  | decline => "decline"
  | block => "block"

/-- The rank of a decision, from the mildest to the most severe. -/
def severity : FraudDecision → ℕ
  | approve => 0
  | review => 1
  | decline => 2
  | block => 3

theorem severity_injective : Function.Injective severity := by
  intro a b h
  cases a <;> cases b <;> first | rfl | cases h

/-- Decisions are ordered by severity. -/
instance : LinearOrder FraudDecision := LinearOrder.lift' severity severity_injective

theorem le_iff {a b : FraudDecision} : a ≤ b ↔ a.severity ≤ b.severity := Iff.rfl

end FraudDecision

/-- A field with `ge=0.0, le=1.0`. -/
abbrev UnitField := Set.Icc (0 : ℚ) 1

/-- The field with the value of a literal. -/
def literal (q : ℚ) (h : 0 ≤ q ∧ q ≤ 1) : UnitField :=
  ⟨binary64.round q, Rounding.round_unit h⟩

/-- `ScoringWeights` -/
structure ScoringWeights where
  wRule : UnitField
  wMl : UnitField
  wGraph : UnitField
  wHistory : UnitField

/-- The sum of all weights. -/
def ScoringWeights.total (fl : Rounding) (w : ScoringWeights) : ℚ :=
  fl.plus (fl.plus (fl.plus w.wRule w.wMl) w.wGraph) w.wHistory

theorem fifth_unit : (0 : ℚ) ≤ 2 / 10 ∧ (2 / 10 : ℚ) ≤ 1 := by norm_num

/-- The default weights. -/
def ScoringWeights.default : ScoringWeights where
  wRule := literal (3 / 10) (by norm_num)
  wMl := literal (35 / 100) (by norm_num)
  wGraph := literal (2 / 10) fifth_unit
  wHistory := literal (15 / 100) (by norm_num)

/-- `DecisionThresholds` -/
structure DecisionThresholds where
  approve : UnitField
  review : UnitField
  highRisk : UnitField

/-- The default thresholds. -/
def DecisionThresholds.default : DecisionThresholds where
  approve := literal (3 / 10) (by norm_num)
  review := literal (6 / 10) (by norm_num)
  highRisk := literal (85 / 100) (by norm_num)

/-! ## Aggregation -/

/-- The scores of the engines. -/
structure Scores where
  ruleScore : Double
  mlScore : Double
  graphScore : Double
  historicalScore : Double

namespace Scores

/-- The scores with their names, in the order in which they are checked. -/
def items (s : Scores) : List (String × Double) :=
  [("rule_score", s.ruleScore), ("ml_score", s.mlScore), ("graph_score", s.graphScore),
    ("historical_score", s.historicalScore)]

/-- Every score lies in the unit interval. -/
def Valid (s : Scores) : Prop := ∀ item ∈ s.items, item.2.Unit

/-- Scores are compared one by one. -/
instance : LE Scores where
  le s t := s.ruleScore ≤ t.ruleScore ∧ s.mlScore ≤ t.mlScore ∧ s.graphScore ≤ t.graphScore ∧
    s.historicalScore ≤ t.historicalScore

/-- The smallest score. -/
def min (s : Scores) : ℚ :=
  Min.min (Min.min s.ruleScore.value s.mlScore.value)
    (Min.min s.graphScore.value s.historicalScore.value)

/-- The largest score. -/
def max (s : Scores) : ℚ :=
  Max.max (Max.max s.ruleScore.value s.mlScore.value)
    (Max.max s.graphScore.value s.historicalScore.value)

theorem valid_iff {s : Scores} : s.Valid ↔
    s.ruleScore.Unit ∧ s.mlScore.Unit ∧ s.graphScore.Unit ∧ s.historicalScore.Unit := by
  simp [Valid, items]

end Scores

/-- `f"{q:.4f}"`: four decimals, rounded half to even. -/
def fixed4 (q : ℚ) : String :=
  let rounded := roundEven (q * 10000)
  let decimals := toString (rounded.natAbs % 10000)
  (if rounded < 0 then "-" else "") ++ toString (rounded.natAbs / 10000) ++ "." ++
    String.ofList (List.replicate (4 - decimals.length) '0') ++ decimals

/-- `f"{x}"` -/
def floatText (py : PyLib) : Double → String
  | .nan => "nan"
  | .num q => py.str (.float q)

/-- Check scores one after the other. -/
def validate (py : PyLib) : List (String × Double) → Except Exn Unit
  | [] => .ok ()
  | (name, value) :: items =>
      if value.Unit then validate py items
      else .error ⟨.other "ValueError",
        name ++ " must be between 0.0 and 1.0, got " ++ floatText py value⟩

/-- The largest deviation of the total weight from one. -/
def weightSumTolerance (fl : Rounding) : ℚ := fl.round (1 / 100)

/-- The text of the error about the total weight. -/
def weightSumError (fl : Rounding) (py : PyLib) (w : ScoringWeights) : String :=
  "Scoring weights must sum to ~1.0 (got " ++ fixed4 (w.total fl) ++ "). Weights: rule=" ++
    py.str (.float w.wRule) ++ ", ml=" ++ py.str (.float w.wMl) ++ ", graph=" ++
    py.str (.float w.wGraph) ++ ", history=" ++ py.str (.float w.wHistory)

/-- The weighted sum before it is clamped. The scores have been checked, so they are numbers. -/
def rawScore (fl : Rounding) (s : Scores) (w : ScoringWeights) : ℚ :=
  fl.plus (fl.plus (fl.plus (fl.times w.wRule s.ruleScore.value) (fl.times w.wMl s.mlScore.value))
    (fl.times w.wGraph s.graphScore.value)) (fl.times w.wHistory s.historicalScore.value)

/-- `aggregate` -/
def aggregate (fl : Rounding) (py : PyLib) (s : Scores) (w : ScoringWeights) : Except Exn ℚ := do
  validate py s.items
  if |fl.minus (w.total fl) 1| > weightSumTolerance fl then
    throw ⟨.other "ValueError", weightSumError fl py w⟩
  return max 0 (min 1 (rawScore fl s w))

/-- `make_decision` -/
def makeDecision (finalScore : ℚ) (thresholds : DecisionThresholds) : FraudDecision :=
  -- a score at a threshold gets the milder decision
  if finalScore ≤ thresholds.approve then .approve
  else if finalScore ≤ thresholds.review then .review
  else if finalScore ≤ thresholds.highRisk then .decline
  else .block

/-! ## What aggregation returns -/

section Aggregate

variable {fl : Rounding} {py : PyLib} {w : ScoringWeights} {s t : Scores}

theorem validate_ok {items : List (String × Double)} :
    validate py items = .ok () ↔ ∀ item ∈ items, item.2.Unit := by
  induction items with
  | nil => simp [validate]
  | cons item items ih =>
      rw [validate, List.forall_mem_cons]
      by_cases h : item.2.Unit
      · rw [if_pos h, ih, and_iff_right h]
      · rw [if_neg h]
        exact iff_of_false (by simp) fun hall => h hall.1

/-- An error of the check names the first score that is out of range. -/
theorem validate_error {items : List (String × Double)} {x : Exn} (h : validate py items = .error x) :
    ∃ before item after, items = before ++ item :: after ∧
      (∀ i ∈ before, i.2.Unit) ∧ ¬ item.2.Unit ∧
      x = ⟨.other "ValueError",
        item.1 ++ " must be between 0.0 and 1.0, got " ++ floatText py item.2⟩ := by
  induction items with
  | nil => cases h
  | cons item items ih =>
      rw [validate] at h
      by_cases hitem : item.2.Unit
      · rw [if_pos hitem] at h
        obtain ⟨before, bad, after, rfl, hbefore, hbad, hx⟩ := ih h
        exact ⟨item :: before, bad, after, rfl, List.forall_mem_cons.mpr ⟨hitem, hbefore⟩, hbad, hx⟩
      · rw [if_neg hitem] at h
        cases h
        exact ⟨[], item, items, rfl, by simp, hitem, rfl⟩

/-- Valid scores and tolerable weights are aggregated. -/
theorem aggregate_ok (hs : s.Valid) (hw : |fl.minus (w.total fl) 1| ≤ weightSumTolerance fl) :
    aggregate fl py s w = .ok (max 0 (min 1 (rawScore fl s w))) := by
  rw [aggregate, validate_ok.mpr hs]
  show (if |fl.minus (w.total fl) 1| > weightSumTolerance fl then _ else _) = _
  rw [if_neg (not_lt.mpr hw)]
  rfl

/-- Scores that are not valid are refused. -/
theorem aggregate_error (hs : ¬ s.Valid) : ∃ x, aggregate fl py s w = .error x ∧
    x.cls = .other "ValueError" := by
  cases h : validate py s.items with
  | ok u => exact absurd (validate_ok.mp h) hs
  | error x =>
      obtain ⟨_, _, _, -, -, -, hx⟩ := validate_error h
      refine ⟨x, ?_, by rw [hx]⟩
      rw [aggregate, h]
      rfl

/-! ## Bounds -/

/-- Rounding keeps the order of weighted sums. -/
theorem rawScore_mono (h : s ≤ t) : rawScore fl s w ≤ rawScore fl t w := by
  obtain ⟨hrule, hml, hgraph, hhistory⟩ := h
  have hterm : ∀ (weight : UnitField) {x y : Double}, x ≤ y →
      fl.times weight x.value ≤ fl.times weight y.value :=
    fun weight _ _ hxy => Rounding.times_mono weight.2.1 (Double.le_iff.mp hxy).2.2
  unfold rawScore
  apply Rounding.plus_mono
  · apply Rounding.plus_mono
    · exact Rounding.plus_mono (hterm _ hrule) (hterm _ hml)
    · exact hterm _ hgraph
  · exact hterm _ hhistory

theorem Scores.Valid.bounds (hs : s.Valid) : (0 ≤ s.min ∧ s.min ≤ 1) ∧ 0 ≤ s.max ∧ s.max ≤ 1 := by
  obtain ⟨hrule, hml, hgraph, hhistory⟩ := Scores.valid_iff.mp hs
  unfold Scores.min Scores.max
  simp [hrule.value, hml.value, hgraph.value, hhistory.value]

section Exact

theorem total_exact : w.total .exact = w.wRule + w.wMl + w.wGraph + w.wHistory := rfl

theorem tolerable_exact (hw : |w.total .exact - 1| ≤ 1 / 100) :
    |Rounding.exact.minus (w.total .exact) 1| ≤ weightSumTolerance .exact := by
  rw [Rounding.exact_minus, weightSumTolerance, Rounding.exact_round]
  exact hw

/-- A weighted sum is at most the total weight times the largest score. -/
theorem rawScore_le : rawScore .exact s w ≤ w.total .exact * s.max := by
  have hterm : ∀ (weight : UnitField) {x : ℚ}, x ≤ s.max → weight * x ≤ weight * s.max :=
    fun weight _ hx => mul_le_mul_of_nonneg_left hx weight.2.1
  have hrule := @hterm w.wRule s.ruleScore.value (by simp [Scores.max])
  have hml := @hterm w.wMl s.mlScore.value (by simp [Scores.max])
  have hgraph := @hterm w.wGraph s.graphScore.value (by simp [Scores.max])
  have hhistory := @hterm w.wHistory s.historicalScore.value (by simp [Scores.max])
  rw [total_exact]
  unfold rawScore
  simp only [Rounding.exact_plus, Rounding.exact_times]
  linarith

/-- A weighted sum is at least the total weight times the smallest score. -/
theorem le_rawScore : w.total .exact * s.min ≤ rawScore .exact s w := by
  have hterm : ∀ (weight : UnitField) {x : ℚ}, s.min ≤ x → weight * s.min ≤ weight * x :=
    fun weight _ hx => mul_le_mul_of_nonneg_left hx weight.2.1
  have hrule := @hterm w.wRule s.ruleScore.value (by simp [Scores.min])
  have hml := @hterm w.wMl s.mlScore.value (by simp [Scores.min])
  have hgraph := @hterm w.wGraph s.graphScore.value (by simp [Scores.min])
  have hhistory := @hterm w.wHistory s.historicalScore.value (by simp [Scores.min])
  rw [total_exact]
  unfold rawScore
  simp only [Rounding.exact_plus, Rounding.exact_times]
  linarith

/-- The aggregate leaves the range of the scores by at most the tolerance of the weights. -/
theorem clamp_rawScore_bounds (hs : s.Valid) (hw : |w.total .exact - 1| ≤ 1 / 100) :
    s.min - 1 / 100 ≤ max 0 (min 1 (rawScore .exact s w)) ∧
      max 0 (min 1 (rawScore .exact s w)) ≤ s.max + 1 / 100 := by
  obtain ⟨⟨hmin0, hmin1⟩, hmax0, hmax1⟩ := hs.bounds
  obtain ⟨hlow, hhigh⟩ := abs_le.mp hw
  have hbelow : s.min - 1 / 100 ≤ rawScore .exact s w := by
    have hraw := @le_rawScore w s
    have hslack : (1 - w.total .exact) * s.min ≤ 1 / 100 := by nlinarith
    nlinarith
  have habove : rawScore .exact s w ≤ s.max + 1 / 100 := by
    have hraw := @rawScore_le w s
    have hslack : (w.total .exact - 1) * s.max ≤ 1 / 100 := by nlinarith
    nlinarith
  constructor
  · refine le_max_of_le_right (le_min ?_ hbelow)
    linarith
  · refine max_le ?_ ((min_le_right _ _).trans habove)
    linarith

end Exact

/-- In every arithmetic valid scores are aggregated to a number in the unit interval, and higher
scores to no lower number. -/
theorem aggregate_mono (hw : |fl.minus (w.total fl) 1| ≤ weightSumTolerance fl) (hs : s.Valid)
    (ht : t.Valid) (hst : s ≤ t) :
    ∃ a b, aggregate fl py s w = .ok a ∧ aggregate fl py t w = .ok b ∧
      (0 ≤ a ∧ a ≤ 1) ∧ (0 ≤ b ∧ b ≤ 1) ∧ a ≤ b := by
  have hunit : ∀ x : ℚ, 0 ≤ max 0 (min 1 x) ∧ max 0 (min 1 x) ≤ 1 := by
    intro x
    exact ⟨le_max_left _ _, max_le zero_le_one (min_le_left _ _)⟩
  exact ⟨_, _, aggregate_ok hs hw, aggregate_ok ht hw, hunit _, hunit _,
    max_le_max le_rfl (min_le_min le_rfl (rawScore_mono hst))⟩

end Aggregate

/-! ## Decisions -/

/-- A higher score never makes a milder decision, whatever the order of the thresholds. -/
theorem makeDecision_mono {x y : ℚ} (h : x ≤ y) (th : DecisionThresholds) :
    makeDecision x th ≤ makeDecision y th := by
  unfold makeDecision
  rw [FraudDecision.le_iff]
  by_cases happrove : y ≤ th.approve
  · rw [if_pos happrove, if_pos (h.trans happrove)]
  · rw [if_neg happrove]
    by_cases hreview : y ≤ th.review
    · rw [if_pos hreview, if_pos (h.trans hreview)]
      split <;> decide
    · rw [if_neg hreview]
      by_cases hhigh : y ≤ th.highRisk
      · rw [if_pos hhigh, if_pos (h.trans hhigh)]
        split
        · decide
        · split <;> decide
      · rw [if_neg hhigh]
        split
        · decide
        · split
          · decide
          · split <;> decide

/-- In exact arithmetic the decision pipeline is total on valid scores, stays in the range of the
scores up to the tolerance of the weights, and is monotone. -/
theorem pipeline_mono (py : PyLib) (w : ScoringWeights)
    (hw : |w.total .exact - 1| ≤ 1 / 100) (th : DecisionThresholds) (s t : Scores)
    (hs : s.Valid) (ht : t.Valid) (hst : s ≤ t) :
    ∃ a b, aggregate .exact py s w = .ok a ∧ aggregate .exact py t w = .ok b ∧
      (0 ≤ a ∧ a ≤ 1) ∧ (0 ≤ b ∧ b ≤ 1) ∧
      (s.min - 1 / 100 ≤ a ∧ a ≤ s.max + 1 / 100) ∧
      (t.min - 1 / 100 ≤ b ∧ b ≤ t.max + 1 / 100) ∧
      a ≤ b ∧ makeDecision a th ≤ makeDecision b th := by
  obtain ⟨a, b, ha, hb, haunit, hbunit, hle⟩ := @aggregate_mono .exact py w s t (tolerable_exact hw) hs ht hst
  have hbounds : ∀ {u : Scores} {x : ℚ}, u.Valid → aggregate .exact py u w = .ok x →
      u.min - 1 / 100 ≤ x ∧ x ≤ u.max + 1 / 100 := by
    intro u x hu hx
    obtain rfl := Except.ok.inj ((aggregate_ok hu (tolerable_exact hw)).symm.trans hx)
    exact clamp_rawScore_bounds hu hw
  exact ⟨a, b, ha, hb, haunit, hbunit, hbounds hs ha, hbounds ht hb, hle, makeDecision_mono hle th⟩

/-- Weights that exceed one within the tolerance. -/
def generousWeights : ScoringWeights where
  wRule := ⟨41 / 100, by norm_num⟩
  wMl := ⟨4 / 10, by norm_num⟩
  wGraph := ⟨2 / 10, by norm_num⟩
  wHistory := ⟨0, by norm_num⟩

/-- Thresholds out of order. -/
def mixedThresholds : DecisionThresholds where
  approve := ⟨5 / 10, by norm_num⟩
  review := ⟨2 / 10, by norm_num⟩
  highRisk := ⟨9 / 10, by norm_num⟩

/-- The scores of some engines. -/
def someScores : Scores := ⟨.num (1 / 2), .num (1 / 4), 0, 0⟩

/-- Higher ones. -/
def higherScores : Scores := ⟨1, 1, 1, 0⟩

theorem pipeline_mono_mixed :
    ∃ a b, aggregate .exact CompactJson.compactJson someScores generousWeights = .ok a ∧
      aggregate .exact CompactJson.compactJson higherScores generousWeights = .ok b ∧
      (0 ≤ a ∧ a ≤ 1) ∧ (0 ≤ b ∧ b ≤ 1) ∧
      (someScores.min - 1 / 100 ≤ a ∧ a ≤ someScores.max + 1 / 100) ∧
      (higherScores.min - 1 / 100 ≤ b ∧ b ≤ higherScores.max + 1 / 100) ∧
      a ≤ b ∧ makeDecision a mixedThresholds ≤ makeDecision b mixedThresholds := by
  refine pipeline_mono CompactJson.compactJson generousWeights ?_ mixedThresholds someScores
    higherScores ?_ ?_ ?_
  · rw [total_exact, abs_le]
    norm_num [generousWeights]
  · rw [Scores.valid_iff]
    decide +kernel
  · rw [Scores.valid_iff]
    decide +kernel
  · refine ⟨?_, ?_, ?_, ?_⟩ <;> decide +kernel

end FraudDetection.Orchestrator
