import Mathlib.Tactic.NormNum
import FraudDetection.Floats.Binary
import FraudDetection.Python.Value

/-!
# The scoring model

`PredictFraud` asks a random forest for the probability of fraud, and raises flags where it is high.
The forest is trained and stored outside of the service. Without one, a constant score stands in.
-/

namespace FraudDetection.MlScoring

open Python Floats

/-! ## Messages -/

/-- The fields of `PredictionRequest` that the service reads. -/
structure PredictionRequest where
  transactionId : String
  amount : ℚ
  hourOfDay : ℤ
  timeSinceLastTransaction : ℚ

/-- `PredictionResult`, less the time of the prediction. -/
structure PredictionResult where
  mlScore : ℚ
  anomalyFlags : List String
  modelVersion : String
  confidence : ℚ
  featureImportances : List (String × ℚ)

/-! ## The engine -/

/-- A random forest: the probability that `predict_proba` gives the class of frauds for the three
features, and the importances of the features, if it has them. -/
structure Forest where
  predictProba : ℚ → ℚ → ℚ → ℚ
  featureImportances : Option (ℚ × ℚ × ℚ)
  probability : ∀ amount hour time, 0 ≤ predictProba amount hour time ∧ predictProba amount hour time ≤ 1

/-- The flags of a score. -/
def flags (score : ℚ) (request : PredictionRequest) : List String :=
  if score > 1 / 2 then
    ["HIGH_RISK_SCORE"] ++
      (if request.amount > 5000 then ["UNUSUAL_AMOUNT"] else []) ++
      (if request.timeSinceLastTransaction < 60 then ["VELOCITY_SPIKE"] else []) ++
      (if request.hourOfDay ≥ 1 ∧ request.hourOfDay ≤ 5 then ["TIME_ANOMALY"] else [])
  else []

/-- `MockModelEngine.predict`, where the model has been loaded or has not. -/
def predict (model : Option Forest) (request : PredictionRequest) : PredictionResult :=
  match model with
  | none =>
      { mlScore := binary64.round (5 / 100)
        anomalyFlags := ["MODEL_NOT_LOADED"]
        modelVersion := "fallback"
        confidence := 0
        featureImportances := [] }
  | some forest =>
      let score := forest.predictProba request.amount request.hourOfDay
        request.timeSinceLastTransaction
      { mlScore := score
        anomalyFlags := flags score request
        modelVersion := "rf-v1"
        confidence := binary64.round (9 / 10)
        featureImportances :=
          match forest.featureImportances with
          | none => []
          | some (amount, hour, time) =>
              [("amount", amount), ("hour_of_day", hour), ("time_since_last_transaction", time)] }

/-- The score is a probability, with a model or without. -/
theorem mlScore_unit (model : Option Forest) (request : PredictionRequest) :
    0 ≤ (predict model request).mlScore ∧ (predict model request).mlScore ≤ 1 := by
  cases model with
  | none =>
    have hfallback : (0 : ℚ) ≤ 5 / 100 ∧ (5 / 100 : ℚ) ≤ 1 := by norm_num
    exact @Rounding.round_unit binary64 _ hfallback
  | some forest => exact forest.probability _ _ _

section Flags

variable {score : ℚ} {request : PredictionRequest}

theorem mem_flags_highRisk : "HIGH_RISK_SCORE" ∈ flags score request ↔ score > 1 / 2 := by
  unfold flags
  split_ifs <;> simp_all

theorem mem_flags_velocitySpike : "VELOCITY_SPIKE" ∈ flags score request ↔
    score > 1 / 2 ∧ request.timeSinceLastTransaction < 60 := by
  unfold flags
  split_ifs <;> simp_all

theorem mem_flags_timeAnomaly : "TIME_ANOMALY" ∈ flags score request ↔
    score > 1 / 2 ∧ request.hourOfDay ≥ 1 ∧ request.hourOfDay ≤ 5 := by
  unfold flags
  split_ifs <;> simp_all

end Flags

end FraudDetection.MlScoring
