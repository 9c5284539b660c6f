import Mathlib.Tactic.NormNum
import FraudDetection.Floats.Binary
import FraudDetection.Python.Value

/-!
# Graph analysis

`AnalyzeGraph` adds a transaction to the graph and asks three questions about its neighbourhood.
Each of them that is answered by a suspicious list of entities raises the score, adds a risk factor
and reports a pattern.
-/

namespace FraudDetection.Graph

open Python Floats

/-! ## Messages -/

/-- `GraphAnalysisRequest` -/
structure GraphAnalysisRequest where
  transactionId : String
  cardNumber : String
  merchantId : String
  deviceId : String
  ipAddress : String
  amount : ℚ

/-- `GraphPattern` -/
structure GraphPattern where
  patternType : String
  description : String
  severity : String
  confidence : ℚ
  involvedEntities : List String
  edgeCount : ℕ

/-- `GraphAnalysisResult` -/
structure GraphAnalysisResult where
  graphScore : ℚ := 0
  patterns : List GraphPattern := []
  riskFactors : List String := []
  connectedEntities : ℕ := 0
  analysisTimeMs : ℚ := 0
  edgesTraversed : ℕ := 0
  traversalDepth : ℕ := 0

/-- What the servicer leaves: the details of the status `INTERNAL` if it has set it, and the
message. -/
structure Reply where
  internal : Option String
  result : GraphAnalysisResult

/-- `Neo4jClient` -/
structure Neo4jClient where
  addTransactionToGraph : GraphAnalysisRequest → Except Exn Unit
  checkDeviceSharing : String → Except Exn (List String)
  checkIpCluster : String → Except Exn (List String)
  detectFraudRing : String → Except Exn (List String)

/-! ## The checks -/

/-- What a check adds to the result. -/
structure Finding where
  score : ℚ
  riskFactor : String
  pattern : GraphPattern

/-- Other cards on the device. -/
def deviceSharing (request : GraphAnalysisRequest) (cards : List String) : Option Finding :=
  if cards.length > 1 then
    some {
      score := binary64.round (4 / 10)
      riskFactor := "Card shares device with " ++ toString (cards.length - 1) ++ " other card(s)"
      pattern := {
        patternType := "DEVICE_SHARING_RING"
        description := "Device " ++ request.deviceId ++ " used by multiple cards"
        severity := if cards.length > 3 then "HIGH" else "MEDIUM"
        confidence := binary64.round (8 / 10)
        involvedEntities := cards ++ [request.deviceId]
        edgeCount := cards.length } }
  else none

/-- Other devices at the address. -/
def ipCluster (request : GraphAnalysisRequest) (devices : List String) : Option Finding :=
  if devices.length > 1 then
    some {
      score := binary64.round (3 / 10)
      riskFactor := "IP associated with " ++ toString devices.length ++ " devices"
      pattern := {
        patternType := "IP_CLUSTER"
        description := "IP " ++ request.ipAddress ++ " used by multiple devices"
        severity := "MEDIUM"
        confidence := binary64.round (7 / 10)
        involvedEntities := devices ++ [request.ipAddress]
        edgeCount := devices.length } }
  else none

/-- Cards connected to this one through devices and addresses. -/
def fraudRing (request : GraphAnalysisRequest) (connected : List String) : Option Finding :=
  if connected.length > 0 then
    some {
      score := binary64.round (5 / 10)
      riskFactor :=
        "Card shares infrastructure with " ++ toString connected.length ++ " other card(s)"
      pattern := {
        patternType := "SYNTHETIC_IDENTITY_RING"
        description := "Card linked to " ++ toString connected.length ++
          " other distinct cards via shared devices and IPs"
        severity := "CRITICAL"
        confidence := binary64.round (9 / 10)
        involvedEntities := connected ++ [request.cardNumber]
        edgeCount := connected.length * 2 } }
  else none

section Findings

variable {request : GraphAnalysisRequest} {entities : List String} {finding : Finding}

/-- No check lowers the score. -/
theorem score_nonneg (h : deviceSharing request entities = some finding ∨
    ipCluster request entities = some finding ∨ fraudRing request entities = some finding) :
    0 ≤ finding.score := by
  have hliteral : ∀ q : ℚ, 0 ≤ q → 0 ≤ binary64.round q := fun _ => Rounding.round_nonneg
  rcases h with h | h | h
  · unfold deviceSharing at h
    split at h <;> cases h
    exact hliteral (4 / 10) (by norm_num)
  · unfold ipCluster at h
    split at h <;> cases h
    exact hliteral (3 / 10) (by norm_num)
  · unfold fraudRing at h
    split at h <;> cases h
    exact hliteral (5 / 10) (by norm_num)

end Findings

/-! ## The analysis -/

/-- `AnalyzeGraph`. The analysis time is filled in by the caller. -/
def analyzeGraph (neo4j : Neo4jClient) (request : GraphAnalysisRequest) : Except Exn Reply :=
  match neo4j.addTransactionToGraph request with
  | .error x =>
      if x.isException then .ok ⟨some ("Graph database error: " ++ x.text), {}⟩ else .error x
  | .ok _ => do
      let cardsOnDevice ← neo4j.checkDeviceSharing request.deviceId
      let devicesOnIp ← neo4j.checkIpCluster request.ipAddress
      let connectedCards ← neo4j.detectFraudRing request.cardNumber
      let findings := (deviceSharing request cardsOnDevice).toList ++
        (ipCluster request devicesOnIp).toList ++ (fraudRing request connectedCards).toList
      return {
        internal := none
        result := {
          graphScore := min 1 (binary64.total (findings.map Finding.score))
          patterns := findings.map Finding.pattern
          riskFactors := findings.map Finding.riskFactor
          connectedEntities := cardsOnDevice.length + devicesOnIp.length
          edgesTraversed := cardsOnDevice.length + devicesOnIp.length
          traversalDepth := 2 } }

/-- The score is in the unit interval, also where the graph could not be reached. -/
theorem graphScore_unit {neo4j : Neo4jClient} {request : GraphAnalysisRequest} {reply : Reply}
    (h : analyzeGraph neo4j request = .ok reply) :
    0 ≤ reply.result.graphScore ∧ reply.result.graphScore ≤ 1 := by
  unfold analyzeGraph at h
  split at h
  · split at h
    · cases h
      exact ⟨le_rfl, zero_le_one⟩
    · cases h
  · obtain ⟨cards, -, h⟩ := bind_eq_ok.mp h
    obtain ⟨devices, -, h⟩ := bind_eq_ok.mp h
    obtain ⟨connected, -, h⟩ := bind_eq_ok.mp h
    cases h
    refine ⟨le_min zero_le_one (Rounding.total_nonneg ?_), min_le_left _ _⟩
    intro x hx
    obtain ⟨finding, hmem, rfl⟩ := List.mem_map.mp hx
    rw [List.mem_append, List.mem_append] at hmem
    rcases hmem with (hdevice | hip) | hring
    · exact score_nonneg (Or.inl (Option.mem_toList.mp hdevice))
    · exact score_nonneg (Or.inr (Or.inl (Option.mem_toList.mp hip)))
    · exact score_nonneg (Or.inr (Or.inr (Option.mem_toList.mp hring)))

end FraudDetection.Graph
