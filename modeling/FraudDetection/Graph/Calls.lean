import FraudDetection.Graph.Neo4j

/-!
# Calls of `AnalyzeGraph` on one graph

The calls of a servicer follow each other on one database. A call succeeds if none of its queries
fails; one that fails may have added its transaction or not.
-/

namespace FraudDetection.Graph

open Python Store Floats

/-! ## One call -/

/-- How the driver answers the queries of a call. -/
structure Driver where
  added : Except Exn Unit
  /-- the transaction is in the graph -/
  applied : Bool
  deviceSharing : Except Exn Unit
  ipCluster : Except Exn Unit
  fraudRing : Except Exn Unit
  applied_of_added : added = .ok () → applied = true

/-- The driver that answers every query. -/
def Driver.working : Driver where
  added := .ok ()
  applied := true
  deviceSharing := .ok ()
  ipCluster := .ok ()
  fraudRing := .ok ()
  applied_of_added _ := rfl

/-- The graph that the queries of a call see, and that it leaves. -/
def Database.served (g : Database) (driver : Driver) (request : GraphAnalysisRequest) : Database :=
  if driver.applied then g.addTransactionToGraph request else g

/-- The client of the servicer during a call. -/
def Database.client (g : Database) (driver : Driver) (request : GraphAnalysisRequest) :
    Neo4jClient where
  addTransactionToGraph _ := driver.added
  checkDeviceSharing device :=
    driver.deviceSharing.map fun _ => (g.served driver request).checkDeviceSharing device
  checkIpCluster ip :=
    driver.ipCluster.map fun _ => (g.served driver request).checkIpCluster ip
  detectFraudRing card :=
    driver.fraudRing.map fun _ => (g.served driver request).detectFraudRing card

/-- What the three checks find in a graph. -/
def findings (g : Database) (request : GraphAnalysisRequest) : List Finding :=
  (deviceSharing request (g.checkDeviceSharing request.deviceId)).toList ++
    (ipCluster request (g.checkIpCluster request.ipAddress)).toList ++
    (fraudRing request (g.detectFraudRing request.cardNumber)).toList

/-- The types of the patterns of a result. -/
def GraphAnalysisResult.types (result : GraphAnalysisResult) : List String :=
  result.patterns.map GraphPattern.patternType

section Success

variable {g g' : Database} {driver : Driver} {request request' : GraphAnalysisRequest}
  {result : GraphAnalysisResult} {α β : Type}

theorem map_eq_ok {x : Except Exn α} {f : α → β} {b : β} :
    x.map f = .ok b ↔ ∃ a, x = .ok a ∧ f a = b := by
  cases x with
  | ok a => simp [Except.map]
  | error e => simp [Except.map]

theorem served_of_applied (h : driver.applied = true) :
    g.served driver request = g.addTransactionToGraph request :=
  if_pos h

theorem sub_served (g : Database) (driver : Driver) (request : GraphAnalysisRequest) :
    g.Sub (g.served driver request) := by
  unfold Database.served
  split
  · exact Database.Sub.addTransactionToGraph g request
  · exact ⟨fun _ _ h => h, fun _ _ h => h⟩

/-- A call that succeeds has added its transaction and reports what the checks find. -/
theorem analyzeGraph_succeeds
    (h : analyzeGraph (g.client driver request) request = .ok ⟨none, result⟩) :
    driver.applied = true ∧
      result.graphScore = min 1 (binary64.total
        ((findings (g.addTransactionToGraph request) request).map Finding.score)) ∧
      result.patterns = (findings (g.addTransactionToGraph request) request).map Finding.pattern := by
  unfold analyzeGraph at h
  split at h
  · split at h <;> cases h
  · rename_i hadded
    have happlied : driver.applied = true := driver.applied_of_added hadded
    obtain ⟨cards, hcards, h⟩ := bind_eq_ok.mp h
    obtain ⟨devices, hdevices, h⟩ := bind_eq_ok.mp h
    obtain ⟨connected, hconnected, h⟩ := bind_eq_ok.mp h
    obtain ⟨-, -, rfl⟩ := map_eq_ok.mp hcards
    obtain ⟨-, -, rfl⟩ := map_eq_ok.mp hdevices
    obtain ⟨-, -, rfl⟩ := map_eq_ok.mp hconnected
    cases h
    unfold findings
    rw [served_of_applied happlied]
    exact ⟨happlied, rfl, rfl⟩

end Success

/-- A call whose queries are all answered succeeds. -/
theorem analyzeGraph_working (g : Database) (request : GraphAnalysisRequest) :
    ∃ result, analyzeGraph (g.client .working request) request = .ok ⟨none, result⟩ :=
  ⟨_, rfl⟩

/-! ## What the checks report -/

section Checks

variable (request : GraphAnalysisRequest) {entities : List String} {name : String}

theorem score_deviceSharing :
    ((deviceSharing request entities).map Finding.score).getD 0 =
      if 1 < entities.length then binary64.round (4 / 10) else 0 := by
  unfold deviceSharing
  split <;> simp [*]

theorem score_ipCluster :
    ((ipCluster request entities).map Finding.score).getD 0 =
      if 1 < entities.length then binary64.round (3 / 10) else 0 := by
  unfold ipCluster
  split <;> simp [*]

theorem score_fraudRing :
    ((fraudRing request entities).map Finding.score).getD 0 =
      if 0 < entities.length then binary64.round (5 / 10) else 0 := by
  unfold fraudRing
  split <;> simp [*]

theorem type_deviceSharing :
    (∃ f ∈ (deviceSharing request entities).toList, f.pattern.patternType = name) ↔
      name = "DEVICE_SHARING_RING" ∧ 1 < entities.length := by
  unfold deviceSharing
  split <;> simp [*, eq_comm]

theorem type_ipCluster :
    (∃ f ∈ (ipCluster request entities).toList, f.pattern.patternType = name) ↔
      name = "IP_CLUSTER" ∧ 1 < entities.length := by
  unfold ipCluster
  split <;> simp [*, eq_comm]

theorem type_fraudRing :
    (∃ f ∈ (fraudRing request entities).toList, f.pattern.patternType = name) ↔
      name = "SYNTHETIC_IDENTITY_RING" ∧ 0 < entities.length := by
  unfold fraudRing
  split <;> simp [*, eq_comm]

end Checks

/-- A pattern of this type is found for a request. -/
def Found (g : Database) (request : GraphAnalysisRequest) (name : String) : Prop :=
  (name = "DEVICE_SHARING_RING" ∧ 1 < (g.checkDeviceSharing request.deviceId).length) ∨
  (name = "IP_CLUSTER" ∧ 1 < (g.checkIpCluster request.ipAddress).length) ∨
  (name = "SYNTHETIC_IDENTITY_RING" ∧ 0 < (g.detectFraudRing request.cardNumber).length)

section Findings

variable {g g' : Database} {driver : Driver} {request request' : GraphAnalysisRequest}
  {result result' : GraphAnalysisResult} {name : String}

/-- The score before it is capped. -/
theorem total_findings :
    binary64.total ((findings g request).map Finding.score) =
      binary64.plus
        (binary64.plus
          (binary64.plus 0 (if 1 < (g.checkDeviceSharing request.deviceId).length
            then binary64.round (4 / 10) else 0))
          (if 1 < (g.checkIpCluster request.ipAddress).length then binary64.round (3 / 10) else 0))
        (if 0 < (g.detectFraudRing request.cardNumber).length
          then binary64.round (5 / 10) else 0) := by
  unfold findings
  rw [List.map_append, List.map_append, ← Option.toList_map, ← Option.toList_map, ← Option.toList_map,
    Rounding.total_append_toList, Rounding.total_append_toList, score_ipCluster, score_fraudRing,
    ← List.nil_append (Option.toList _), Rounding.total_append_toList, score_deviceSharing]
  rfl

/-- The types that a successful call reports are those that are found. -/
theorem mem_types (h : analyzeGraph (g.client driver request) request = .ok ⟨none, result⟩) :
    name ∈ result.types ↔ Found (g.addTransactionToGraph request) request name := by
  obtain ⟨-, -, hpatterns⟩ := analyzeGraph_succeeds h
  unfold GraphAnalysisResult.types Found findings at *
  rw [hpatterns, ← type_deviceSharing request, ← type_ipCluster request, ← type_fraudRing request]
  simp only [List.map_map, List.mem_map, List.mem_append, or_and_right, exists_or, or_assoc,
    Function.comp_apply]

theorem found_device : Found g request "DEVICE_SHARING_RING" ↔
    1 < (g.checkDeviceSharing request.deviceId).length := by
  simp [Found]

theorem found_ip : Found g request "IP_CLUSTER" ↔
    1 < (g.checkIpCluster request.ipAddress).length := by
  simp [Found]

theorem found_ring : Found g request "SYNTHETIC_IDENTITY_RING" ↔
    0 < (g.detectFraudRing request.cardNumber).length := by
  simp [Found]

/-- The numbers that the thresholds are compared with grow with the graph. -/
theorem lengths_le (hsub : g.Sub g') (hcard : request'.cardNumber = request.cardNumber)
    (hdevice : request'.deviceId = request.deviceId)
    (hip : request'.ipAddress = request.ipAddress) :
    (g.checkDeviceSharing request.deviceId).length ≤
      (g'.checkDeviceSharing request'.deviceId).length ∧
    (g.checkIpCluster request.ipAddress).length ≤
      (g'.checkIpCluster request'.ipAddress).length ∧
    (g.detectFraudRing request.cardNumber).length ≤
      (g'.detectFraudRing request'.cardNumber).length := by
  rw [hcard, hdevice, hip]
  refine ⟨?_, ?_, ?_⟩
  · apply Edges.length_sources_le
    intro card hmem
    exact hsub.hasDevice _ _ hmem
  · apply Edges.length_sources_le
    intro device hmem
    exact hsub.hasIp _ _ hmem
  · refine ((nodup_detectFraudRing g _).subperm ?_).length_le
    intro card hmem
    exact hsub.mem_detectFraudRing hmem

theorem ite_le_ite {p q : Prop} [Decidable p] [Decidable q] {x : ℚ} (hx : 0 ≤ x) (h : p → q) :
    (if p then x else 0) ≤ if q then x else 0 := by
  by_cases hp : p
  · rw [if_pos hp, if_pos (h hp)]
  · rw [if_neg hp]
    split
    · exact hx
    · exact le_rfl

/-- On a larger graph the same entities have at least the same score. -/
theorem total_findings_le (hsub : g.Sub g') (hcard : request'.cardNumber = request.cardNumber)
    (hdevice : request'.deviceId = request.deviceId)
    (hip : request'.ipAddress = request.ipAddress) :
    binary64.total ((findings g request).map Finding.score) ≤
      binary64.total ((findings g' request').map Finding.score) := by
  obtain ⟨hcards, hdevices, hring⟩ := lengths_le hsub hcard hdevice hip
  have hscore : ∀ q : ℚ, 0 ≤ q → 0 ≤ binary64.round q := fun _ => Rounding.round_nonneg
  rw [total_findings, total_findings]
  refine Rounding.plus_mono (Rounding.plus_mono (Rounding.plus_mono le_rfl ?_) ?_) ?_
  · exact ite_le_ite (hscore _ (by norm_num)) fun h => h.trans_le hcards
  · exact ite_le_ite (hscore _ (by norm_num)) fun h => h.trans_le hdevices
  · exact ite_le_ite (hscore _ (by norm_num)) fun h => h.trans_le hring

/-- On a larger graph the same patterns are found for the same entities. -/
theorem Found.mono (h : Found g request name) (hsub : g.Sub g')
    (hcard : request'.cardNumber = request.cardNumber)
    (hdevice : request'.deviceId = request.deviceId)
    (hip : request'.ipAddress = request.ipAddress) : Found g' request' name := by
  obtain ⟨hcards, hdevices, hring⟩ := lengths_le hsub hcard hdevice hip
  rcases h with ⟨hname, h⟩ | ⟨hname, h⟩ | ⟨hname, h⟩
  · exact Or.inl ⟨hname, h.trans_le hcards⟩
  · exact Or.inr (Or.inl ⟨hname, h.trans_le hdevices⟩)
  · exact Or.inr (Or.inr ⟨hname, h.trans_le hring⟩)

end Findings

/-! ## Calls that follow each other -/

/-- A call: how the driver behaves, and the request. -/
abbrev Call := Driver × GraphAnalysisRequest

/-- The requests and what they are answered, on a graph that each call leaves to the next. -/
def serve (g : Database) : List Call → List (GraphAnalysisRequest × Except Exn Reply)
  | [] => []
  | (driver, request) :: calls =>
      (request, analyzeGraph (g.client driver request) request) ::
        serve (g.served driver request) calls

/-- The call was successful, with this result. -/
def Succeeds (answered : GraphAnalysisRequest × Except Exn Reply) (result : GraphAnalysisResult) :
    Prop :=
  answered.2 = .ok ⟨none, result⟩

/-- Two requests with the same card, device and address. -/
structure SameEntities (r s : GraphAnalysisRequest) : Prop where
  card : s.cardNumber = r.cardNumber
  device : s.deviceId = r.deviceId
  ip : s.ipAddress = r.ipAddress

section Serve

variable {calls : List Call} {g : Database} {result : GraphAnalysisResult}

/-- A call finds the graph that was there before the first of them, or a larger one. -/
theorem sub_of_mem_serve {answered : GraphAnalysisRequest × Except Exn Reply}
    (h : answered ∈ serve g calls) :
    ∃ g' driver, g.Sub g' ∧ answered.2 = analyzeGraph (g'.client driver answered.1) answered.1 := by
  induction calls generalizing g with
  | nil => exact absurd h List.not_mem_nil
  | cons call calls ih =>
    obtain ⟨driver, request⟩ := call
    rcases List.mem_cons.mp h with rfl | h
    · exact ⟨g, driver, ⟨fun _ _ hmem => hmem, fun _ _ hmem => hmem⟩, rfl⟩
    · obtain ⟨g', driver', hsub, hanswer⟩ := ih h
      exact ⟨g', driver', (sub_served g driver request).trans hsub, hanswer⟩

/-- Of two successful calls for the same entities the later one has at least the score and the
pattern types of the earlier one, and every score is in the unit interval. -/
theorem risk_never_decreases (g : Database) (calls : List Call) :
    (serve g calls).Pairwise (fun earlier later => SameEntities earlier.1 later.1 →
      ∀ r s, Succeeds earlier r → Succeeds later s →
        r.graphScore ≤ s.graphScore ∧ ∀ name ∈ r.types, name ∈ s.types) ∧
    ∀ answered ∈ serve g calls, ∀ r, Succeeds answered r → 0 ≤ r.graphScore ∧ r.graphScore ≤ 1 := by
  constructor
  · induction calls generalizing g with
    | nil => exact List.Pairwise.nil
    | cons call calls ih =>
      obtain ⟨driver, request⟩ := call
      refine List.Pairwise.cons ?_ (ih _)
      intro later hlater hsame r s hr hs
      obtain ⟨g', driver', hsub, hanswer⟩ := sub_of_mem_serve hlater
      have hlate : analyzeGraph (g'.client driver' later.1) later.1 = .ok ⟨none, s⟩ :=
        hanswer.symm.trans hs
      obtain ⟨happlied, hscore, -⟩ := analyzeGraph_succeeds hr
      obtain ⟨-, hscore', -⟩ := analyzeGraph_succeeds hlate
      rw [served_of_applied happlied] at hsub
      -- what the later call sees contains what the earlier one saw
      have hgrown := hsub.trans (Database.Sub.addTransactionToGraph g' later.1)
      constructor
      · rw [hscore, hscore']
        exact min_le_min le_rfl (total_findings_le hgrown hsame.card hsame.device hsame.ip)
      · intro name hname
        exact (mem_types hlate).mpr
          (((mem_types hr).mp hname).mono hgrown hsame.card hsame.device hsame.ip)
  · intro answered hmem r hr
    obtain ⟨g', driver, -, hanswer⟩ := sub_of_mem_serve hmem
    exact graphScore_unit (hanswer.symm.trans hr)

end Serve

-- another card uses the device between two calls for the first one
example :
    (serve .empty [(.working, ⟨"t1", "c1", "m", "d", "i", 10⟩),
        (.working, ⟨"t2", "c2", "m", "d", "i", 10⟩),
        (.working, ⟨"t3", "c1", "m", "d", "i", 10⟩)]).map (fun answered =>
      answered.2.toOption.map fun reply => (reply.result.graphScore, reply.result.types)) =
      [some (0, []), some (binary64.round (4 / 10), ["DEVICE_SHARING_RING"]),
        some (binary64.round (4 / 10), ["DEVICE_SHARING_RING"])] := by
  decide +kernel

end FraudDetection.Graph
