import FraudDetection.Orchestrator.Isolation

/-!
# Failing engines

A client whose call fails reports the score of a harmless transaction. The decision then comes from
the remaining engines alone, and is milder than that of all of them as soon as a threshold lies
between the two weighted sums. When every call fails the transaction is approved.

`scoreOf_answering` gives the score of each client in a world where some engines fail. With scores
in range the aggregate is the plain weighted sum of floats, and `makeDecision_le_iff` compares two
decisions by the thresholds between their scores.
-/

namespace FraudDetection.Orchestrator

open Python Floats

/-! ## Worlds with failing engines -/

/-- The world in which the engines in `S` fail, each with its exception, and the others return their
score. -/
def World.answering (w : World) (score : Engine → ℚ) (S : Engine → Bool)
    (failure : Engine → {x : Exn // x.isException = true}) : World where
  engines := fun request =>
    if S request.engine then .error (failure request.engine).1 else .ok (.num (score request.engine))
  redis := w.redis
  engines_exception := by
    intro r x h
    by_cases hS : S r.engine = true
    · rw [if_pos hS] at h
      cases h
      exact (failure r.engine).2
    · rw [if_neg hS] at h
      cases h
  redis_exception := w.redis_exception

/-- The call of an engine for a payload fails: the engine does, or no request can be built. -/
def fails (pb : Protobuf) (S : Engine → Bool) (payload : Json) (engine : Engine) : Bool :=
  S engine ||
    match requestFor engine payload >>= pb.construct with
    | .ok _ => false
    | .error _ => true

/-- The score of an engine, if it is heard. -/
def heardOf (pb : Protobuf) (S : Engine → Bool) (payload : Json) (score : Engine → ℚ)
    (engine : Engine) : ℚ :=
  if fails pb S payload engine then 0 else score engine

/-- The weighted sum of three scores, as floats add and multiply. -/
def weighted (score : Engine → ℚ) : ℚ :=
  binary64.plus
    (binary64.plus (binary64.times (binary64.round (4 / 10)) (score .ruleEngine))
      (binary64.times (binary64.round (4 / 10)) (score .mlScoring)))
    (binary64.times (binary64.round (2 / 10)) (score .graphAnalysis))

/-- The weighted sum of the scores of the engines that are heard. -/
def heard (pb : Protobuf) (S : Engine → Bool) (payload : Json) (score : Engine → ℚ) : ℚ :=
  weighted (heardOf pb S payload score)

section Scores

variable {pb : Protobuf} {w : World} {score : Engine → ℚ} {S : Engine → Bool}
  {failure : Engine → {x : Exn // x.isException = true}}

/-- The score a client returns. -/
theorem scoreOf_answering (engine : Engine) (fs : List (String × Json)) :
    scoreOf pb (w.answering score S failure) engine (.dict fs)
      = .num (heardOf pb S (.dict fs) score engine) := by
  obtain ⟨request, hrequest, hengine⟩ := requestFor_dict engine fs
  have hcall : callEngine pb (w.answering score S failure) engine (.dict fs)
      = pb.construct request >>= fun _ => (w.answering score S failure).engines request := by
    rw [callEngine, hrequest]
    rfl
  have hconstruct : requestFor engine (.dict fs) >>= pb.construct = pb.construct request := by
    rw [hrequest]
    rfl
  rw [scoreOf, heardOf, fails, hcall, hconstruct]
  cases pb.construct request with
  | error x => simp [bind, Except.bind, Double.zero_def]
  | ok u =>
      have hanswer : (w.answering score S failure).engines request
          = if S engine then .error (failure request.engine).1 else .ok (.num (score engine)) := by
        rw [← hengine]
        rfl
      simp only [bind, Except.bind, hanswer]
      by_cases hS : S engine = true
      · simp [hS, Double.zero_def]
      · simp [hS]

/-- The historical score is always zero, and adds nothing. -/
theorem rawScore_weighted (score : Engine → ℚ) :
    rawScore binary64 ⟨.num (score .ruleEngine), .num (score .mlScoring), .num (score .graphAnalysis), 0⟩
      weights = weighted score := by
  have hnothing : binary64.times (weights.wHistory : ℚ) (0 : Double).value = 0 := by
    rw [Double.value_zero, Rounding.times, mul_zero, Rounding.round_zero]
  unfold rawScore
  rw [hnothing, Rounding.plus, add_zero]
  exact binary64.round_round _

theorem weighted_mono {score score' : Engine → ℚ} (h : ∀ e, score e ≤ score' e) :
    weighted score ≤ weighted score' := by
  have hpos : ∀ q : ℚ, 0 ≤ q → 0 ≤ binary64.round q := fun _ => Rounding.round_nonneg
  unfold weighted
  apply Rounding.plus_mono
  · apply Rounding.plus_mono
    · exact Rounding.times_mono (hpos _ (by norm_num)) (h _)
    · exact Rounding.times_mono (hpos _ (by norm_num)) (h _)
  · exact Rounding.times_mono (hpos _ (by norm_num)) (h _)

theorem weighted_zero : weighted (fun _ => 0) = 0 := by
  simp [weighted, Rounding.plus, Rounding.times]

/-- Scores in range have a weighted sum in range: that of three full scores is 1. -/
theorem weighted_unit {score : Engine → ℚ} (h : ∀ e, 0 ≤ score e ∧ score e ≤ 1) :
    0 ≤ weighted score ∧ weighted score ≤ 1 := by
  constructor
  · rw [← weighted_zero]
    exact weighted_mono fun e => (h e).1
  · calc weighted score ≤ weighted fun _ => 1 := weighted_mono fun e => (h e).2
      _ = 1 := by decide +kernel

theorem heardOf_unit (hscore : ∀ e, 0 ≤ score e ∧ score e ≤ 1) (payload : Json) (e : Engine) :
    0 ≤ heardOf pb S payload score e ∧ heardOf pb S payload score e ≤ 1 := by
  unfold heardOf
  split
  · exact ⟨le_rfl, zero_le_one⟩
  · exact hscore e

theorem scoresOf_answering (fs : List (String × Json)) :
    scoresOf pb (w.answering score S failure) (.dict fs)
      = ⟨.num (heardOf pb S (.dict fs) score .ruleEngine), .num (heardOf pb S (.dict fs) score .mlScoring),
        .num (heardOf pb S (.dict fs) score .graphAnalysis), 0⟩ := by
  simp only [scoresOf, scoreOf_answering]

theorem scoresOf_answering_valid (hscore : ∀ e, 0 ≤ score e ∧ score e ≤ 1)
    (fs : List (String × Json)) :
    (scoresOf pb (w.answering score S failure) (.dict fs)).Valid := by
  rw [scoresOf_valid]
  intro engine
  rw [scoreOf_answering, Double.unit_num]
  exact heardOf_unit hscore _ _

/-- The final score is what is heard. -/
theorem final_answering (hscore : ∀ e, 0 ≤ score e ∧ score e ≤ 1) (fs : List (String × Json)) :
    (scoresOf pb (w.answering score S failure) (.dict fs)).final = heard pb S (.dict fs) score := by
  obtain ⟨hlow, hhigh⟩ := weighted_unit (@heardOf_unit pb score S hscore (.dict fs))
  rw [Scores.final, scoresOf_answering, rawScore_weighted, heard, min_eq_right hhigh,
    max_eq_right hlow]

/-- The engines that remain weigh no more than all of them. -/
theorem heard_le (hscore : ∀ e, 0 ≤ score e ∧ score e ≤ 1) (payload : Json) :
    heard pb S payload score ≤ heard pb (fun _ => false) payload score := by
  apply weighted_mono
  intro e
  unfold heardOf
  by_cases hfails : fails pb S payload e = true
  · rw [if_pos hfails]
    split
    · exact le_rfl
    · exact (hscore e).1
  · -- an engine that is heard is also heard when no engine fails
    have hheard : ¬ fails pb (fun _ => false) payload e = true := by
      intro h
      apply hfails
      unfold fails at h ⊢
      rw [Bool.false_or] at h
      rw [h, Bool.or_true]
    rw [if_neg hfails, if_neg hheard]

/-- With no engine left nothing is heard. -/
theorem heard_of_all_fail {payload : Json} (h : ∀ e, fails pb S payload e = true) :
    heard pb S payload score = 0 := by
  have hnone : heardOf pb S payload score = fun _ => 0 := funext fun e => if_pos (h e)
  rw [heard, hnone, weighted_zero]

end Scores

/-! ## Decisions -/

/-- The thresholds of the loop. -/
def thresholds : List ℚ := [3 / 10, 6 / 10, 85 / 100].map binary64.round

/-- The default thresholds are in order, so a decision counts those below the score. -/
theorem severity_default (x : ℚ) : (makeDecision x .default).severity
    = (if binary64.round (3 / 10) < x then 1 else 0) + (if binary64.round (6 / 10) < x then 1 else 0)
      + (if binary64.round (85 / 100) < x then 1 else 0) := by
  have hreview : binary64.round (3 / 10) ≤ binary64.round (6 / 10) := binary64.mono (by norm_num)
  have hhigh : binary64.round (6 / 10) ≤ binary64.round (85 / 100) := binary64.mono (by norm_num)
  unfold makeDecision
  show FraudDecision.severity (if x ≤ binary64.round (3 / 10) then _ else
    if x ≤ binary64.round (6 / 10) then _ else if x ≤ binary64.round (85 / 100) then _ else _) = _
  by_cases h₁ : x ≤ binary64.round (3 / 10)
  · have h₂ : x ≤ binary64.round (6 / 10) := h₁.trans hreview
    rw [if_pos h₁, if_neg (not_lt.mpr h₁), if_neg (not_lt.mpr h₂), if_neg (not_lt.mpr (h₂.trans hhigh))]
    rfl
  · rw [if_neg h₁, if_pos (not_le.mp h₁)]
    by_cases h₂ : x ≤ binary64.round (6 / 10)
    · rw [if_pos h₂, if_neg (not_lt.mpr h₂), if_neg (not_lt.mpr (h₂.trans hhigh))]
      rfl
    · rw [if_neg h₂, if_pos (not_le.mp h₂)]
      by_cases h₃ : x ≤ binary64.round (85 / 100)
      · rw [if_pos h₃, if_neg (not_lt.mpr h₃)]
        rfl
      · rw [if_neg h₃, if_pos (not_le.mp h₃)]
        rfl

theorem makeDecision_zero : makeDecision 0 .default = .approve := by
  have happrove : (0 : ℚ) ≤ binary64.round (3 / 10) := Rounding.round_nonneg (by norm_num)
  unfold makeDecision
  exact if_pos happrove

/-- Of two scores, the lower one makes as severe a decision exactly when no threshold lies
between. -/
theorem makeDecision_le_iff {x y : ℚ} (h : x ≤ y) :
    makeDecision y .default ≤ makeDecision x .default ↔ ∀ t ∈ thresholds, ¬ (x ≤ t ∧ t < y) := by
  have hone : ∀ t : ℚ, (if t < x then 1 else 0) ≤ (if t < y then 1 else 0) ∧
      (((if t < y then 1 else 0) ≤ if t < x then 1 else 0) ↔ ¬ (x ≤ t ∧ t < y)) := by
    intro t
    by_cases hx : t < x
    · have hy : t < y := lt_of_lt_of_le hx h
      simp [hx, hy]
    · by_cases hy : t < y
      · simp [hx, hy, not_lt.mp hx]
      · simp [hx, hy]
  obtain ⟨hle₁, hiff₁⟩ := hone (binary64.round (3 / 10))
  obtain ⟨hle₂, hiff₂⟩ := hone (binary64.round (6 / 10))
  obtain ⟨hle₃, hiff₃⟩ := hone (binary64.round (85 / 100))
  rw [FraudDecision.le_iff, severity_default, severity_default]
  simp only [thresholds, List.map_cons, List.map_nil, List.forall_mem_cons, List.not_mem_nil,
    false_imp_iff, implies_true, and_true, ← hiff₁, ← hiff₂, ← hiff₃]
  omega

/-! ## What is published -/

/-- The decision published for a payload. -/
theorem published_decision {lib : NumberLib} {pb : Protobuf} {w : World} {score : Engine → ℚ}
    {S : Engine → Bool} {failure : Engine → {x : Exn // x.isException = true}}
    (hscore : ∀ e, 0 ≤ score e ∧ score e ≤ 1) {value : Json} {fs : List (String × Json)}
    (hpayload : payloadOf value = .ok (.dict fs)) (hne : fs ≠ []) :
    ∃ event, published lib pb [⟨value, w.answering score S failure⟩] = [event] ∧
      event.getItem "decision"
        = .ok (.str (makeDecision (heard pb S (.dict fs) score) .default).value) := by
  have hvalid := @scoresOf_answering_valid pb w score S failure hscore fs
  have htruthy : (Json.dict fs).truthy = true := by
    simpa [Json.truthy] using hne
  have heval := @evaluation_ok lib pb _ fs hvalid
  rw [final_answering hscore] at heval
  rw [published_eq, outputs, outcome, hpayload]
  simp only [if_pos htruthy]
  rw [heval]
  exact ⟨_, rfl, by simp [Json.getItem, List.lookup_cons]⟩

/-- The decision published when the calls of the engines in `S` fail is at least as severe as the
one published when they succeed, and no approval when every call fails, exactly when some call
succeeds and no threshold lies between the weighted sum of the remaining scores and that of all of
them. -/
theorem failSecure_iff (lib : NumberLib) (pb : Protobuf) (w : World) (score : Engine → ℚ)
    (hscore : ∀ e, 0 ≤ score e ∧ score e ≤ 1) (S : Engine → Bool)
    (failure : Engine → {x : Exn // x.isException = true}) (value : Json)
    (fs : List (String × Json)) (hpayload : payloadOf value = .ok (.dict fs)) (hne : fs ≠ []) :
    ∃ failing working eventFailing eventWorking,
      published lib pb [⟨value, w.answering score S failure⟩] = [eventFailing] ∧
      eventFailing.getItem "decision" = .ok (.str (FraudDecision.value failing)) ∧
      published lib pb [⟨value, w.answering score (fun _ => false) failure⟩] = [eventWorking] ∧
      eventWorking.getItem "decision" = .ok (.str (FraudDecision.value working)) ∧
      ((working ≤ failing ∧
          ((∀ e, fails pb S (.dict fs) e = true) → failing ≠ .approve)) ↔
        (∃ e, fails pb S (.dict fs) e = false) ∧
        ∀ t ∈ thresholds,
          ¬ (heard pb S (.dict fs) score ≤ t ∧
            t < heard pb (fun _ => false) (.dict fs) score)) := by
  obtain ⟨eventFailing, hfailing, hdecisionF⟩ :=
    @published_decision lib pb w score S failure hscore value fs hpayload hne
  obtain ⟨eventWorking, hworking, hdecisionW⟩ :=
    @published_decision lib pb w score (fun _ => false) failure hscore value fs hpayload hne
  refine ⟨_, _, eventFailing, eventWorking, hfailing, hdecisionF, hworking, hdecisionW, ?_⟩
  rw [makeDecision_le_iff (heard_le hscore _), and_comm]
  refine and_congr_left ?_
  intro _
  by_cases hall : ∀ e, fails pb S (.dict fs) e = true
  · -- nothing is heard: the transaction is approved
    refine iff_of_false ?_ ?_
    · intro hnot
      apply hnot hall
      rw [heard_of_all_fail hall]
      exact makeDecision_zero
    · rintro ⟨e, he⟩
      rw [hall e] at he
      cases he
  · refine iff_of_true (fun h => absurd h hall) ?_
    obtain ⟨e, he⟩ := not_forall.mp hall
    exact ⟨e, by simpa using he⟩

/-! ### A model that fails -/

/-- The exception of a call that times out. -/
def timeout (_ : Engine) : {x : Exn // x.isException = true} :=
  ⟨⟨.other "AioRpcError", "Deadline Exceeded"⟩, rfl⟩

/-- The call of the model times out. -/
def modelFails (engine : Engine) : Bool := engine = .mlScoring

/-- Scores whose weighted sum is 0.3 in exact arithmetic, and exceeds the threshold as floats
add. -/
def borderline : Engine → ℚ
  | .ruleEngine => 0
  | .mlScoring => 1 / 4
  | .graphAnalysis => 1

theorem borderline_unit (e : Engine) : 0 ≤ borderline e ∧ borderline e ≤ 1 := by
  cases e <;> norm_num [borderline]

/-- With the model the transaction is reviewed, and without it it is approved. -/
theorem failSecure_iff_borderline : ∃ failing working eventFailing eventWorking,
    published compactNumbers lenientProtobuf
      [⟨sampleMessage, (steadyWorld 0).answering borderline modelFails timeout⟩] = [eventFailing] ∧
    eventFailing.getItem "decision" = .ok (.str (FraudDecision.value failing)) ∧
    published compactNumbers lenientProtobuf
      [⟨sampleMessage, (steadyWorld 0).answering borderline (fun _ => false) timeout⟩]
      = [eventWorking] ∧
    eventWorking.getItem "decision" = .ok (.str (FraudDecision.value working)) ∧
    ¬ working ≤ failing := by
  obtain ⟨failing, working, eventFailing, eventWorking, hfailing, hdecisionF, hworking, hdecisionW, hiff⟩ :=
    failSecure_iff compactNumbers lenientProtobuf (steadyWorld 0) borderline borderline_unit modelFails
      timeout sampleMessage _ sampleMessage_payload (by simp)
  refine ⟨failing, working, eventFailing, eventWorking, hfailing, hdecisionF, hworking, hdecisionW, ?_⟩
  intro hle
  obtain ⟨-, hnone⟩ := hiff.mp ⟨hle, fun hall => absurd (hall .ruleEngine) (by decide +kernel)⟩
  exact hnone (binary64.round (3 / 10)) (by simp [thresholds]) (by decide +kernel)

/-- With every engine down, a transaction that all of them would block is approved. -/
theorem all_down_approves :
    ¬ ∀ (score : Engine → ℚ) (S : Engine → Bool) (eventFailing eventWorking : Json)
        (failing working : FraudDecision),
      (∀ e, 0 ≤ score e ∧ score e ≤ 1) →
      published compactNumbers lenientProtobuf
        [⟨sampleMessage, (steadyWorld 0).answering score S timeout⟩] = [eventFailing] →
      eventFailing.getItem "decision" = .ok (.str failing.value) →
      published compactNumbers lenientProtobuf
        [⟨sampleMessage, (steadyWorld 0).answering score (fun _ => false) timeout⟩]
        = [eventWorking] →
      eventWorking.getItem "decision" = .ok (.str working.value) →
      working ≤ failing ∧ ((∀ e, S e = true) → failing ≠ .approve) := by
  intro hclaim
  have hscore : ∀ _ : Engine, (0 : ℚ) ≤ 1 ∧ (1 : ℚ) ≤ 1 := fun _ => ⟨zero_le_one, le_rfl⟩
  obtain ⟨eventFailing, hfailing, hdecisionF⟩ :=
    @published_decision compactNumbers lenientProtobuf (steadyWorld 0) (fun _ => 1)
      (fun _ => true) timeout hscore sampleMessage _ sampleMessage_payload (by simp)
  obtain ⟨eventWorking, hworking, hdecisionW⟩ :=
    @published_decision compactNumbers lenientProtobuf (steadyWorld 0) (fun _ => 1)
      (fun _ => false) timeout hscore sampleMessage _ sampleMessage_payload (by simp)
  have hall : ∀ e, fails lenientProtobuf (fun _ => true)
      (.dict [("transaction_id", .str "t-1")]) e = true := fun e => rfl
  rw [heard_of_all_fail hall, makeDecision_zero] at hdecisionF
  have hboth := hclaim (fun _ => 1) (fun _ => true) eventFailing eventWorking .approve _ hscore
    hfailing hdecisionF hworking hdecisionW
  exact hboth.2 (fun _ => rfl) rfl

end FraudDetection.Orchestrator
