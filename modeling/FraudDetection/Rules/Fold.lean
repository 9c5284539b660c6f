import FraudDetection.Rules.Footprint

/-!
# Rule evaluation as a fold

What the rules come to, one outcome for each, decides the result of `evaluate_transaction`: the
matches up to the first of severity `CRITICAL` are reported, and no later rule is evaluated.

`Follows` ties a list of rules with outcomes to the evaluations of a run. `walk_of_follows` reads
the matches off it, and `run_evaluateRules_reached` says that the loop does the same on the rules it
gets to as on all of them.
-/

namespace FraudDetection.Rules

open Async Python Store Floats

/-! ## Outcomes -/

/-- What the evaluation of a rule comes to. -/
inductive Outcome where
  | isMatch (description : String)
  | noMatch
  | raises
  deriving DecidableEq, Repr

/-- The outcome of an evaluation, by its result. -/
def outcomeOf : Except Exn (Bool × String) → Outcome
  | .ok (true, description) => .isMatch description
  | .ok (false, _) => .noMatch
  | .error _ => .raises

/-- The description of a match. -/
def Outcome.description : Outcome → Option String
  | isMatch description => some description
  | _ => none

theorem matched_eq_description (r : Except Exn (Bool × String)) :
    matched r = (outcomeOf r).description := by
  cases r with
  | error x => rfl
  | ok outcome =>
      obtain ⟨isMatch, description⟩ := outcome
      cases isMatch <;> rfl

/-- A rule with the outcome assigned to it. -/
abbrev Assigned := Rule × Outcome

/-- A match of severity `CRITICAL`, which ends the evaluation. -/
def Assigned.ends (a : Assigned) : Bool := a.1.severity = "CRITICAL" && a.2.description.isSome

/-- The rules up to and including the first match of severity `CRITICAL`. -/
def reached (assigned : List Assigned) : List Assigned := upTo Assigned.ends assigned

/-- The matching ones among them, with their descriptions. -/
def reportedMatches (assigned : List Assigned) : List (Rule × String) :=
  (reached assigned).filterMap fun a => a.2.description.map fun description => (a.1, description)

/-- The rules whose evaluation does not raise. -/
def sound (assigned : List Assigned) : List Assigned := assigned.filter fun a => a.2 ≠ .raises

section Assigned

variable {a : Assigned} {assigned : List Assigned}

theorem reportedMatches_cons_of_none (h : a.2.description = none) :
    reportedMatches (a :: assigned) = reportedMatches assigned := by
  have hgoes : a.ends = false := by simp [Assigned.ends, h]
  rw [reportedMatches, reached, upTo, hgoes]
  simp only [Bool.false_eq_true, if_false]
  rw [List.filterMap_cons_none (by rw [h]; rfl), reportedMatches, reached]

theorem reportedMatches_cons_of_critical {description : String} (h : a.2.description = some description)
    (hcritical : a.1.severity = "CRITICAL") :
    reportedMatches (a :: assigned) = [(a.1, description)] := by
  have hends : a.ends = true := by simp [Assigned.ends, h, hcritical]
  rw [reportedMatches, reached, upTo, hends]
  simp only [if_true]
  rw [List.filterMap_cons_some (by rw [h]; rfl)]
  rfl

theorem reportedMatches_cons_of_match {description : String} (h : a.2.description = some description)
    (hcritical : a.1.severity ≠ "CRITICAL") :
    reportedMatches (a :: assigned) = (a.1, description) :: reportedMatches assigned := by
  have hgoes : a.ends = false := by simp [Assigned.ends, hcritical]
  rw [reportedMatches, reached, upTo, hgoes]
  simp only [Bool.false_eq_true, if_false]
  rw [List.filterMap_cons_some (by rw [h]; rfl), reportedMatches, reached]

/-- Rules whose evaluation raises contribute nothing. -/
theorem reportedMatches_sound (assigned : List Assigned) :
    reportedMatches (sound assigned) = reportedMatches assigned := by
  induction assigned with
  | nil => rfl
  | cons a assigned ih =>
      by_cases hraises : a.2 = .raises
      · have hdrop : sound (a :: assigned) = sound assigned := by
          rw [sound, List.filter_cons_of_neg (by simpa using hraises), sound]
        rw [hdrop, ih, reportedMatches_cons_of_none (by rw [hraises]; rfl)]
      · have hkeep : sound (a :: assigned) = a :: sound assigned := by
          rw [sound, List.filter_cons_of_pos (by simpa using hraises), sound]
        rw [hkeep]
        cases hdescription : a.2.description with
        | none =>
            rw [reportedMatches_cons_of_none hdescription,
              reportedMatches_cons_of_none hdescription, ih]
        | some description =>
            by_cases hcritical : a.1.severity = "CRITICAL"
            · rw [reportedMatches_cons_of_critical hdescription hcritical,
                reportedMatches_cons_of_critical hdescription hcritical]
            · rw [reportedMatches_cons_of_match hdescription hcritical,
                reportedMatches_cons_of_match hdescription hcritical, ih]

end Assigned

/-! ## Runs with given outcomes -/

section Follows

variable {σ : Type} (py : PyLib) (f : (op : Op) → σ → Except Exn (Ret op) × σ)
  (ctx : TransactionContext)

/-- From the state `s` the rules that are evaluated come to the outcomes assigned to them. -/
def Follows : List Assigned → σ → Prop
  | [], _ => True
  | a :: assigned, s =>
      outcomeOf (evaluation py f ctx a.1 s).result = a.2 ∧
        (a.ends = false → Follows assigned (evaluation py f ctx a.1 s).final)

variable {py f ctx}

/-- The loop reports the matches among the rules it gets to. -/
theorem walk_of_follows {assigned : List Assigned} {s : σ} (h : Follows py f ctx assigned s) :
    (walk py f ctx (assigned.map Prod.fst) s).1 = reportedMatches assigned := by
  induction assigned generalizing s with
  | nil => rfl
  | cons a assigned ih =>
      obtain ⟨houtcome, hrest⟩ := h
      have hmatched : matched (evaluation py f ctx a.1 s).result = a.2.description := by
        rw [matched_eq_description, houtcome]
      rw [List.map_cons]
      cases hdescription : a.2.description with
      | none =>
          have hgoes : a.ends = false := by simp [Assigned.ends, hdescription]
          rw [walk_of_none (hmatched.trans hdescription), reportedMatches_cons_of_none hdescription]
          exact ih (hrest hgoes)
      | some description =>
          by_cases hcritical : a.1.severity = "CRITICAL"
          · rw [walk_of_critical (hmatched.trans hdescription) hcritical,
              reportedMatches_cons_of_critical hdescription hcritical]
          · have hgoes : a.ends = false := by simp [Assigned.ends, hcritical]
            rw [walk_of_match (hmatched.trans hdescription) hcritical,
              reportedMatches_cons_of_match hdescription hcritical, ih (hrest hgoes)]

/-- One iteration up to the outcome: the evaluation, with a caught exception as no match. -/
def attempt (py : PyLib) (ctx : TransactionContext) (rule : Rule) : Coroutine (Bool × String) :=
  Prog.tryExcept (evaluateRule py rule.conditions ctx) Exn.isException fun _ => pure (false, "")

/-- An iteration that goes through leaves what the evaluation leaves, and finds the same match. -/
theorem run_attempt_ok {rule : Rule} {s : σ} {outcome : Bool × String}
    (h : ((attempt py ctx rule).run f s).result = .ok outcome) :
    ((attempt py ctx rule).run f s).final = (evaluation py f ctx rule s).final ∧
      outcome.1 = (outcomeOf (evaluation py f ctx rule s).result).description.isSome := by
  unfold attempt at h ⊢
  rw [Prog.run_tryExcept] at h ⊢
  rw [← evaluation] at h ⊢
  cases hx : (evaluation py f ctx rule s).result with
  | ok r =>
      rw [hx] at h
      cases h
      obtain ⟨isMatch, description⟩ := outcome
      refine ⟨rfl, ?_⟩
      cases isMatch <;> rfl
  | error x =>
      rw [hx] at h
      by_cases hcaught : x.isException = true
      · simp only [hcaught, if_true] at h ⊢
        cases h
        exact ⟨rfl, rfl⟩
      · simp only [hcaught, Bool.false_eq_true, if_false] at h
        cases h

/-- On the rules it gets to the loop does what it does on all of them. -/
theorem run_evaluateRules_reached {fl : Rounding} {assigned : List Assigned} {s : σ}
    (h : Follows py f ctx assigned s) (acc : Progress) :
    (evaluateRules fl py ctx (assigned.map Prod.fst) acc).run f s
      = (evaluateRules fl py ctx ((reached assigned).map Prod.fst) acc).run f s := by
  induction assigned generalizing s acc with
  | nil => rfl
  | cons a assigned ih =>
      obtain ⟨houtcome, hrest⟩ := h
      have hhead : ∃ rest, (reached (a :: assigned)).map Prod.fst = a.1 :: rest ∧
          (a.ends = false → rest = (reached assigned).map Prod.fst) := by
        rw [reached, upTo]
        split
        · next hends => exact ⟨[], rfl, fun hgoes => by rw [hends] at hgoes; cases hgoes⟩
        · exact ⟨_, rfl, fun _ => rfl⟩
      obtain ⟨rest, hreached, hgo⟩ := hhead
      rw [List.map_cons, hreached, evaluateRules, evaluateRules, ← attempt, Prog.run_bind,
        Prog.run_bind]
      cases hx : ((attempt py ctx a.1).run f s).result with
      | error x => rfl
      | ok outcome =>
          obtain ⟨hfinal, hmatched⟩ := run_attempt_ok hx
          rw [houtcome] at hmatched
          simp only [hfinal]
          by_cases hmatch : outcome.1 = true
          · by_cases hcritical : a.1.severity = "CRITICAL"
            · simp only [hmatch, hcritical, if_true]
            · have hgoes : a.ends = false := by simp [Assigned.ends, hcritical]
              simp only [hmatch, hcritical, if_true, if_false]
              rw [hgo hgoes, ih (hrest hgoes)]
          · have hgoes : a.ends = false := by
              rw [Bool.not_eq_true, hmatched] at hmatch
              rw [Assigned.ends, hmatch, Bool.and_false]
            simp only [hmatch, Bool.false_eq_true, if_false]
            rw [hgo hgoes, ih (hrest hgoes)]

end Follows

/-! ## Outcomes on Redis -/

section Independent

variable (lib : RuleLib) (now : ℚ) (ctx : TransactionContext)

/-- The outcome of a rule in a store. -/
def outcomeIn (ks : RedisStore) (rule : Rule) : Outcome :=
  outcomeOf (evaluation lib.toPyLib (answer lib now) ctx rule ks).result

variable {lib now ctx}

/-- If no two rules share a counter, the store before the evaluation assigns the outcomes. -/
theorem follows_of_independent {rules : List Rule} (h : Independent lib ctx rules)
    {ks ks' : RedisStore}
    (hks : ∀ r ∈ rules, ∀ k, r.footprint lib.toPyLib ctx = some k → ks' k = ks k) :
    Follows lib.toPyLib (answer lib now) ctx
      (rules.map fun r => (r, outcomeIn lib now ctx ks r)) ks' := by
  induction rules generalizing ks' with
  | nil => trivial
  | cons rule rules ih =>
      obtain ⟨hrule, hrules⟩ := List.pairwise_cons.mp h
      refine ⟨?_, ?_⟩
      · exact congrArg outcomeOf
          (run_congr (asks_evaluateRule rule) (hks rule List.mem_cons_self)).1
      · intro _
        apply ih hrules
        intro r hr k hk
        have hframe : afterRule lib now ctx ks' rule k = ks' k :=
          afterRule_frame fun hrule' => hrule r hr k hrule' hk
        exact hframe.trans (hks r (List.mem_cons_of_mem _ hr) k hk)

/-- So without the rules that raise, the others come to the same outcomes. -/
theorem follows_sound_of_independent {rules : List Rule} (h : Independent lib ctx rules)
    (ks : RedisStore) :
    Follows lib.toPyLib (answer lib now) ctx
      (sound (rules.map fun r => (r, outcomeIn lib now ctx ks r))) ks := by
  rw [sound, List.filter_map]
  exact follows_of_independent (List.Pairwise.filter _ h) fun _ _ _ _ => rfl

end Independent

/-! ## The result -/

section Result

variable {σ : Type} (fl : Rounding) (py : PyLib) (f : (op : Op) → σ → Except Exn (Ret op) × σ)
  (ctx : TransactionContext)

/-- The evaluation of a transaction by the rules of a list with outcomes. -/
def runOn (assigned : List Assigned) (s : σ) : Execution σ Ret Exn RuleEvalResult :=
  (evaluateTransaction fl py (assigned.map Prod.fst) ctx).run f s

/-- What the matches contribute to the score. -/
def contributed (assigned : List Assigned) : List Double :=
  (reportedMatches assigned).map fun m => m.1.scoreContribution

/-- The part of a result that the outcomes decide. -/
structure FoldOf (assigned : List Assigned) (result : RuleEvalResult) : Prop where
  triggeredRules : result.triggeredRules = (reportedMatches assigned).map fun m => m.1.toMatch m.2
  rulesMatched : result.rulesMatched = result.triggeredRules.length
  ruleScore : result.ruleScore = (fl.sum (contributed assigned)).min 1
  ruleScore_exact : fl = .exact → .nan ∉ contributed assigned →
    result.ruleScore = .num (min 1 ((contributed assigned).map Double.value).sum)

variable {fl py f ctx}

theorem foldOf_of_follows (hf : ∀ op s x, (f op s).1 = .error x → x.isException = true)
    {assigned : List Assigned} {s : σ} (h : Follows py f ctx assigned s) :
    ∃ result, (runOn fl py f ctx assigned s).result = .ok result ∧ FoldOf fl assigned result := by
  have hresult : (runOn fl py f ctx assigned s).result = _ :=
    (leads_evaluateTransaction hf (assigned.map Prod.fst) s).1
  rw [walk_of_follows h] at hresult
  refine ⟨_, hresult, ⟨rfl, ?_, rfl, ?_⟩⟩
  · simp [resultOf]
  · rintro rfl hnum
    show (Rounding.exact.sum (contributed assigned)).min 1 = _
    rw [Rounding.sum_of_num hnum, Rounding.total_exact, Double.one_def, Double.min_num, min_comm]

theorem runOn_reached {assigned : List Assigned} {s : σ} (h : Follows py f ctx assigned s) :
    (runOn fl py f ctx assigned s).steps = (runOn fl py f ctx (reached assigned) s).steps ∧
      (runOn fl py f ctx assigned s).final = (runOn fl py f ctx (reached assigned) s).final := by
  unfold runOn evaluateTransaction
  rw [Prog.run_bind, Prog.run_bind, run_evaluateRules_reached h]
  cases ((evaluateRules fl py ctx ((reached assigned).map Prod.fst) ⟨[], 0, 0⟩).run f s).result with
  | error x => exact ⟨rfl, rfl⟩
  | ok acc => exact ⟨rfl, rfl⟩

end Result

/-- For every list of rules and every assignment of outcomes to them: a run in which they come to
these outcomes reports the matches up to the first of severity `CRITICAL` and sends the commands of
the rules up to there; and without the rules that raise, where the others come to the same outcomes,
it reports the same. -/
theorem evaluateTransaction_fold {σ : Type} (fl : Rounding) (py : PyLib)
    (f : (op : Op) → σ → Except Exn (Ret op) × σ)
    (hf : ∀ op s x, (f op s).1 = .error x → x.isException = true) (ctx : TransactionContext)
    (assigned : List Assigned) (s : σ) (h : Follows py f ctx assigned s) :
    ∃ result, (runOn fl py f ctx assigned s).result = .ok result ∧ FoldOf fl assigned result ∧
      (runOn fl py f ctx assigned s).steps = (runOn fl py f ctx (reached assigned) s).steps ∧
      (runOn fl py f ctx assigned s).final = (runOn fl py f ctx (reached assigned) s).final ∧
      ∀ s', Follows py f ctx (sound assigned) s' →
        ∃ result', (runOn fl py f ctx (sound assigned) s').result = .ok result' ∧
          result'.triggeredRules = result.triggeredRules ∧
          result'.rulesMatched = result.rulesMatched ∧
          result'.ruleScore = result.ruleScore := by
  obtain ⟨result, hresult, hfold⟩ := @foldOf_of_follows σ fl py f ctx hf _ _ h
  refine ⟨result, hresult, hfold, (runOn_reached h).1, (runOn_reached h).2, ?_⟩
  intro s' h'
  obtain ⟨result', hresult', hfold'⟩ := @foldOf_of_follows σ fl py f ctx hf _ _ h'
  have htriggered : result'.triggeredRules = result.triggeredRules := by
    rw [hfold'.triggeredRules, hfold.triggeredRules, reportedMatches_sound]
  refine ⟨result', hresult', htriggered, ?_, ?_⟩
  · rw [hfold'.rulesMatched, hfold.rulesMatched, htriggered]
  · rw [hfold'.ruleScore, hfold.ruleScore, contributed, contributed, reportedMatches_sound]

/-- A rule whose conditions are missing: its evaluation raises. -/
def withoutConditions : Rule where
  id := "9"
  ruleName := "WITHOUT_CONDITIONS"
  category := "velocity"
  severity := "CRITICAL"
  scoreContribution := .num (binary64.round (5 / 10))
  conditions := .null

/-- What the rules come to for the sixth payment of $20,000 with a card on a day. -/
def sixthPayment : List Assigned :=
  [(withoutConditions, .raises), (highAmountTxn, .isMatch "amount > 10000"),
    (highVelocity24h,
      .isMatch "Velocity exceeded limit 5 within 86400s for card_number"),
    (highAmountTxn, .isMatch "amount > 10000")]

/-- Two rules are reported: the one that raises is skipped, and the last one is not evaluated. -/
theorem evaluateTransaction_fold_sixthPayment :
    ∃ result, (runOn .exact compactRules.toPyLib (answer compactRules 0) (.payment "c-1" 20000) sixthPayment
        fun key => if key = "velocity:card_number:c-1" then some ⟨.int 5, some 86400⟩ else none).result
          = .ok result ∧
      result.triggeredRules.map RuleMatch.ruleName = ["HIGH_AMOUNT_TXN", "HIGH_VELOCITY_24H"] ∧
      result.rulesMatched = 2 := by
  obtain ⟨result, hresult, hfold, -⟩ := evaluateTransaction_fold .exact compactRules.toPyLib
    (answer compactRules 0) answer_exception (.payment "c-1" 20000) sixthPayment
    (fun key => if key = "velocity:card_number:c-1" then some ⟨.int 5, some 86400⟩ else none)
    ⟨by decide +kernel, fun _ => ⟨by decide +kernel, fun _ => ⟨by decide +kernel, fun hends =>
      absurd hends (by decide)⟩⟩⟩
  refine ⟨result, hresult, ?_, ?_⟩
  · rw [hfold.triggeredRules]
    rfl
  · rw [hfold.rulesMatched, hfold.triggeredRules]
    rfl

end FraudDetection.Rules
