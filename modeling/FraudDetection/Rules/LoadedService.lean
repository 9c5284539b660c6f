import FraudDetection.Rules.RuleCache

/-!
# Evaluations of a loaded service

Once the rules have been loaded, an evaluation reads them from the cache, and the loop of the
evaluator catches what Redis raises. The database is needed by no evaluation that begins later.

The ghost state of a call says whether it is followed: an evaluation that begins after a load. It is
answered as `Served` says, and returns a result (`wp_evaluation_served`).
-/

namespace FraudDetection.Rules

open Async Python

variable {ι σ : Type}

/-! ## Served calls -/

/-- What an evaluation meets in a service that has loaded its rules: it reads what it asks for, and
Redis raises `Exception`s at most. -/
def Served : Event ServiceRet Exn → Prop
  | ⟨.inl .isCold, r⟩ => r = .ok false
  | ⟨.inl _, r⟩ => ∃ a, r = .ok a
  | ⟨.inr _, r⟩ => ∀ e, r = .error e → e.isException = true

/-- A call that is served, if the ghost state says so, does not query the database. -/
def served : Contract Bool ServiceRet Exn where
  guar q op := q = true → op ≠ .inl .fetchActiveRules
  rely q ev q' := q' = q ∧ (q = true → Served ev)

/-- Nothing stands in the way of a call that is not followed. -/
theorem wp_unserved {α : Type} (p : Prog ServiceRet Exn α) (P : Except Exn α → Bool → Prop)
    (hP : ∀ r, P r false) : p.wp served P false := by
  induction p with
  | pure a => exact hP _
  | raise e => exact hP _
  | call op k ih =>
    refine ⟨by rintro ⟨⟩, ?_⟩
    rintro r q ⟨rfl, -⟩
    exact ih r

/-- The loop catches whatever the evaluation of a rule raises. -/
theorem wp_evaluateRules_served (fl : Floats.Rounding) (py : PyLib) (ctx : TransactionContext) (rules : List Rule)
    (acc : Progress) :
    (evaluateRules fl py ctx rules acc).wp served.right (fun r q => q = true ∧ ∃ acc', r = .ok acc')
      true := by
  induction rules generalizing acc with
  | nil => exact ⟨rfl, acc, rfl⟩
  | cons rule rules ih =>
    rw [evaluateRules, Prog.wp_bind, Prog.wp_tryExcept]
    have hrule := Prog.wp_of_raises (C := served.right) (q := true)
      (raises_evaluateRule py rule.conditions ctx) (fun op _ h => by cases h)
      fun op r q' h => ⟨h.1, h.2 rfl⟩
    refine Prog.wp_mono hrule ?_
    have hnext : ∀ outcome : Bool × String, Prog.wp served.right
        (if outcome.1 then
          if rule.severity = "CRITICAL" then pure (acc.add fl rule outcome.2)
          else evaluateRules fl py ctx rules (acc.add fl rule outcome.2)
        else evaluateRules fl py ctx rules acc)
        (fun r q => q = true ∧ ∃ acc', r = .ok acc') true := by
      intro outcome
      split
      · split
        · exact ⟨rfl, _, rfl⟩
        · exact ih _
      · exact ih _
    rintro (e | outcome) q ⟨rfl, hraised⟩
    · have hcaught : e.isException = true := hraised e rfl
      simp only [hcaught, if_true]
      exact hnext _
    · exact hnext outcome

/-- An operation that is served, and what follows it. -/
theorem wp_ask_served {α : Type} {op : CacheOp} {g : CacheOp.Ret op → Prog ServiceRet Exn α}
    {R : Except Exn α → Bool → Prop} (hop : op ≠ .fetchActiveRules)
    (hok : ∀ a, Served ⟨.inl op, .ok a⟩ → (g a).wp served R true) :
    (ask op >>= g).wp served R true := by
  refine Prog.wp_await_seq ?_ ?_ ?_
  · rintro - h
    exact hop (Sum.inl.inj h)
  · rintro e q ⟨rfl, hserved⟩
    cases op with
    | isCold => cases hserved rfl
    | fetchActiveRules => exact absurd rfl hop
    | _ =>
      obtain ⟨a, ha⟩ := hserved rfl
      cases ha
  · rintro a q ⟨rfl, hserved⟩
    exact hok a (hserved rfl)

/-- An evaluation that is served returns a result. -/
theorem wp_evaluation_served (py : PyLib) (ctx : TransactionContext) :
    (RuleEngineServicer.evaluateRules py ctx).wp served
      (fun r q => q = true → ∃ response, r = .ok response) true := by
  refine wp_ask_served (by simp) ?_
  rintro (startTime : ℚ) -
  refine wp_ask_served (by simp) ?_
  intro isCold hcold
  obtain rfl : isCold = false := Except.ok.inj hcold
  refine wp_ask_served (by simp) ?_
  rintro rules -
  refine Prog.wp_seq (P := fun r q => q = true ∧ ∃ result, r = .ok result) ?_ ?_ ?_
  · rw [Prog.wp_inr]
    refine Prog.wp_seq (wp_evaluateRules_served _ py ctx rules ⟨[], 0, 0⟩) ?_ ?_
    · rintro e q ⟨-, acc, h⟩
      cases h
    · rintro acc q ⟨rfl, -⟩
      exact ⟨rfl, _, rfl⟩
  · rintro e q ⟨-, result, h⟩
    cases h
  · rintro result q ⟨rfl, -⟩
    refine wp_ask_served (by simp) ?_
    intro endTime _ _
    exact ⟨_, rfl⟩

section Loaded

/-- The servicer reads its own variables, Redis raises `Exception`s at most, and the database may
fail. -/
def Steady (_ : Pool ι (RuleService ι σ) ServiceRet Exn Response) :
    Happening ι ServiceOp Exn → Prop
  | .command _ (.inl op) d => op = .fetchActiveRules ∨ d = .answered
  | .command _ (.inr _) d => ∀ e, d = .unanswered e ∨ d = .lost e → e.isException = true
  | _ => True

/-- A call is an evaluation. -/
def ServiceCall.isEvaluation : ServiceCall → Bool
  | .evaluateRules _ => true
  | _ => false

/-- What an operation meets after a load. -/
theorem served_of_steady {contents : ℕ → List RuleRow}
    {answer : (op : Op) → σ → Except Exn (Ret op) × σ}
    (hanswer : ∀ op t e, (answer op t).1 = .error e → e.isException = true)
    {s : Pool ι (RuleService ι σ) ServiceRet Exn Response} {i : ι} {op : ServiceOp}
    {d : Delivery Exn} (hloaded : s.shared.lastReload ≠ none)
    (hop : op ≠ .inl .fetchActiveRules) (hsteady : Steady s (.command i op d)) :
    Served ⟨op, (d.outcome (RuleService.perform contents answer i op s.shared) s.shared).1⟩ := by
  rcases op with op | op
  · rcases hsteady with rfl | rfl
    · exact absurd rfl hop
    · cases op with
      | isCold =>
        show Except.ok (s.shared.cachedRules.isEmpty && s.shared.lastReload.isNone) = .ok false
        cases h : s.shared.lastReload with
        | none => exact absurd h hloaded
        | some ts => rw [Option.isNone_some, Bool.and_false]
      | _ => exact ⟨_, rfl⟩
  · intro e he
    cases d with
    | answered => exact hanswer op s.shared.redis e he
    | unanswered e' =>
      cases he
      exact hsteady e (Or.inl rfl)
    | lost e' =>
      cases he
      exact hsteady e (Or.inr rfl)

/-- A load is never taken back. -/
theorem reloaded_of_command {contents : ℕ → List RuleRow}
    {answer : (op : Op) → σ → Except Exn (Ret op) × σ} {t : RuleService ι σ}
    (hloaded : t.lastReload ≠ none) (i : ι) (op : ServiceOp) (d : Delivery Exn) :
    (d.outcome (RuleService.perform contents answer i op t) t).2.lastReload ≠ none := by
  refine d.outcome_state (P := fun t' : RuleService ι σ => t'.lastReload ≠ none) ?_ hloaded
  by_cases hop : ∃ rules, op = .inl (.install rules)
  · obtain ⟨rules, rfl⟩ := hop
    exact Option.some_ne_none _
  · obtain ⟨-, -, hreload, -⟩ :=
      RuleService.perform_frame contents answer i t fun rules h => hop ⟨rules, h⟩
    rw [hreload]
    exact hloaded

/-- A call starts out as one that is followed, if it is an evaluation. -/
theorem wp_program_served (py : PyLib) (call : ServiceCall) :
    (call.program py).wp served (fun r q => q = true → ∃ response, r = .ok response)
      call.isEvaluation := by
  cases call with
  | evaluateRules ctx => exact wp_evaluation_served py ctx
  | _ => exact wp_unserved _ _ fun r h => by cases h

variable [DecidableEq ι]

/-- An outage of the database or of Redis does not reach the evaluations that begin once the rules
have been loaded: they neither query the database nor raise. -/
theorem loaded_evaluations (py : PyLib) (contents : ℕ → List RuleRow)
    (answer : (op : Op) → σ → Except Exn (Ret op) × σ)
    (hanswer : ∀ op t e, (answer op t).1 = .error e → e.isException = true)
    (calls : ι → ServiceCall) (s₀ s : Pool ι (RuleService ι σ) ServiceRet Exn Response)
    (hloaded : s₀.shared.lastReload ≠ none)
    (hrun : Pool.Run (ruleService py contents answer calls) Steady s₀ s) (i : ι)
    (hevaluation : (calls i).isEvaluation = true) (hlater : s₀.tasks i = none)
    (p : Prog ServiceRet Exn Response) (hp : s.tasks i = some p) :
    (∀ k, p ≠ .call (.inl .fetchActiveRules) k) ∧ ∀ e, p ≠ .raise e := by
  have hmeets : Pool.Meets served (fun r q => q = true → ∃ response, r = .ok response)
      s₀.tasks fun j => (s₀.tasks j).map fun _ => false := by
    intro j
    dsimp only
    cases hj : s₀.tasks j with
    | none => exact Or.inl ⟨rfl, rfl⟩
    | some p => exact Or.inr ⟨p, false, rfl, rfl, wp_unserved p _ fun r h => by cases h⟩
  have hdone : ∀ (qs : ι → Option Bool) j, (∀ q, qs i = some q → q = true) →
      ∀ q, Function.update qs j none i = some q → q = true := by
    intro qs j hqs q hq
    rcases Pool.update_cases hq with ⟨-, hnew⟩ | ⟨-, hold⟩
    · cases hnew
    · exact hqs q hold
  have hinvariant : ∃ qs, Pool.Meets served (fun r q => q = true → ∃ response, r = .ok response)
      s.tasks qs ∧ (∀ q, qs i = some q → q = true) ∧ s.shared.lastReload ≠ none := by
    refine Pool.invariant (fun qs t => (∀ q, qs i = some q → q = true) ∧ t.lastReload ≠ none)
      ?_ ?_ ?_ ?_ ?_ hmeets ⟨?_, hloaded⟩ hrun
    · rintro qs t j ⟨hqs, hreload⟩ -
      refine ⟨_, wp_program_served py (calls j), ?_, hreload⟩
      intro q hq
      rcases Pool.update_cases hq with ⟨rfl, hnew⟩ | ⟨-, hold⟩
      · cases hnew
        exact hevaluation
      · exact hqs q hold
    · rintro qs s j q op d ⟨hqs, hreload⟩ hj hguar hsteady
      refine ⟨q, ⟨rfl, ?_⟩, ?_, reloaded_of_command hreload j op d⟩
      · intro hq
        exact served_of_steady hanswer hreload (hguar hq) hsteady
      · intro q' hq'
        rcases Pool.update_cases hq' with ⟨rfl, hnew⟩ | ⟨-, hold⟩
        · cases hnew
          exact hqs q hj
        · exact hqs q' hold
    · rintro qs t j q r ⟨hqs, hreload⟩ - -
      exact ⟨hdone qs j hqs, hreload⟩
    · rintro qs s j p q ⟨hqs, hreload⟩ - - - -
      exact ⟨hdone qs j hqs, hreload⟩
    · rintro qs t t' ⟨hqs, hreload⟩ ⟨now, version, redis, -, -, rfl⟩
      exact ⟨hqs, hreload⟩
    · intro q hq
      rw [hlater] at hq
      cases hq
  obtain ⟨qs, hmeets, hqs, -⟩ := hinvariant
  obtain ⟨q, hq, hwp⟩ := hmeets.some hp
  obtain rfl := hqs q hq
  refine ⟨?_, ?_⟩
  · rintro k rfl
    exact hwp.1 rfl rfl
  · rintro e rfl
    obtain ⟨response, h⟩ := hwp rfl
    cases h

end Loaded

/-- The service after a load. -/
def afterReload : Pool Bool (RuleService Bool Unit) ServiceRet Exn Response where
  tasks _ := none
  shared := afterCallOf true 2 beforeReload

theorem loaded_evaluations_edited :
    let p := Pool.remaining (editedService.perform false) (editedService.program false)
      (List.replicate 4 .answered) afterReload.shared
    (∃ response, p = .pure response) ∧
      (∀ k, p ≠ .call (.inl .fetchActiveRules) k) ∧ ∀ e, p ≠ .raise e := by
  have hanswer : ∀ op t e, (countsOne op t).1 = .error e → e.isException = true := by
    intro op t e he
    cases op <;> cases he
  have hsteady : Pool.Allows editedService Steady false (editedService.program false)
      (List.replicate 4 .answered) ⟨Function.update afterReload.tasks false
        (some (editedService.program false)), afterReload.shared⟩ :=
    ⟨Or.inr rfl, Or.inr rfl, Or.inr rfl, Or.inr rfl, trivial⟩
  have hrun := Pool.run_started (s := afterReload) (i := false) rfl trivial hsteady
  intro p
  have hp : Function.update afterReload.tasks false (some p) false = some p :=
    Function.update_self ..
  exact ⟨⟨_, rfl⟩, loaded_evaluations _ _ _ hanswer _ _ _ (by intro h; cases h) hrun false rfl rfl
    p hp⟩

end FraudDetection.Rules
