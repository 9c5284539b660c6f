import FraudDetection.Rules.Footprint

/-!
# A rule more

A simple condition sends no commands, so the rules after it find what they would have found without
it. It can lower the score all the same: a match of severity `CRITICAL` hides the rules after it.

`walk_append` splits the loop at the place of the new rule. What comes before it is the same in both
catalogues, and what comes after it starts from the same state.
-/

namespace FraudDetection.Rules

open Async Python Store Floats

/-! ## Simple conditions -/

/-- A rule that `_evaluate_rule` treats as a simple condition. -/
def Rule.Simple (rule : Rule) : Prop := rule.condition "type" .null = .str "condition"

section Simple

variable {σ : Type} {py : PyLib} {f : (op : Op) → σ → Except Exn (Ret op) × σ}
  {ctx : TransactionContext} {rule : Rule} {s : σ}

theorem Rule.Simple.evaluateRule (h : rule.Simple) :
    evaluateRule py rule.conditions ctx
      = Prog.lift (evaluateSimpleCondition py rule.conditions ctx) := by
  unfold Rule.Simple Rule.condition at h
  unfold Rules.evaluateRule
  split at h
  · rename_i fs hconditions
    rw [hconditions, Json.get_dict, h, Prog.lift_ok, pure_bind]
    rfl
  · cases h

/-- It matches in every state or in none. -/
theorem Rule.Simple.matched (h : rule.Simple) :
    matched (evaluation py f ctx rule s).result
      = matched (evaluateSimpleCondition py rule.conditions ctx) := by
  rw [evaluation, h.evaluateRule]
  cases evaluateSimpleCondition py rule.conditions ctx <;> rfl

/-- It leaves the state as it is. -/
theorem Rule.Simple.final (h : rule.Simple) : (evaluation py f ctx rule s).final = s := by
  rw [evaluation, h.evaluateRule]
  cases evaluateSimpleCondition py rule.conditions ctx <;> rfl

end Simple

/-! ## The loop over two lists -/

section Append

variable {σ : Type} {py : PyLib} {f : (op : Op) → σ → Except Exn (Ret op) × σ}
  {ctx : TransactionContext}

/-- A loop that has met a match of severity `CRITICAL`. -/
def Ended (triggered : List (Rule × String)) : Prop := ∃ m ∈ triggered, m.1.severity = "CRITICAL"

theorem ended_singleton {rule : Rule} {description : String} (h : rule.severity = "CRITICAL") :
    Ended [(rule, description)] := ⟨_, List.mem_singleton_self _, h⟩

/-- A match of another severity does not end the loop. -/
theorem ended_cons {rule : Rule} {description : String} {triggered : List (Rule × String)}
    (h : rule.severity ≠ "CRITICAL") : Ended ((rule, description) :: triggered) ↔ Ended triggered := by
  unfold Ended
  rw [List.exists_mem_cons_iff, or_iff_right h]

/-- The loop does not get to the second list if it ends in the first one; otherwise it goes on with
the second list in the state that the first one leaves. -/
theorem walk_append (before after : List Rule) (s : σ) :
    let first := walk py f ctx before s
    (Ended first.1 ∧ walk py f ctx (before ++ after) s = first) ∨
      (¬ Ended first.1 ∧
        (walk py f ctx (before ++ after) s).1 = first.1 ++ (walk py f ctx after first.2).1) := by
  induction before generalizing s with
  | nil =>
      right
      refine ⟨?_, rfl⟩
      rintro ⟨m, ⟨⟩, -⟩
  | cons rule before ih =>
      rw [List.cons_append]
      cases hmatch : matched (evaluation py f ctx rule s).result with
      | none =>
          rw [walk_of_none hmatch, walk_of_none hmatch]
          exact ih _
      | some description =>
          by_cases hcritical : rule.severity = "CRITICAL"
          · rw [walk_of_critical hmatch hcritical, walk_of_critical hmatch hcritical]
            exact Or.inl ⟨ended_singleton hcritical, rfl⟩
          · rw [walk_of_match hmatch hcritical, walk_of_match hmatch hcritical]
            dsimp only
            rw [ended_cons hcritical]
            rcases ih (evaluation py f ctx rule s).final with ⟨hended, hsame⟩ | ⟨hgoes, happend⟩
            · left
              rw [hsame]
              exact ⟨hended, rfl⟩
            · right
              rw [happend]
              exact ⟨hgoes, rfl⟩

theorem walk_append_of_ended {before : List Rule} (after : List Rule) (s : σ)
    (h : Ended (walk py f ctx before s).1) :
    walk py f ctx (before ++ after) s = walk py f ctx before s :=
  (walk_append before after s).elim And.right fun hgoes => absurd h hgoes.1

theorem walk_append_of_not_ended {before : List Rule} (after : List Rule) (s : σ)
    (h : ¬ Ended (walk py f ctx before s).1) :
    (walk py f ctx (before ++ after) s).1
      = (walk py f ctx before s).1 ++ (walk py f ctx after (walk py f ctx before s).2).1 :=
  (walk_append before after s).elim (fun hended => absurd hended.1 h) And.right

end Append

/-! ## The score -/

section Score

variable {fl : Rounding}

theorem ended_iff_triggered {rules : List Rule} {triggered : List (Rule × String)} :
    Ended triggered ↔ ∃ m ∈ (resultOf fl rules triggered).triggeredRules, m.severity = "CRITICAL" := by
  simp [Ended, resultOf, Rule.toMatch]

theorem score_triggered (rules : List Rule) (triggered : List (Rule × String)) :
    (resultOf fl rules triggered).triggeredRules.map RuleMatch.score
      = triggered.map fun m => m.1.scoreContribution := by
  rw [resultOf, List.map_map]
  rfl

/-- A further match with a nonnegative contribution makes no lower score. -/
theorem ruleScore_insert_le {rules rules' : List Rule} (before after : List (Rule × String))
    {m : Rule × String} (h : 0 ≤ m.1.scoreContribution) :
    let result := resultOf fl rules (before ++ after)
    let extended := resultOf fl rules' (before ++ m :: after)
    result.ruleScore ≤ extended.ruleScore ∨ result.ruleScore = .nan ∧ extended.ruleScore = .nan := by
  simp only [resultOf, List.map_append, List.map_cons]
  refine (Rounding.sum_insert_le _ _ h).imp (fun hle => Double.min_le_min_right hle 1) ?_
  rintro ⟨hnan, hwith⟩
  exact ⟨by rw [hnan, Double.min_nan], by rw [hwith, Double.min_nan]⟩

/-- A score is at least itself, or `nan`. -/
theorem ruleScore_le_self {rules rules' : List Rule} (triggered : List (Rule × String)) :
    let result := resultOf fl rules triggered
    let extended := resultOf fl rules' triggered
    result.ruleScore ≤ extended.ruleScore ∨ result.ruleScore = .nan ∧ extended.ruleScore = .nan := by
  simp only [resultOf]
  cases (fl.sum (triggered.map fun m => m.1.scoreContribution)).min 1 with
  | nan => exact Or.inr ⟨rfl, rfl⟩
  | num q => exact Or.inl (Double.num_le_num.mpr le_rfl)

/-- Where a further simple condition does not lower the score, however Redis answers the other
rules: everywhere, except that a match of it of severity `CRITICAL` ends the evaluation, which then
reports the rules before it and this one. A score that is `nan` stays so. -/
theorem added_rule_score {σ : Type} (fl : Rounding) (py : PyLib) (f : (op : Op) → σ → Except Exn (Ret op) × σ)
    (hf : ∀ op s x, (f op s).1 = .error x → x.isException = true) (ctx : TransactionContext) (s : σ)
    (before after : List Rule) (rule : Rule) (hsimple : rule.Simple)
    (hscore : 0 ≤ rule.scoreContribution) :
    ∃ first result extended, ((evaluateTransaction fl py before ctx).run f s).result = .ok first ∧
      ((evaluateTransaction fl py (before ++ after) ctx).run f s).result = .ok result ∧
      ((evaluateTransaction fl py (before ++ rule :: after) ctx).run f s).result = .ok extended ∧
      (rule.severity ≠ "CRITICAL" ∨
          matched (evaluateSimpleCondition py rule.conditions ctx) = none ∨
          (∃ m ∈ first.triggeredRules, m.severity = "CRITICAL") →
        result.ruleScore ≤ extended.ruleScore ∨
          result.ruleScore = .nan ∧ extended.ruleScore = .nan) ∧
      ∀ description, rule.severity = "CRITICAL" →
        matched (evaluateSimpleCondition py rule.conditions ctx) = some description →
        (∀ m ∈ first.triggeredRules, m.severity ≠ "CRITICAL") →
        extended.triggeredRules = first.triggeredRules ++ [rule.toMatch description] ∧
          extended.ruleScore
            = (fl.sum (first.triggeredRules.map RuleMatch.score ++ [rule.scoreContribution])).min 1 := by
  have hresult : ∀ rules, ((evaluateTransaction fl py rules ctx).run f s).result
      = .ok (resultOf fl rules (walk py f ctx rules s).1) :=
    fun rules => (leads_evaluateTransaction hf rules s).1
  refine ⟨_, _, _, hresult before, hresult (before ++ after), hresult (before ++ rule :: after),
    ?_, ?_⟩
  · intro hcase
    by_cases hended : Ended (walk py f ctx before s).1
    · rw [walk_append_of_ended _ s hended, walk_append_of_ended _ s hended]
      exact ruleScore_le_self _
    · rw [walk_append_of_not_ended _ s hended, walk_append_of_not_ended _ s hended]
      rw [← ended_iff_triggered, or_iff_left hended] at hcase
      cases hmatch : matched (evaluation py f ctx rule (walk py f ctx before s).2).result with
      | none =>
          rw [walk_of_none hmatch, hsimple.final]
          exact ruleScore_le_self _
      | some description =>
          rw [← hsimple.matched, hmatch, or_iff_left (by simp)] at hcase
          rw [walk_of_match hmatch hcase, hsimple.final]
          exact ruleScore_insert_le _ _ hscore
  · intro description hcritical hmatch hfree
    have hended : ¬ Ended (walk py f ctx before s).1 := by
      rw [ended_iff_triggered]
      rintro ⟨m, hm, hseverity⟩
      exact hfree m hm hseverity
    rw [score_triggered, walk_append_of_not_ended _ s hended,
      walk_of_critical (hsimple.matched.trans hmatch) hcritical]
    refine ⟨?_, ?_⟩
    · simp [resultOf]
    · simp [resultOf]

/-- The rule of `seed_rules.py` on amounts greater than $5,000. -/
def highValueAnomaly : Rule where
  id := "1001"
  ruleName := "High Value Anomaly"
  category := "AMOUNT"
  severity := "HIGH"
  scoreContribution := .num (binary64.round (4 / 10))
  conditions := .dict [("type", .str "condition"), ("field", .str "amount"), ("operator", .str ">"),
    ("value", .float 5000)]

/-- The rule of `seed_rules.py` on amounts greater than $15,000. -/
def extremeValueAnomaly : Rule where
  id := "1002"
  ruleName := "Extreme Value Anomaly"
  category := "AMOUNT"
  severity := "CRITICAL"
  scoreContribution := .num (binary64.round (8 / 10))
  conditions := .dict [("type", .str "condition"), ("field", .str "amount"), ("operator", .str ">"),
    ("value", .float 15000)]

theorem simple_extremeValueAnomaly : extremeValueAnomaly.Simple := by
  simp [Rule.Simple, Rule.condition, extremeValueAnomaly]

theorem added_rule_score_seeded :
    ∃ first result extended,
      ((evaluateTransaction binary64 compactRules.toPyLib [highAmountTxn] (.payment "c-1" 20000)).run
        (answer compactRules 0) fun _ => none).result = .ok first ∧
      ((evaluateTransaction binary64 compactRules.toPyLib ([highAmountTxn] ++ [highValueAnomaly])
        (.payment "c-1" 20000)).run (answer compactRules 0) fun _ => none).result = .ok result ∧
      ((evaluateTransaction binary64 compactRules.toPyLib
        ([highAmountTxn] ++ extremeValueAnomaly :: [highValueAnomaly]) (.payment "c-1" 20000)).run
          (answer compactRules 0) fun _ => none).result = .ok extended ∧
      (extremeValueAnomaly.severity ≠ "CRITICAL" ∨
          matched (evaluateSimpleCondition compactRules.toPyLib extremeValueAnomaly.conditions
            (.payment "c-1" 20000)) = none ∨
          (∃ m ∈ first.triggeredRules, m.severity = "CRITICAL") →
        result.ruleScore ≤ extended.ruleScore ∨
          result.ruleScore = .nan ∧ extended.ruleScore = .nan) ∧
      ∀ description, extremeValueAnomaly.severity = "CRITICAL" →
        matched (evaluateSimpleCondition compactRules.toPyLib extremeValueAnomaly.conditions
          (.payment "c-1" 20000)) = some description →
        (∀ m ∈ first.triggeredRules, m.severity ≠ "CRITICAL") →
        extended.triggeredRules
            = first.triggeredRules ++ [extremeValueAnomaly.toMatch description] ∧
          extended.ruleScore = (binary64.sum (first.triggeredRules.map RuleMatch.score
            ++ [extremeValueAnomaly.scoreContribution])).min 1 :=
  added_rule_score binary64 compactRules.toPyLib (answer compactRules 0) answer_exception
    (.payment "c-1" 20000) (fun _ => none) [highAmountTxn] [highValueAnomaly] extremeValueAnomaly
    simple_extremeValueAnomaly (by decide +kernel)

/-! ### A critical rule in front -/

/-- On a payment of $20,000 the two rules on high amounts come to the full score. The rule on
extreme amounts in front of them matches as well, and what is reported is its own score. -/
theorem added_critical_lowers :
    ¬ ∀ (before after : List Rule) (rule : Rule) (ctx : TransactionContext),
      rule.Simple → 0 ≤ rule.scoreContribution → ∀ result extended,
      (evaluate binary64 compactRules (before ++ after) 0 ctx fun _ => none).result = .ok result →
      (evaluate binary64 compactRules (before ++ rule :: after) 0 ctx fun _ => none).result = .ok extended →
      result.ruleScore ≤ extended.ruleScore := by
  intro hclaim
  have hscores : ((evaluate binary64 compactRules [highAmountTxn, highValueAnomaly] 0
        (.payment "c-1" 20000) fun _ => none).result.toOption.map RuleEvalResult.ruleScore = some 1) ∧
      ((evaluate binary64 compactRules [extremeValueAnomaly, highAmountTxn, highValueAnomaly] 0
        (.payment "c-1" 20000) fun _ => none).result.toOption.map RuleEvalResult.ruleScore
          = some (.num (binary64.round (8 / 10)))) := by
    decide +kernel
  have hresult := (@evaluate_eq binary64 compactRules 0 (.payment "c-1" 20000) (fun _ => none)
    [highAmountTxn, highValueAnomaly]).1
  have hextended := (@evaluate_eq binary64 compactRules 0 (.payment "c-1" 20000) (fun _ => none)
    [extremeValueAnomaly, highAmountTxn, highValueAnomaly]).1
  have hle := hclaim [] [highAmountTxn, highValueAnomaly] extremeValueAnomaly
    (.payment "c-1" 20000) simple_extremeValueAnomaly (by decide +kernel) _ _
    hresult hextended
  rw [hresult, hextended] at hscores
  have hone := Option.some.inj hscores.1
  have height := Option.some.inj hscores.2
  rw [hone, height] at hle
  revert hle
  decide +kernel

end Score

end FraudDetection.Rules
