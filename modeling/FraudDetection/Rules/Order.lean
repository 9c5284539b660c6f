import Mathlib.Data.List.Pairwise
import FraudDetection.Rules.Footprint

/-!
# The order of the rules

The catalogue comes from the database without an order. The order matters where a `CRITICAL` rule
matches, since the rules after it are not evaluated. Otherwise rules on different entities can be
evaluated in any order, and it is only the rounding of the score that depends on it.
-/

namespace FraudDetection.Rules

open Async Python Store Floats

section Matches

variable {lib : RuleLib} {now : ℚ} {ctx : TransactionContext} {ks : RedisStore}

/-- The rules that match among the evaluated ones, if none disturbs another. -/
def matchesIn (lib : RuleLib) (now : ℚ) (ctx : TransactionContext) (ks : RedisStore)
    (rules : List Rule) : List (Rule × String) :=
  (evaluatedIn lib now ctx ks rules).filterMap fun r =>
    (matchIn lib now ctx ks r).map fun description => (r, description)

theorem mem_matchesIn {rules : List Rule} {m : Rule × String} :
    m ∈ matchesIn lib now ctx ks rules ↔
      m.1 ∈ evaluatedIn lib now ctx ks rules ∧ matchIn lib now ctx ks m.1 = some m.2 := by
  rw [matchesIn, List.mem_filterMap]
  constructor
  · rintro ⟨r, hr, hm⟩
    obtain ⟨description, hdescription, rfl⟩ := Option.map_eq_some_iff.mp hm
    exact ⟨hr, hdescription⟩
  · rintro ⟨hr, hm⟩
    exact ⟨m.1, hr, by rw [hm]; rfl⟩

/-- A `CRITICAL` rule is among the matches exactly when one matches on its own. -/
theorem critical_mem_matchesIn {rules : List Rule} :
    (∃ m ∈ matchesIn lib now ctx ks rules, m.1.severity = "CRITICAL") ↔
      ∃ r ∈ rules, criticalIn lib now ctx ks r = true := by
  rw [← exists_mem_upTo, ← evaluatedIn]
  constructor
  · rintro ⟨m, hm, hseverity⟩
    obtain ⟨hmem, hmatch⟩ := mem_matchesIn.mp hm
    exact ⟨m.1, hmem, by simp [criticalIn, hmatch, hseverity]⟩
  · rintro ⟨r, hr, hcritical⟩
    simp only [criticalIn, Bool.and_eq_true, decide_eq_true_eq] at hcritical
    obtain ⟨description, hmatch⟩ := Option.isSome_iff_exists.mp hcritical.2
    exact ⟨(r, description), mem_matchesIn.mpr ⟨hr, hmatch⟩, hcritical.1⟩

end Matches

/-! ## Permuted catalogues -/

section Permuted

variable {lib : RuleLib} {now : ℚ} {ctx : TransactionContext} {ks : RedisStore}
  {rules rules' : List Rule}

theorem Independent.perm (h : Independent lib ctx rules) (hperm : rules.Perm rules') :
    Independent lib ctx rules' := by
  refine (hperm.pairwise_iff ?_).mp h
  intro r r' hne k hk hk'
  exact hne k hk' hk

/-- Independent rules leave the same store in any order. -/
theorem foldl_afterRule_perm (h : Independent lib ctx rules) (hperm : rules.Perm rules') :
    rules.foldl (afterRule lib now ctx) ks = rules'.foldl (afterRule lib now ctx) ks := by
  have hsymm : Std.Symm fun r r' : Rule => ∀ k, r.footprint lib.toPyLib ctx = some k →
      r'.footprint lib.toPyLib ctx ≠ some k := ⟨fun r r' hne k hk hk' => hne k hk' hk⟩
  refine hperm.foldl_eq' ?_ ks
  intro r hr r' hr' ks
  by_cases hsame : r = r'
  · rw [hsame]
  · have hdisjoint := List.Pairwise.forall h hr hr' hsame
    exact afterRule_comm hdisjoint

/-- A result in which no rule is `CRITICAL` comes from the whole catalogue. -/
theorem evaluatedIn_eq_self (h : ∀ m ∈ matchesIn lib now ctx ks rules, m.1.severity ≠ "CRITICAL") :
    evaluatedIn lib now ctx ks rules = rules := by
  apply upTo_eq_self
  intro r hr
  by_contra hcritical
  rw [Bool.not_eq_false] at hcritical
  obtain ⟨m, hm, hseverity⟩ := critical_mem_matchesIn.mpr ⟨r, hr, hcritical⟩
  exact h m hm hseverity

theorem exists_critical_resultOf {fl : Rounding} {triggered : List (Rule × String)} :
    (∃ m ∈ (resultOf fl rules triggered).triggeredRules, m.severity = "CRITICAL") ↔
      ∃ m ∈ triggered, m.1.severity = "CRITICAL" := by
  simp [resultOf, Rule.toMatch]

/-- Where the order of the rules does not matter: whether a `CRITICAL` rule is triggered, and, where
none is or the same rules are evaluated in both orders, the triggered rules, the counters, and the
score up to the error of a sum of floats, which two of them have not. -/
theorem order_irrelevant (fl : Rounding) (lib : RuleLib) (now : ℚ) (ctx : TransactionContext)
    (ks : RedisStore) (rules rules' : List Rule) (hperm : rules.Perm rules')
    (hfloats : ∀ r ∈ rules, fl.IsFloat r.scoreContribution.value)
    (hentities : rules.Pairwise fun r r' => ∀ entity,
      r.velocityEntity = some entity → r'.velocityEntity ≠ some entity) :
    ∃ result result', (evaluate fl lib rules now ctx ks).result = .ok result ∧
      (evaluate fl lib rules' now ctx ks).result = .ok result' ∧
      ((∃ m ∈ result.triggeredRules, m.severity = "CRITICAL") ↔
        ∃ m ∈ result'.triggeredRules, m.severity = "CRITICAL") ∧
      ((∀ m ∈ result.triggeredRules, m.severity ≠ "CRITICAL") ∨
          (evaluatedIn lib now ctx ks rules).Perm (evaluatedIn lib now ctx ks rules') →
        fl.Agree (result.triggeredRules.map RuleMatch.score) result.ruleScore result'.ruleScore ∧
          (result.triggeredRules.length ≤ 2 → result.ruleScore = result'.ruleScore) ∧
          result.triggeredRules.Perm result'.triggeredRules ∧
          (evaluate fl lib rules now ctx ks).final = (evaluate fl lib rules' now ctx ks).final) := by
  have hindep : Independent lib ctx rules := independent_of_entities hentities
  have hindep' := hindep.perm hperm
  obtain ⟨hresult, hfinal⟩ := @evaluate_eq fl lib now ctx ks rules
  obtain ⟨hresult', hfinal'⟩ := @evaluate_eq fl lib now ctx ks rules'
  rw [walk_eq hindep] at hresult hfinal
  rw [walk_eq hindep'] at hresult' hfinal'
  rw [hfinal, hfinal']
  rw [← matchesIn] at hresult hresult'
  have hcritical : (∃ m ∈ matchesIn lib now ctx ks rules, m.1.severity = "CRITICAL") ↔
      ∃ m ∈ matchesIn lib now ctx ks rules', m.1.severity = "CRITICAL" := by
    rw [critical_mem_matchesIn, critical_mem_matchesIn]
    exact exists_congr fun r => and_congr_left' hperm.mem_iff
  refine ⟨_, _, hresult, hresult', ?_, ?_⟩
  · rw [exists_critical_resultOf, exists_critical_resultOf]
    exact hcritical
  · intro hcase
    have hevaluated : (evaluatedIn lib now ctx ks rules).Perm (evaluatedIn lib now ctx ks rules') := by
      rcases hcase with hnone | hsame
      · have hfree : ∀ m ∈ matchesIn lib now ctx ks rules, m.1.severity ≠ "CRITICAL" := by
          intro m hm hseverity
          obtain ⟨m', hm', hseverity'⟩ := exists_critical_resultOf.mpr ⟨m, hm, hseverity⟩
          exact hnone m' hm' hseverity'
        have hfree' : ∀ m ∈ matchesIn lib now ctx ks rules', m.1.severity ≠ "CRITICAL" := by
          intro m hm hseverity
          obtain ⟨m', hm', hseverity'⟩ := hcritical.mpr ⟨m, hm, hseverity⟩
          exact hfree m' hm' hseverity'
        rw [evaluatedIn_eq_self hfree, evaluatedIn_eq_self hfree']
        exact hperm
      · exact hsame
    have hmatches : (matchesIn lib now ctx ks rules).Perm (matchesIn lib now ctx ks rules') :=
      hevaluated.filterMap _
    have hscores := hmatches.map fun m => m.1.scoreContribution
    have hsummands : ∀ x ∈ (matchesIn lib now ctx ks rules).map fun m => m.1.scoreContribution,
        fl.IsFloat x.value := by
      intro x hx
      obtain ⟨m, hm, rfl⟩ := List.mem_map.mp hx
      exact hfloats m.1 ((upTo_isPrefix rules).subset (mem_matchesIn.mp hm).1)
    have htriggered : (resultOf fl rules (matchesIn lib now ctx ks rules)).triggeredRules.map
        RuleMatch.score = (matchesIn lib now ctx ks rules).map fun m => m.1.scoreContribution := by
      rw [resultOf, List.map_map]
      rfl
    refine ⟨?_, ?_, hmatches.map _, ?_⟩
    · rw [htriggered]
      exact (Rounding.sum_agree hscores hsummands).min 1
    · intro hlength
      rw [resultOf, List.length_map] at hlength
      have hsum := Rounding.sum_eq_of_perm hscores hsummands (by simpa using hlength)
      exact congrArg (Double.min · 1) hsum
    · have hprefix : Independent lib ctx (evaluatedIn lib now ctx ks rules) :=
        List.Pairwise.sublist (upTo_isPrefix rules).sublist hindep
      exact foldl_afterRule_perm hprefix hevaluated

theorem order_irrelevant_seeded :
    ∃ result result',
      (evaluate binary64 compactRules [highAmountTxn, highVelocity24h] 0 (.payment "c-1" 20000)
        fun _ => none).result = .ok result ∧
      (evaluate binary64 compactRules [highVelocity24h, highAmountTxn] 0 (.payment "c-1" 20000)
        fun _ => none).result = .ok result' ∧
      ((∃ m ∈ result.triggeredRules, m.severity = "CRITICAL") ↔
        ∃ m ∈ result'.triggeredRules, m.severity = "CRITICAL") ∧
      ((∀ m ∈ result.triggeredRules, m.severity ≠ "CRITICAL") ∨
          (evaluatedIn compactRules 0 (.payment "c-1" 20000) (fun _ => none)
            [highAmountTxn, highVelocity24h]).Perm
          (evaluatedIn compactRules 0 (.payment "c-1" 20000) (fun _ => none)
            [highVelocity24h, highAmountTxn]) →
        binary64.Agree (result.triggeredRules.map RuleMatch.score) result.ruleScore result'.ruleScore ∧
          (result.triggeredRules.length ≤ 2 → result.ruleScore = result'.ruleScore) ∧
          result.triggeredRules.Perm result'.triggeredRules ∧
          (evaluate binary64 compactRules [highAmountTxn, highVelocity24h] 0 (.payment "c-1" 20000)
            fun _ => none).final =
          (evaluate binary64 compactRules [highVelocity24h, highAmountTxn] 0 (.payment "c-1" 20000)
            fun _ => none).final) :=
  order_irrelevant binary64 compactRules 0 (.payment "c-1" 20000) (fun _ => none)
    [highAmountTxn, highVelocity24h] [highVelocity24h, highAmountTxn] (List.Perm.swap ..)
    (by simp [highAmountTxn, highVelocity24h, Rounding.isFloat_round])
    (by simp [highAmountTxn, Rule.velocityEntity, List.lookup_cons])

/-! ### A critical rule first -/

/-- The sixth payment of a day with a card: the seeded rules give another score in another order. -/
theorem critical_first_hides :
    let ks : RedisStore := fun key =>
      if key = "velocity:card_number:c-1" then some ⟨.int 5, some 86400⟩ else none
    let score := fun rules : List Rule =>
      (evaluate binary64 compactRules rules 0 (.payment "c-1" 20000) ks).result.toOption.map fun result =>
        (result.ruleScore, result.triggeredRules.map RuleMatch.ruleName)
    [highAmountTxn, highVelocity24h].Perm [highVelocity24h, highAmountTxn] ∧
      score [highAmountTxn, highVelocity24h] = some (1, ["HIGH_AMOUNT_TXN", "HIGH_VELOCITY_24H"]) ∧
      score [highVelocity24h, highAmountTxn] =
        some (.num (binary64.round (9 / 10)), ["HIGH_VELOCITY_24H"]) := by
  refine ⟨List.Perm.swap .., ?_⟩
  decide +kernel

end Permuted

end FraudDetection.Rules
