import FraudDetection.Rules.Evaluator

/-!
# The catalogue of rules

`fetch_active_rules` reads the rules from the table `rules`. The column `score_contribution` is a
`DECIMAL(5,4)` without a check, so contributions can be negative or `NaN`, and the score is capped
on one side only.

`matching` lists the rules that match a transaction, each in the state that the rules before it
leave. The score is the capped sum of their contributions (`ruleScore_eq`).
-/

namespace FraudDetection.Rules

open Async Python Store Floats

/-! ## Rows -/

/-- `DECIMAL(5,4)`: `NaN`, or a number of ten thousandths with five digits at most. -/
inductive Decimal where
  | nan
  | number (tenThousandths : ℤ) (digits : tenThousandths.natAbs < 10 ^ 5)

/-- `float(d)` -/
def Decimal.value : Decimal → Double
  | nan => .nan
  | number tenThousandths _ => .num (binary64.round (tenThousandths / 10000))

/-- A row of the table `rules`. The flag can be `NULL`. -/
structure RuleRow where
  id : String
  ruleName : String
  category : String
  severity : String
  scoreContribution : Decimal
  conditions : Json
  isActive : Option Bool

/-- The rule of a row. -/
def RuleRow.toRule (row : RuleRow) : Rule where
  id := row.id
  ruleName := row.ruleName
  category := row.category
  severity := row.severity
  scoreContribution := row.scoreContribution.value
  conditions := row.conditions

/-- `fetch_active_rules`, with the rows in the order in which the database returns them. -/
def fetchActiveRules (table : List RuleRow) : List Rule :=
  (table.filter fun row => row.isActive = some true).map RuleRow.toRule

/-! ## The rules that match -/

section Matching

variable {σ : Type} (fl : Rounding) (py : PyLib) (f : (op : Op) → σ → Except Exn (Ret op) × σ)
  (ctx : TransactionContext)

/-- The rules that match, each evaluated in the state that the rules before it leave, up to the
first `CRITICAL` one. -/
def matching : List Rule → σ → List Rule
  | [], _ => []
  | rule :: rules, s =>
      let x := evaluation py f ctx rule s
      if (matched x.result).isSome then
        if rule.severity = "CRITICAL" then [rule] else rule :: matching rules x.final
      else matching rules x.final

/-- What the matching rules contribute to the score of a transaction. -/
def contributions (rules : List Rule) (s : σ) : Double :=
  fl.sum ((matching py f ctx rules s).map Rule.scoreContribution)

variable {fl py f ctx}

/-- They are the rules that the loop reports. -/
theorem walk_eq_matching (rules : List Rule) (s : σ) :
    (walk py f ctx rules s).1.map Prod.fst = matching py f ctx rules s := by
  induction rules generalizing s with
  | nil => rfl
  | cons rule rules ih =>
      rw [matching]
      cases hmatch : matched (evaluation py f ctx rule s).result with
      | none =>
          rw [walk_of_none hmatch]
          exact ih _
      | some description =>
          by_cases hcritical : rule.severity = "CRITICAL"
          · rw [walk_of_critical hmatch hcritical]
            simp [hcritical]
          · rw [walk_of_match hmatch hcritical]
            simp [hcritical, ih]

theorem matching_subset {rules : List Rule} {s : σ} : matching py f ctx rules s ⊆ rules := by
  induction rules generalizing s with
  | nil => exact fun r hr => hr
  | cons rule rules ih =>
      rw [matching]
      split
      · split
        · simp
        · exact List.cons_subset_cons rule ih
      · exact List.subset_cons_of_subset rule ih

/-- The score is the sum of the contributions, capped. -/
theorem ruleScore_eq (hf : ∀ op s x, (f op s).1 = .error x → x.isException = true)
    (rules : List Rule) (s : σ) :
    ∃ result, ((evaluateTransaction fl py rules ctx).run f s).result = .ok result ∧
      result.ruleScore = (contributions fl py f ctx rules s).min 1 := by
  refine ⟨_, (leads_evaluateTransaction hf rules s).1, ?_⟩
  rw [contributions, ← walk_eq_matching, List.map_map]
  rfl

/-- Contributions that are nonnegative one by one make a nonnegative sum. -/
theorem contributions_nonneg {rules : List Rule} (h : ∀ r ∈ rules, 0 ≤ r.scoreContribution) (s : σ) :
    0 ≤ contributions fl py f ctx rules s := by
  apply Rounding.sum_nonneg
  intro x hx
  obtain ⟨r, hr, rfl⟩ := List.mem_map.mp hx
  exact h r (matching_subset hr)

end Matching

end FraudDetection.Rules
