import Mathlib.Algebra.BigOperators.Group.List.Basic
import Mathlib.Data.Rat.Defs
import FraudDetection.Async.Trace
import FraudDetection.Floats.Binary
import FraudDetection.Rules.CheckVelocity

/-!
# The rule evaluator

`evaluate_transaction` evaluates the rules in the order of the catalogue: it skips those whose
evaluation raises, collects those that match, and stops at the first match of severity `CRITICAL`.
Scores are added up as floats; the arithmetic is a parameter.

`walk` is the loop as a function of the state: which rules match, and the state they leave.
`leads_evaluateTransaction` ties the program to it.
-/

namespace FraudDetection.Rules

open Async Python Store Floats

/-! ## Rules and results -/

/-- An active rule, as `fetch_active_rules` returns it. -/
structure Rule where
  id : String
  ruleName : String
  category : String
  severity : String
  scoreContribution : Double
  conditions : Json

/-- The rule of `005_rules.sql` on amounts greater than $10,000. -/
def highAmountTxn : Rule where
  id := "1"
  ruleName := "HIGH_AMOUNT_TXN"
  category := "amount"
  severity := "HIGH"
  scoreContribution := .num (binary64.round (6 / 10))
  conditions := .dict [("type", .str "condition"), ("field", .str "amount"), ("operator", .str ">"),
    ("value", .int 10000)]

/-- The rule of `005_rules.sql` on more than 5 transactions on the same card within 24 hours. -/
def highVelocity24h : Rule where
  id := "3"
  ruleName := "HIGH_VELOCITY_24H"
  category := "velocity"
  severity := "CRITICAL"
  scoreContribution := .num (binary64.round (9 / 10))
  conditions := .dict [("type", .str "velocity"), ("entity", .str "card_number"),
    ("window_seconds", .int 86400), ("limit", .int 5)]

/-- The message `RuleMatch`. -/
structure RuleMatch where
  ruleId : String
  ruleName : String
  severity : String
  score : Double
  description : String
  category : String

/-- The message `RuleEvalResult`. -/
structure RuleEvalResult where
  ruleScore : Double
  triggeredRules : List RuleMatch
  executionTimeMs : ℚ
  rulesEvaluated : ℕ
  rulesMatched : ℕ

/-! ## One rule -/

section Rule

variable (py : PyLib)

/-- The operator a condition names. -/
def operatorOf : Json → Option Operator
  | .str ">" => some .gt
  | .str "<" => some .lt
  | .str "==" => some .eq
  | .str "!=" => some .ne
  | .str ">=" => some .ge
  | .str "<=" => some .le
  | _ => none

/-- The comparison by the operator a condition names; an unknown operator never matches. -/
def applyOperator (operator : Json) (a b : Attr) : Except Exn Bool :=
  match operatorOf operator with
  | some op => a.compare op b
  | none => .ok false

/-- A JSON value as the operand of a comparison; `None` is none. -/
def operandOf : Json → Option Attr
  | .null => none
  | v => some (.value v)

/-- The right operand of a condition: the attribute named by `value_field` if there is that field,
and the value given in the condition otherwise. -/
def rightOperand (conditions : Json) (ctx : TransactionContext) : Except Exn (Option Attr) := do
  let fields ← conditions.fields
  match fields.lookup "value_field" with
  | some name => ctx.getattr name
  | none => return operandOf ((fields.lookup "value").getD .null)

/-- `_evaluate_simple_condition` -/
def evaluateSimpleCondition (conditions : Json) (ctx : TransactionContext) :
    Except Exn (Bool × String) := do
  let field ← conditions.get "field" .null
  let operator ← conditions.get "operator" .null
  -- the actual value of the field
  let ctxValue ← ctx.getattr field
  let value ← rightOperand conditions ctx
  match ctxValue, value with
  | some a, some b =>
      let isMatch ← applyOperator operator a b
      return (isMatch, if isMatch then
        py.str field ++ " " ++ py.str operator ++ " " ++ b.text py else "")
  -- `None` on either side
  | _, _ => return (false, "")

/-- `_evaluate_velocity` -/
def evaluateVelocity (conditions : Json) (ctx : TransactionContext) :
    Coroutine (Bool × String) := do
  let entity ← Prog.lift (conditions.get "entity" .null)
  let windowSeconds ← Prog.lift (conditions.get "window_seconds" (.int 86400))
  let limit ← Prog.lift (conditions.get "limit" (.int 5))
  let entityValue ← Prog.lift (ctx.getattr entity)
  match entityValue with
  | none => pure (false, "")
  | some value =>
      if value.truthy then do
        let isExceeded ← checkVelocity py (py.str entity) value windowSeconds limit
        pure (isExceeded, if isExceeded then "Velocity exceeded limit " ++ py.str limit
          ++ " within " ++ py.str windowSeconds ++ "s for " ++ py.str entity else "")
      else pure (false, "")

/-- `_evaluate_rule` -/
def evaluateRule (conditions : Json) (ctx : TransactionContext) : Coroutine (Bool × String) := do
  let conditionType ← Prog.lift (conditions.get "type" .null)
  match conditionType with
  | .str "condition" => Prog.lift (evaluateSimpleCondition py conditions ctx)
  | .str "velocity" => evaluateVelocity py conditions ctx
  -- a rule without a type, or with another one, never matches
  | _ => pure (false, "")

end Rule

/-! ## What a rule raises -/

section Raises

variable {ctx : TransactionContext}

/-- An exception that the loop catches. -/
def Caught (x : Exn) : Prop := x.isException = true

theorem caught_of_getattr {name : Json} {x : Exn} (h : ctx.getattr name = .error x) : Caught x := by
  unfold TransactionContext.getattr at h
  split at h
  · cases h
  · cases h
    rfl

theorem caught_of_compare {op : Operator} {a b : Attr} {x : Exn} (h : a.compare op b = .error x) :
    Caught x := by
  unfold Attr.compare at h
  split at h
  · exact Operator.isException_of_apply h
  · split at h
    · cases h
    · cases h
    · cases h
      rfl

theorem caught_of_rightOperand {conditions : Json} {x : Exn}
    (h : rightOperand conditions ctx = .error x) : Caught x := by
  unfold rightOperand at h
  cases conditions with
  | dict fs =>
      rw [Json.fields_dict] at h
      cases hlookup : fs.lookup "value_field" with
      | none =>
          simp only [hlookup, bind, Except.bind] at h
          cases h
      | some name =>
          simp only [hlookup, bind, Except.bind] at h
          exact caught_of_getattr h
  | _ =>
      cases h
      rfl

theorem caught_of_simpleCondition {py : PyLib} {conditions : Json} {x : Exn}
    (h : evaluateSimpleCondition py conditions ctx = .error x) : Caught x := by
  unfold evaluateSimpleCondition at h
  rcases bind_eq_error.mp h with hfield | ⟨field, -, h⟩
  · exact Json.isException_of_get hfield
  rcases bind_eq_error.mp h with hoperator | ⟨operator, -, h⟩
  · exact Json.isException_of_get hoperator
  rcases bind_eq_error.mp h with hleft | ⟨ctxValue, -, h⟩
  · exact caught_of_getattr hleft
  rcases bind_eq_error.mp h with hright | ⟨value, -, h⟩
  · exact caught_of_rightOperand hright
  split at h
  · rcases bind_eq_error.mp h with hcompare | ⟨isMatch, -, h⟩
    · unfold applyOperator at hcompare
      split at hcompare
      · exact caught_of_compare hcompare
      · cases hcompare
    · cases h
  · cases h

theorem raises_checkVelocity (py : PyLib) (entityType : String) (entityValue : Attr)
    (windowSeconds limit : Json) :
    (checkVelocity py entityType entityValue windowSeconds limit).Raises Caught := by
  unfold checkVelocity
  refine (Prog.raises_await _).bind ?_
  intro n
  have hcompare : (Prog.lift (Operator.gt.apply (.int n) limit) : Coroutine Bool).Raises Caught :=
    Prog.raises_lift fun x => Operator.isException_of_apply
  split
  · exact (Prog.raises_await _).bind fun _ => hcompare
  · exact hcompare

/-- The evaluation of a rule raises nothing else, unless a command does. -/
theorem raises_evaluateRule (py : PyLib) (conditions : Json) (ctx : TransactionContext) :
    (evaluateRule py conditions ctx).Raises Caught := by
  have hget : ∀ key d, (Prog.lift (conditions.get key d) : Coroutine Json).Raises Caught :=
    fun key d => Prog.raises_lift fun x => Json.isException_of_get
  unfold evaluateRule
  refine (hget _ _).bind ?_
  intro conditionType
  split
  · exact Prog.raises_lift fun x => caught_of_simpleCondition
  · unfold evaluateVelocity
    refine (hget _ _).bind fun entity => (hget _ _).bind fun windowSeconds =>
      (hget _ _).bind fun limit => ?_
    refine (Prog.raises_lift fun x => caught_of_getattr).bind ?_
    intro entityValue
    split
    · trivial
    · split
      · exact (raises_checkVelocity _ _ _ _ _).bind fun _ => trivial
      · trivial
  · trivial

end Raises

/-! ## The loop -/

/-- What the loop has collected: the triggered rules and the sum of their scores. -/
structure Progress where
  triggeredRules : List RuleMatch
  totalScore : Double
  rulesMatched : ℕ

/-- The message for a rule that matches. -/
def Rule.toMatch (rule : Rule) (description : String) : RuleMatch where
  ruleId := rule.id
  ruleName := rule.ruleName
  severity := rule.severity
  score := rule.scoreContribution
  description := description
  category := rule.category

/-- A rule matches. -/
def Progress.add (fl : Rounding) (acc : Progress) (rule : Rule) (description : String) : Progress where
  triggeredRules := acc.triggeredRules ++ [rule.toMatch description]
  totalScore := fl.add acc.totalScore rule.scoreContribution
  rulesMatched := acc.rulesMatched + 1

/-- `for rule in self.rules`. A rule whose evaluation raises is logged and skipped, and the loop is
left at a match of severity `CRITICAL`. -/
def evaluateRules (fl : Rounding) (py : PyLib) (ctx : TransactionContext) :
    List Rule → Progress → Coroutine Progress
  | [], acc => pure acc
  | rule :: rules, acc => do
      let outcome ← Prog.tryExcept (evaluateRule py rule.conditions ctx) Exn.isException
        fun _ => pure (false, "")
      if outcome.1 then
        if rule.severity = "CRITICAL" then pure (acc.add fl rule outcome.2)
        else evaluateRules fl py ctx rules (acc.add fl rule outcome.2)
      else evaluateRules fl py ctx rules acc

/-- `evaluate_transaction`. The execution time is filled in by the caller. -/
def evaluateTransaction (fl : Rounding) (py : PyLib) (rules : List Rule)
    (ctx : TransactionContext) : Coroutine RuleEvalResult := do
  let acc ← evaluateRules fl py ctx rules ⟨[], 0, 0⟩
  pure {
    ruleScore := acc.totalScore.min 1
    triggeredRules := acc.triggeredRules
    executionTimeMs := 0
    rulesEvaluated := rules.length
    rulesMatched := acc.rulesMatched }

/-! ## Evaluation as a function of the state -/

section Walk

variable {σ : Type} (py : PyLib) (f : (op : Op) → σ → Except Exn (Ret op) × σ)
  (ctx : TransactionContext)

/-- The evaluation of one rule. -/
def evaluation (rule : Rule) (s : σ) : Execution σ Ret Exn (Bool × String) :=
  (evaluateRule py rule.conditions ctx).run f s

/-- The description with which a rule matches. -/
def matched (r : Except Exn (Bool × String)) : Option String :=
  match r with
  | .ok outcome => if outcome.1 then some outcome.2 else none
  | .error _ => none

/-- The rules that match, with their descriptions, and the state the loop leaves. -/
def walk : List Rule → σ → List (Rule × String) × σ
  | [], s => ([], s)
  | rule :: rules, s =>
      let x := evaluation py f ctx rule s
      match matched x.result with
      | some description =>
          if rule.severity = "CRITICAL" then ([(rule, description)], x.final)
          else ((rule, description) :: (walk rules x.final).1, (walk rules x.final).2)
      | none => walk rules x.final

/-- The result for the rules that match. -/
def resultOf (fl : Rounding) (rules : List Rule) (triggered : List (Rule × String)) :
    RuleEvalResult where
  ruleScore := (fl.sum (triggered.map fun m => m.1.scoreContribution)).min 1
  triggeredRules := triggered.map fun m => m.1.toMatch m.2
  executionTimeMs := 0
  rulesEvaluated := rules.length
  rulesMatched := triggered.length

variable {fl : Rounding} {py f ctx}

section Equations

variable {rule : Rule} {rules : List Rule} {s : σ} {description : String}

/-- A rule that does not match leaves the loop to the rest. -/
theorem walk_of_none (h : matched (evaluation py f ctx rule s).result = none) :
    walk py f ctx (rule :: rules) s = walk py f ctx rules (evaluation py f ctx rule s).final := by
  rw [walk, h]

/-- A match of severity `CRITICAL` ends the loop. -/
theorem walk_of_critical (h : matched (evaluation py f ctx rule s).result = some description)
    (hcritical : rule.severity = "CRITICAL") :
    walk py f ctx (rule :: rules) s
      = ([(rule, description)], (evaluation py f ctx rule s).final) := by
  rw [walk, h]
  simp only [if_pos hcritical]

/-- After any other match it goes on. -/
theorem walk_of_match (h : matched (evaluation py f ctx rule s).result = some description)
    (hcritical : rule.severity ≠ "CRITICAL") :
    walk py f ctx (rule :: rules) s
      = ((rule, description) :: (walk py f ctx rules (evaluation py f ctx rule s).final).1,
        (walk py f ctx rules (evaluation py f ctx rule s).final).2) := by
  rw [walk, h]
  simp only [if_neg hcritical]

end Equations

/-- What the loop adds for the rules that match. -/
def Progress.addAll (fl : Rounding) (acc : Progress) (triggered : List (Rule × String)) : Progress :=
  triggered.foldl (fun acc m => acc.add fl m.1 m.2) acc

/-- If Redis raises `Exception`s at most, the loop collects what `walk` says. -/
theorem leads_evaluateRules (hf : ∀ op s x, (f op s).1 = .error x → x.isException = true)
    (rules : List Rule) (acc : Progress) (s : σ) :
    Prog.Leads f (evaluateRules fl py ctx rules acc) s fun r s' =>
      r = .ok (acc.addAll fl (walk py f ctx rules s).1) ∧ s' = (walk py f ctx rules s).2 := by
  induction rules generalizing acc s with
  | nil => exact ⟨rfl, rfl⟩
  | cons rule rules ih =>
      have hrule := (raises_evaluateRule py rule.conditions ctx).run hf s
      rw [← evaluation] at hrule
      rw [evaluateRules, Prog.leads_bind, Prog.leads_tryExcept, walk, Prog.Leads, ← evaluation]
      dsimp only
      cases hx : (evaluation py f ctx rule s).result with
      | error x =>
          have hcaught : x.isException = true := hrule x hx
          simp only [hcaught, if_true, matched]
          rw [Prog.leads_pure]
          simp only [Bool.false_eq_true, if_false]
          exact ih acc _
      | ok outcome =>
          by_cases hmatch : outcome.1 = true
          · simp only [matched, hmatch, if_true]
            by_cases hcritical : rule.severity = "CRITICAL"
            · simp only [if_pos hcritical]
              rw [Prog.leads_pure]
              exact ⟨rfl, rfl⟩
            · simp only [if_neg hcritical]
              exact ih _ _
          · simp only [matched, hmatch, Bool.false_eq_true, if_false]
            exact ih acc _

theorem addAll_fields (acc : Progress) (triggered : List (Rule × String)) :
    acc.addAll fl triggered = {
      triggeredRules := acc.triggeredRules ++ triggered.map fun m => m.1.toMatch m.2
      totalScore := (triggered.map fun m => m.1.scoreContribution).foldl fl.add acc.totalScore
      rulesMatched := acc.rulesMatched + triggered.length } := by
  induction triggered generalizing acc with
  | nil => simp [Progress.addAll]
  | cons m triggered ih =>
      rw [Progress.addAll, List.foldl_cons, ← Progress.addAll, ih]
      simp [Progress.add, add_assoc, add_comm 1]

/-- `evaluate_transaction` reports the rules that match in the walk. -/
theorem leads_evaluateTransaction (hf : ∀ op s x, (f op s).1 = .error x → x.isException = true)
    (rules : List Rule) (s : σ) :
    Prog.Leads f (evaluateTransaction fl py rules ctx) s fun r s' =>
      r = .ok (resultOf fl rules (walk py f ctx rules s).1) ∧ s' = (walk py f ctx rules s).2 := by
  unfold evaluateTransaction
  rw [Prog.leads_bind_of_ok f (leads_evaluateRules hf rules ⟨[], 0, 0⟩ s), Prog.leads_pure,
    addAll_fields]
  simp [resultOf, Rounding.sum]

end Walk

end FraudDetection.Rules
