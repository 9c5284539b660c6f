import Mathlib.Data.Set.Defs
import FraudDetection.Rules.Additions

/-!
# The fields a rule looks at

A simple condition compares a field with a value or with another field, and a velocity rule counts
under the value of a field. What they come to depends on these fields only.

A message in a field equals only itself and has no order, so its text does not matter in a
comparison (`compare_erase`). `verdict_simple` gives the verdict of a condition as a comparison, and
`verdict_congr` compares two contexts.
-/

namespace FraudDetection.Rules

open Async Python Store

/-! ## Fields -/

/-- The fields of a `TransactionContext`. -/
inductive Field where
  | transactionId
  | cardNumber
  | merchantId
  | merchantName
  | merchantCategory
  | amount
  | currency
  | timestamp
  | channel
  | ipAddress
  | deviceId
  | deviceFingerprint
  | locationLat
  | locationLon
  | billingCountry
  | shippingCountry
  | isRecurring
  | isInternational
  | metadata
  deriving DecidableEq, Repr

namespace Field

/-- The name of a field. -/
def name : Field → String
  | transactionId => "transaction_id"
  | cardNumber => "card_number"
  | merchantId => "merchant_id"
  | merchantName => "merchant_name"
  | merchantCategory => "merchant_category"
  | amount => "amount"
  | currency => "currency"
  | timestamp => "timestamp"
  | channel => "channel"
  | ipAddress => "ip_address"
  | deviceId => "device_id"
  | deviceFingerprint => "device_fingerprint"
  | locationLat => "location_lat"
  | locationLon => "location_lon"
  | billingCountry => "billing_country"
  | shippingCountry => "shipping_country"
  | isRecurring => "is_recurring"
  | isInternational => "is_international"
  | metadata => "metadata"

/-- The value of a field. -/
def read (ctx : TransactionContext) : Field → Attr
  | transactionId => .value (.str ctx.transactionId)
  | cardNumber => .value (.str ctx.cardNumber)
  | merchantId => .value (.str ctx.merchantId)
  | merchantName => .value (.str ctx.merchantName)
  | merchantCategory => .value (.str ctx.merchantCategory)
  | amount => .value (.float ctx.amount)
  | currency => .value (.str ctx.currency)
  | timestamp => .object "Timestamp" ctx.timestamp.text
  | channel => .value (.str ctx.channel)
  | ipAddress => .value (.str ctx.ipAddress)
  | deviceId => .value (.str ctx.deviceId)
  | deviceFingerprint => .value (.str ctx.deviceFingerprint)
  | locationLat => .value (.float ctx.locationLat)
  | locationLon => .value (.float ctx.locationLon)
  | billingCountry => .value (.str ctx.billingCountry)
  | shippingCountry => .value (.str ctx.shippingCountry)
  | isRecurring => .value (.bool ctx.isRecurring)
  | isInternational => .value (.bool ctx.isInternational)
  | metadata => .value (.dict (ctx.metadata.map fun kv => (kv.1, .str kv.2)))

/-- `getattr` finds the fields by their names, before anything inherited. -/
theorem attr_name (ctx : TransactionContext) (f : Field) : ctx.attr f.name = some (f.read ctx) := by
  cases f <;> rfl

end Field

/-! ## Comparisons -/

/-- An attribute without the text of a message. -/
def Attr.erase : Attr → Attr
  | .object typeName _ => .object typeName ""
  | .value v => .value v

/-- A comparison does not see the text of a message, unless it compares two of them. -/
theorem compare_erase {op : Operator} {a b : Attr}
    (h : ∀ t x u y, a = .object t x → b = .object u y → a = b) :
    a.compare op b = a.erase.compare op b.erase := by
  cases a with
  | value v =>
      cases b with
      | value w => rfl
      | object u y => cases op <;> rfl
  | object t x =>
      cases b with
      | value w => cases op <;> rfl
      | object u y =>
          obtain ⟨rfl, rfl⟩ := Attr.object.inj (h t x u y rfl rfl)
          cases op <;> simp [Attr.compare, Attr.erase, Attr.eq, Attr.typeName]

/-- Whether the operator that a condition names holds between two operands. -/
def comparesTrue (operator : Json) (a : Attr) (b : Option Attr) : Bool :=
  match b with
  | some b => (applyOperator operator a b).toOption.getD false
  | none => false

theorem comparesTrue_erase {operator : Json} {a : Attr} {b : Option Attr}
    (h : ∀ t x u y, a = .object t x → b = some (.object u y) → b = some a) :
    comparesTrue operator a b = comparesTrue operator a.erase (b.map Attr.erase) := by
  cases b with
  | none => rfl
  | some b =>
      have hcompare : ∀ op : Operator, a.compare op b = a.erase.compare op b.erase := by
        intro op
        apply compare_erase
        intro t x u y ha hb
        exact (Option.some.inj (h t x u y ha (congrArg some hb))).symm
      simp only [comparesTrue, applyOperator, Option.map_some]
      cases operatorOf operator with
      | none => rfl
      | some op =>
          simp only
          rw [hcompare op]

/-! ## Verdicts -/

/-- An entry of a rule's conditions. -/
def Rule.entry (rule : Rule) (key : String) : Option Json :=
  match rule.conditions with
  | .dict fs => fs.lookup key
  | _ => none

/-- The right operand of a simple condition; none if it has none or cannot be named. -/
def Rule.operand (rule : Rule) (ctx : TransactionContext) : Option Attr :=
  (rightOperand rule.conditions ctx).toOption.join

/-- Whether a rule matches a transaction. -/
def verdict (lib : RuleLib) (now : ℚ) (ctx : TransactionContext) (ks : RedisStore) (rule : Rule) :
    Bool := (matchIn lib now ctx ks rule).isSome

section Verdict

variable {lib : RuleLib} {now : ℚ} {ctx ctx' : TransactionContext} {ks : RedisStore} {rule : Rule}
  {f g : Field}

/-- The verdict of a simple condition is that of its comparison. -/
theorem verdict_simple (h : rule.Simple) (hfield : rule.condition "field" .null = .str f.name) :
    verdict lib now ctx ks rule
      = comparesTrue (rule.condition "operator" .null) (f.read ctx) (rule.operand ctx) := by
  rw [verdict, matchIn, h.matched]
  unfold Rule.operand Rule.condition at *
  cases hconditions : rule.conditions with
  | dict fs =>
      simp only [hconditions] at hfield ⊢
      rw [evaluateSimpleCondition, Json.get_dict, Json.get_dict, hfield]
      simp only [bind, Except.bind, TransactionContext.getattr, f.attr_name]
      cases rightOperand (.dict fs) ctx with
      | error x => rfl
      | ok operand =>
          cases operand with
          | none => rfl
          | some b =>
              simp only [comparesTrue]
              cases hcompare : applyOperator ((fs.lookup "operator").getD .null) (f.read ctx) b with
              | error x => simp [Except.toOption, hcompare, matched]
              | ok isMatch =>
                  cases isMatch <;>
                    simp [Except.toOption, hcompare, matched, pure, Except.pure]
  | _ =>
      rw [hconditions] at hfield
      cases hfield

/-- A condition without `value_field` compares with the value it gives. -/
theorem operand_value (hvalue : rule.entry "value_field" = none)
    (hfield : rule.condition "field" .null = .str f.name) :
    rule.operand ctx = operandOf (rule.condition "value" .null) := by
  unfold Rule.operand Rule.entry Rule.condition at *
  cases hconditions : rule.conditions with
  | dict fs =>
      simp only [hconditions] at hvalue ⊢
      rw [rightOperand, Json.fields_dict]
      simp only [bind, Except.bind, hvalue]
      rfl
  | _ =>
      rw [hconditions] at hfield
      cases hfield

/-- One with `value_field` compares with that field. -/
theorem operand_field (hvalue : rule.entry "value_field" = some (.str g.name)) :
    rule.operand ctx = some (g.read ctx) := by
  unfold Rule.operand Rule.entry at *
  cases hconditions : rule.conditions with
  | dict fs =>
      simp only [hconditions] at hvalue ⊢
      rw [rightOperand, Json.fields_dict]
      simp only [bind, Except.bind, hvalue, TransactionContext.getattr, g.attr_name]
      rfl
  | _ =>
      rw [hconditions] at hvalue
      cases hvalue

/-- A simple condition on fields of a set. -/
structure Rule.ComparesIn (F : Set Field) (rule : Rule) : Prop where
  simple : rule.Simple
  field : ∃ f ∈ F, rule.condition "field" .null = .str f.name
  valueField : ∀ v, rule.entry "value_field" = some v → ∃ g ∈ F, v = .str g.name

/-- The only message among the fields is the timestamp. -/
theorem eq_timestamp_of_read {t x : String} (h : f.read ctx = .object t x) : f = .timestamp := by
  cases f with
  | timestamp => rfl
  | _ => cases h

theorem operandOf_ne_object {v : Json} {t x : String} : operandOf v ≠ some (.object t x) := by
  cases v <;> simp [operandOf]

/-- The verdict of a simple condition depends on its fields only, and not on the text of a
message. -/
theorem verdict_congr {F : Set Field} (h : rule.ComparesIn F)
    (hsame : ∀ f ∈ F, (f.read ctx).erase = (f.read ctx').erase) :
    verdict lib now ctx ks rule = verdict lib now ctx' ks rule := by
  obtain ⟨f, hf, hfield⟩ := h.field
  rw [verdict_simple h.simple hfield, verdict_simple h.simple hfield]
  cases hentry : rule.entry "value_field" with
  | none =>
      have hvalue : ∀ c : TransactionContext, ∀ t x u y, f.read c = .object t x →
          operandOf (rule.condition "value" .null) = some (.object u y) →
          operandOf (rule.condition "value" .null) = some (f.read c) := by
        intro c t x u y _ hoperand
        exact absurd hoperand operandOf_ne_object
      rw [operand_value hentry hfield, operand_value hentry hfield,
        comparesTrue_erase (hvalue ctx), comparesTrue_erase (hvalue ctx'), hsame f hf]
  | some v =>
      obtain ⟨g, hg, rfl⟩ := h.valueField v hentry
      -- two messages are the timestamp twice
      have htwice : ∀ c : TransactionContext, ∀ t x u y, f.read c = .object t x →
          some (g.read c) = some (.object u y) → some (g.read c) = some (f.read c) := by
        intro c t x u y hread hread'
        rw [eq_timestamp_of_read hread, eq_timestamp_of_read (Option.some.inj hread')]
      rw [operand_field hentry, operand_field hentry, comparesTrue_erase (htwice ctx),
        comparesTrue_erase (htwice ctx'), Option.map_some, Option.map_some, hsame f hf, hsame g hg]

/-! ## Counters -/

/-- A velocity rule counts under the value of its field, if that is not empty. -/
theorem footprint_field {py : PyLib} (h : rule.velocityEntity = some f.name) :
    rule.footprint py ctx
      = if (f.read ctx).truthy then some (velocityKey py f.name (f.read ctx)) else none := by
  simp [Rule.footprint, h, f.attr_name]

/-- What a velocity rule comes to depends on its field only. -/
theorem velocity_congr (h : rule.velocityEntity = some f.name)
    (hsame : f.read ctx = f.read ctx') :
    verdict lib now ctx ks rule = verdict lib now ctx' ks rule := by
  have hprogram : evaluateRule lib.toPyLib rule.conditions ctx
      = evaluateRule lib.toPyLib rule.conditions ctx' := by
    by_cases htruthy : (f.read ctx).truthy = true
    · rw [evaluateRule_of_truthy h (f.attr_name ctx) htruthy,
        evaluateRule_of_truthy h (f.attr_name ctx') (hsame ▸ htruthy), hsame]
    · have hnone : rule.footprint lib.toPyLib ctx = none := by
        rw [footprint_field h, if_neg htruthy]
      have hnone' : rule.footprint lib.toPyLib ctx' = none := by
        rw [footprint_field h, ← hsame, if_neg htruthy]
      rw [evaluateRule_of_footprint_none h hnone, evaluateRule_of_footprint_none h hnone']
  rw [verdict, verdict, matchIn, matchIn, evaluation, evaluation, hprogram]

/-- The key under which a value is counted shows whether it is empty, and its text. -/
theorem counted_inj {py : PyLib} {entity : String} {a b : Attr}
    (h : (if a.truthy then some (velocityKey py entity a) else none)
      = if b.truthy then some (velocityKey py entity b) else none) :
    a.truthy = b.truthy ∧ (a.truthy = true → a.text py = b.text py) := by
  by_cases ha : a.truthy = true
  · by_cases hb : b.truthy = true
    · rw [if_pos ha, if_pos hb, Option.some.injEq] at h
      have htext := congrArg String.toList h
      simp only [velocityKey, String.toList_append] at htext
      exact ⟨ha.trans hb.symm, fun _ => String.toList_inj.mp (List.append_cancel_left htext)⟩
    · rw [if_pos ha, if_neg hb] at h
      cases h
  · by_cases hb : b.truthy = true
    · rw [if_neg ha, if_pos hb] at h
      cases h
    · rw [Bool.not_eq_true] at ha hb
      refine ⟨ha.trans hb.symm, ?_⟩
      intro htrue
      rw [ha] at htrue
      cases htrue

end Verdict

end FraudDetection.Rules
