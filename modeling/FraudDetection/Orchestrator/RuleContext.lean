import Mathlib.Tactic.NormNum
import FraudDetection.Ingestion.Payload
import FraudDetection.Orchestrator.Consume
import FraudDetection.Rules.Fields

/-!
# What the rule engine sees of a transaction

The orchestrator fills in four fields of the `TransactionContext`, one of them with the id of the
customer. The other fields have the defaults of the message, and a rule cannot tell a default from a
value.

`read_sent_iff` says which fields of the payload reach the engine. Rules on such fields see the
payload, and for any other field there is a rule that does not.
-/

namespace FraudDetection.Orchestrator

open Python Rules Ingestion Store Floats

/-! ## Contexts -/

/-- The attributes that every message inherits. -/
structure Inherited where
  attributes : List (String × Attr)
  names : ∀ a ∈ attributes, ':' ∉ a.1.toList

/-- `TransactionContext()` -/
def emptyContext (inherited : Inherited) : TransactionContext where
  transactionId := ""
  cardNumber := ""
  merchantId := ""
  merchantName := ""
  merchantCategory := ""
  amount := 0
  currency := ""
  timestamp := ⟨0, 0⟩
  channel := ""
  ipAddress := ""
  deviceId := ""
  deviceFingerprint := ""
  locationLat := 0
  locationLon := 0
  billingCountry := ""
  shippingCountry := ""
  isRecurring := false
  isInternational := false
  metadata := []
  inherited := inherited.attributes
  inherited_names := inherited.names

/-- A text that the constructor of a message is given. -/
def textField (fields : List (String × Json)) (name : String) : String :=
  match fields.lookup name with
  | some (.str s) => s
  | _ => ""

/-- A number that the constructor of a message is given, as a `double`. -/
def doubleField (fields : List (String × Json)) (name : String) : ℚ :=
  match fields.lookup name with
  | some (.float q) => q
  | some (.int n) => binary64.round n
  | _ => 0

/-- The context that the rule engine gets with a request: the four fields of `ruleRequest`, and the
defaults. -/
def sentContext (inherited : Inherited) (request : Request) : TransactionContext :=
  { emptyContext inherited with
    transactionId := textField request.fields "transaction_id"
    amount := doubleField request.fields "amount"
    merchantId := textField request.fields "merchant_id"
    cardNumber := textField request.fields "card_number" }

/-- The entries that a map of strings can hold. -/
def stringEntries (metadata : Option (List (String × Json))) : List (String × String) :=
  (metadata.getD []).filterMap fun kv =>
    match kv.2 with
    | .str s => some (kv.1, s)
    | _ => none

/-- The context that holds the payload's own values. A field that is `None` is not set. -/
def ownContext (inherited : Inherited) (p : TransactionPayload) : TransactionContext where
  transactionId := p.transactionId
  cardNumber := p.cardNumber
  merchantId := p.merchantId
  merchantName := p.merchantName
  merchantCategory := p.merchantCategory
  amount := p.amount
  currency := p.currency
  timestamp := ⟨p.timestamp.seconds, p.timestamp.nanos⟩
  channel := p.channel
  ipAddress := p.ipAddress.getD ""
  deviceId := p.deviceId.getD ""
  deviceFingerprint := p.deviceFingerprint.getD ""
  locationLat := p.locationLat.getD 0
  locationLon := p.locationLon.getD 0
  billingCountry := p.billingCountry.getD ""
  shippingCountry := p.shippingCountry.getD ""
  isRecurring := p.isRecurring
  isInternational := p.isInternational
  metadata := stringEntries p.metadata
  inherited := inherited.attributes
  inherited_names := inherited.names

/-- The request for a payload. -/
def requestOf (p : TransactionPayload) : Request :=
  ⟨.ruleEngine, [("transaction_id", .str p.transactionId), ("amount", .float p.amount),
    ("merchant_id", .str p.merchantId), ("card_number", .str p.customerId)]⟩

theorem ruleRequest_modelDump (p : TransactionPayload) :
    ruleRequest p.modelDump = .ok (requestOf p) := rfl

/-! ## The fields that reach the engine -/

/-- A field of the payload reaches the engine: it is sent, or the payload has the default there. The
card number is that of the customer. -/
def Reaches (p : TransactionPayload) : Field → Prop
  | .transactionId => True
  | .merchantId => True
  | .amount => True
  | .cardNumber => p.customerId = p.cardNumber
  | .merchantName => p.merchantName = ""
  | .merchantCategory => p.merchantCategory = ""
  | .currency => p.currency = ""
  | .timestamp => p.timestamp.seconds = 0 ∧ p.timestamp.nanos = 0
  | .channel => p.channel = ""
  | .ipAddress => p.ipAddress.getD "" = ""
  | .deviceId => p.deviceId.getD "" = ""
  | .deviceFingerprint => p.deviceFingerprint.getD "" = ""
  | .locationLat => p.locationLat.getD 0 = 0
  | .locationLon => p.locationLon.getD 0 = 0
  | .billingCountry => p.billingCountry.getD "" = ""
  | .shippingCountry => p.shippingCountry.getD "" = ""
  | .isRecurring => p.isRecurring = false
  | .isInternational => p.isInternational = false
  | .metadata => stringEntries p.metadata = []

section Reaches

variable {inherited : Inherited} {p : TransactionPayload} {f : Field}

/-- Only the epoch has the text of the default. -/
theorem timestamp_text_eq {t : Timestamp} : t.text = "" ↔ t.seconds = 0 ∧ t.nanos = 0 := by
  unfold Timestamp.text
  by_cases hseconds : t.seconds = 0
  · by_cases hnanos : t.nanos = 0
    · simp [hseconds, hnanos]
    · simp [hseconds, hnanos]
  · simp [hseconds]

theorem read_sent_iff : f.read (sentContext inherited (requestOf p))
    = f.read (ownContext inherited p) ↔ Reaches p f := by
  cases f with
  | timestamp =>
      have htext : (ownContext inherited p).timestamp.text = "" ↔ Reaches p .timestamp :=
        timestamp_text_eq
      rw [← htext]
      constructor
      · intro h
        exact (Attr.object.inj h).2.symm
      · intro h
        show Attr.object "Timestamp" "" = Attr.object "Timestamp" _
        rw [h]
  | transactionId => exact iff_of_true rfl trivial
  | merchantId => exact iff_of_true rfl trivial
  | amount => exact iff_of_true rfl trivial
  | cardNumber =>
      simp [Field.read, sentContext, requestOf, textField, List.lookup_cons, ownContext, Reaches]
  | _ =>
      rw [eq_comm]
      simp [Field.read, sentContext, emptyContext, ownContext, Reaches]

/-- A condition can tell a value from a default: it compares with the default. -/
theorem eq_of_equal_default (hf : f ≠ .timestamp) : ∃ v w,
    f.read (ownContext inherited p) = .value v ∧
      f.read (sentContext inherited (requestOf p)) = .value w ∧
      operandOf w = some (.value w) ∧ w.eq w = true ∧ (v.eq w = true → w = v) := by
  cases f with
  | timestamp => exact absurd rfl hf
  | metadata =>
      refine ⟨_, _, rfl, rfl, rfl, (Json.eq_dict_nil []).mpr rfl, ?_⟩
      intro h
      rw [(Json.eq_dict_nil _).mp h]
      rfl
  | isRecurring | isInternational =>
      refine ⟨_, _, rfl, rfl, rfl, (Json.eq_bool ..).mpr rfl, ?_⟩
      intro h
      rw [(Json.eq_bool ..).mp h]
  | amount | locationLat | locationLon =>
      refine ⟨_, _, rfl, rfl, rfl, (Json.eq_float ..).mpr rfl, ?_⟩
      intro h
      rw [(Json.eq_float ..).mp h]
  | _ =>
      refine ⟨_, _, rfl, rfl, rfl, (Json.eq_str ..).mpr rfl, ?_⟩
      intro h
      rw [(Json.eq_str ..).mp h]

/-- So can the key of a counter. -/
theorem read_eq_of_counted {py : PyLib}
    (h : (if (f.read (sentContext inherited (requestOf p))).truthy then
        some (velocityKey py f.name (f.read (sentContext inherited (requestOf p)))) else none)
      = if (f.read (ownContext inherited p)).truthy then
        some (velocityKey py f.name (f.read (ownContext inherited p))) else none) :
    f.read (sentContext inherited (requestOf p)) = f.read (ownContext inherited p) := by
  obtain ⟨htruthy, htext⟩ := counted_inj h
  have hstr : ∀ s t : String, (Attr.value (.str s)).truthy = (Attr.value (.str t)).truthy →
      ((Attr.value (.str s)).truthy = true →
        (Attr.value (.str s)).text py = (Attr.value (.str t)).text py) →
      Attr.value (.str s) = Attr.value (.str t) := by
    intro s t hsame htext
    by_cases hempty : s = ""
    · simp [Attr.truthy, Json.truthy, hempty] at hsame
      rw [hempty, hsame]
    · have heq := htext (by simp [Attr.truthy, Json.truthy, hempty])
      simp only [Attr.text, py.str_str] at heq
      rw [heq]
  cases f with
  | timestamp => exact congrArg (Attr.object "Timestamp") (htext rfl)
  | amount => rfl
  | locationLat | locationLon | isRecurring | isInternational | metadata =>
      -- the default is empty, so the payload's value is
      simp [Field.read, sentContext, emptyContext, Attr.truthy, Json.truthy] at htruthy
      simp [Field.read, sentContext, emptyContext, htruthy]
  | _ => exact hstr _ _ htruthy htext

end Reaches

/-! ## Rules on the payload -/

/-- A rule that compares a field with a value. -/
def equalRule (f : Field) (w : Json) : Rule where
  id := "8"
  ruleName := "FIELD_EQUALS"
  category := "amount"
  severity := "LOW"
  scoreContribution := .num (binary64.round (1 / 10))
  conditions := .dict [("type", .str "condition"), ("field", .str f.name), ("operator", .str "=="),
    ("value", w)]

/-- A rule that counts under a field. -/
def countRule (f : Field) : Rule where
  id := "9"
  ruleName := "FIELD_VELOCITY"
  category := "velocity"
  severity := "LOW"
  scoreContribution := .num (binary64.round (1 / 10))
  conditions := .dict [("type", .str "velocity"), ("entity", .str f.name)]

section Sees

variable {lib : RuleLib} {now : ℚ} {ctx : TransactionContext} {ks : RedisStore} {f : Field} {w : Json}

theorem comparesIn_equalRule {F : Set Field} (hf : f ∈ F) : (equalRule f w).ComparesIn F where
  simple := rfl
  field := ⟨f, hf, rfl⟩
  valueField := by
    intro v hv
    cases hv

theorem verdict_equalRule {v : Json} (hread : f.read ctx = .value v)
    (hw : operandOf w = some (.value w)) : verdict lib now ctx ks (equalRule f w) = v.eq w := by
  rw [verdict_simple (comparesIn_equalRule (Set.mem_univ f)).simple rfl, operand_value rfl rfl,
    hread]
  show comparesTrue (.str "==") (.value v) (operandOf w) = v.eq w
  rw [hw]
  rfl

/-- What rules on a set of fields make of a payload: the conditions see its own values exactly when
all these fields reach the engine, except that no condition can tell one timestamp from another, and
the velocity rules see and count under them exactly when all these fields do. -/
theorem rules_see_payload_iff (lib : RuleLib) (inherited : Inherited) (p : TransactionPayload)
    (F : Set Field) : ∃ request, ruleRequest p.modelDump = .ok request ∧
      ((∀ rule : Rule, rule.ComparesIn F → ∀ now ks,
          verdict lib now (sentContext inherited request) ks rule
            = verdict lib now (ownContext inherited p) ks rule) ↔
        ∀ f ∈ F, f ≠ .timestamp → Reaches p f) ∧
      ((∀ (rule : Rule) (f : Field), f ∈ F → rule.velocityEntity = some f.name →
          (∀ now ks, verdict lib now (sentContext inherited request) ks rule
            = verdict lib now (ownContext inherited p) ks rule) ∧
          rule.footprint lib.toPyLib (sentContext inherited request)
            = rule.footprint lib.toPyLib (ownContext inherited p)) ↔
        ∀ f ∈ F, Reaches p f) := by
  refine ⟨requestOf p, ruleRequest_modelDump p, ?_, ?_⟩
  · constructor
    · intro hsees f hf hne
      obtain ⟨v, w, hown, hsent, hw, hsame, hdefault⟩ := @eq_of_equal_default inherited p f hne
      have heq := hsees (equalRule f w) (comparesIn_equalRule hf) 0 fun _ => none
      rw [verdict_equalRule hsent hw, verdict_equalRule hown hw, hsame] at heq
      rw [← @read_sent_iff inherited, hown, hsent, hdefault heq.symm]
    · intro hreaches rule hrule now ks
      apply verdict_congr hrule
      intro f hf
      by_cases hne : f = .timestamp
      · subst hne
        rfl
      · rw [read_sent_iff.mpr (hreaches f hf hne)]
  · constructor
    · intro hsees f hf
      have hfoot := (hsees (countRule f) f hf rfl).2
      rw [footprint_field rfl, footprint_field rfl] at hfoot
      exact (@read_sent_iff inherited p f).mp (read_eq_of_counted hfoot)
    · intro hreaches rule f hf hrule
      have hsame := (@read_sent_iff inherited p f).mpr (hreaches f hf)
      constructor
      · intro now ks
        exact velocity_congr hrule hsame
      · rw [footprint_field hrule, footprint_field hrule, hsame]

/-! ### A parcel abroad -/

/-- The rule of `005_rules.sql` on different countries. -/
def crossBorderMismatch : Rule where
  id := "2"
  ruleName := "CROSS_BORDER_MISMATCH"
  category := "geo"
  severity := "MEDIUM"
  scoreContribution := .num (binary64.round (4 / 10))
  conditions := .dict [("type", .str "condition"), ("field", .str "billing_country"),
    ("operator", .str "!="), ("value_field", .str "shipping_country")]

theorem country_us : ∀ code ∈ some "US", CountryCode code := by
  intro code hcode
  cases hcode
  unfold CountryCode
  decide

theorem country_gb : ∀ code ∈ some "GB", CountryCode code := by
  intro code hcode
  cases hcode
  unfold CountryCode
  decide

/-- A payment billed in one country and shipped to another. -/
def parcelPayload : TransactionPayload :=
  { samplePayload "t-1" "alice" "m-1" 25 twentyFive_pos with
    billingCountry := some "US"
    shippingCountry := some "GB"
    billingCountry_code := country_us
    shippingCountry_code := country_gb }

theorem plain_names : ∀ a ∈ ([] : List (String × Attr)), ':' ∉ a.1.toList := by
  intro a ha
  cases ha

/-- Nothing inherited. -/
def plain : Inherited where
  attributes := []
  names := plain_names

/-- The seeded rule on different countries misses the payment, and the seeded velocity rule counts
it under its customer instead of its card. -/
theorem parcel_unseen :
    let sent := sentContext plain (requestOf parcelPayload)
    let own := ownContext plain parcelPayload
    ruleRequest parcelPayload.modelDump = .ok (requestOf parcelPayload) ∧
      (verdict compactRules 0 sent (fun _ => none) crossBorderMismatch = false ∧
        verdict compactRules 0 own (fun _ => none) crossBorderMismatch = true) ∧
      highVelocity24h.footprint compactRules.toPyLib sent = some "velocity:card_number:alice" ∧
      highVelocity24h.footprint compactRules.toPyLib own = some "velocity:card_number:tok-4242" := by
  refine ⟨rfl, ?_⟩
  decide +kernel

end Sees

end FraudDetection.Orchestrator
