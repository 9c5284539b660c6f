import FraudDetection.Python.Compare

/-!
# The transaction context of the rule engine

Rules name the attributes they look at by strings. A context is a protobuf message: its fields
always have a value, and it has the attributes that every message has besides.
-/

namespace FraudDetection.Rules

open Python

/-! ## Attributes -/

/-- The value of an attribute: plain data, or an object without an order that equals only itself. -/
inductive Attr where
  | value (v : Json)
  | object (typeName text : String)

namespace Attr

/-- `type(a).__name__` -/
def typeName : Attr → String
  | value v => v.typeName
  | object typeName _ => typeName

/-- `bool(a)` -/
def truthy : Attr → Bool
  | value v => v.truthy
  | object _ _ => true

/-- `str(a)` -/
def text (py : PyLib) : Attr → String
  | value v => py.str v
  | object _ text => text

/-- `a == b` -/
def eq : Attr → Attr → Bool
  | value v, value w => v.eq w
  | object t x, object u y => t == u && x == y
  | _, _ => false

/-- `a op b` -/
def compare (op : Operator) (a b : Attr) : Except Exn Bool :=
  match a, b with
  | value v, value w => op.apply v w
  | a, b =>
      match op with
      | .eq => .ok (a.eq b)
      | .ne => .ok (!a.eq b)
      | op => .error (op.unordered a.typeName b.typeName)

end Attr

/-! ## Contexts -/

/-- `google.protobuf.Timestamp` -/
structure Timestamp where
  seconds : ℤ
  nanos : ℤ

/-- The text of a message: its fields that are not zero. -/
def Timestamp.text (t : Timestamp) : String :=
  (if t.seconds = 0 then "" else "seconds: " ++ toString t.seconds ++ "\n") ++
    (if t.nanos = 0 then "" else "nanos: " ++ toString t.nanos ++ "\n")

/-- A `TransactionContext`, and the attributes it inherits: its methods and descriptors. -/
structure TransactionContext where
  transactionId : String
  cardNumber : String
  merchantId : String
  merchantName : String
  merchantCategory : String
  amount : ℚ
  currency : String
  timestamp : Timestamp
  channel : String
  ipAddress : String
  deviceId : String
  deviceFingerprint : String
  locationLat : ℚ
  locationLon : ℚ
  billingCountry : String
  shippingCountry : String
  isRecurring : Bool
  isInternational : Bool
  metadata : List (String × String)
  inherited : List (String × Attr)
  inherited_names : ∀ a ∈ inherited, ':' ∉ a.1.toList

namespace TransactionContext

/-- The fields of the message. -/
def fields (ctx : TransactionContext) : List (String × Attr) :=
  [("transaction_id", .value (.str ctx.transactionId)),
    ("card_number", .value (.str ctx.cardNumber)),
    ("merchant_id", .value (.str ctx.merchantId)),
    ("merchant_name", .value (.str ctx.merchantName)),
    ("merchant_category", .value (.str ctx.merchantCategory)),
    ("amount", .value (.float ctx.amount)),
    ("currency", .value (.str ctx.currency)),
    ("timestamp", .object "Timestamp" ctx.timestamp.text),
    ("channel", .value (.str ctx.channel)),
    ("ip_address", .value (.str ctx.ipAddress)),
    ("device_id", .value (.str ctx.deviceId)),
    ("device_fingerprint", .value (.str ctx.deviceFingerprint)),
    ("location_lat", .value (.float ctx.locationLat)),
    ("location_lon", .value (.float ctx.locationLon)),
    ("billing_country", .value (.str ctx.billingCountry)),
    ("shipping_country", .value (.str ctx.shippingCountry)),
    ("is_recurring", .value (.bool ctx.isRecurring)),
    ("is_international", .value (.bool ctx.isInternational)),
    ("metadata", .value (.dict (ctx.metadata.map fun kv => (kv.1, .str kv.2))))]

/-- The attribute under a name, if there is one. -/
def attr (ctx : TransactionContext) (name : String) : Option Attr :=
  (ctx.fields ++ ctx.inherited).lookup name

/-- `getattr(ctx, name, None)` -/
def getattr (ctx : TransactionContext) (name : Json) : Except Exn (Option Attr) :=
  match name with
  | .str s => .ok (ctx.attr s)
  | v => .error ⟨.typeError, "attribute name must be string, not '" ++ v.typeName ++ "'"⟩

/-- The name of an attribute has no colon. -/
theorem colon_notMem {ctx : TransactionContext} {name : String} {a : Attr}
    (h : ctx.attr name = some a) : ':' ∉ name.toList := by
  rw [attr, List.lookup_eq_some_iff] at h
  obtain ⟨before, after, heq, -⟩ := h
  have hmem : (name, a) ∈ ctx.fields ++ ctx.inherited := by simp [heq]
  rcases List.mem_append.mp hmem with hfield | hinherited
  · have hnames : ∀ f ∈ ctx.fields.map Prod.fst, ':' ∉ f.toList := by
      show ∀ f ∈ ["transaction_id", "card_number", "merchant_id", "merchant_name",
        "merchant_category", "amount", "currency", "timestamp", "channel", "ip_address",
        "device_id", "device_fingerprint", "location_lat", "location_lon", "billing_country",
        "shipping_country", "is_recurring", "is_international", "metadata"], ':' ∉ f.toList
      decide
    exact hnames name (List.mem_map_of_mem hfield)
  · exact ctx.inherited_names _ hinherited

/-- A payment by card, with the other fields at their defaults. -/
def payment (cardNumber : String) (amount : ℚ) : TransactionContext where
  transactionId := ""
  cardNumber := cardNumber
  merchantId := ""
  merchantName := ""
  merchantCategory := ""
  amount := amount
  currency := ""
  timestamp := ⟨0, 0⟩
  channel := ""
  ipAddress := ""
  deviceId := ""
  deviceFingerprint := ""
  locationLat := 0
  locationLon := 0
  billingCountry := ""
  shippingCountry := ""
  isRecurring := false
  isInternational := false
  metadata := []
  inherited := []
  inherited_names := by
    intro a ha
    cases ha

end TransactionContext

end FraudDetection.Rules
