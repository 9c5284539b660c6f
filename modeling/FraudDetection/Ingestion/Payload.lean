import Mathlib.Algebra.Order.Field.Rat
import Mathlib.Tactic.NormNum
import FraudDetection.Python.Value

/-!
# The payload of a transaction

`TransactionPayload` is a validated request. It is published as a flat dict: the fields of the model
under their own names, next to each other.
-/

namespace FraudDetection.Ingestion

open Python

/-- A `datetime`: the time since the epoch, and the text of its JSON form. -/
structure Datetime where
  seconds : ℤ
  nanos : ℤ
  isoformat : String

/-- A country code, of two or three characters. -/
def CountryCode (code : String) : Prop := 2 ≤ code.length ∧ code.length ≤ 3

/-- `TransactionPayload`: the fields of `TransactionBase` with what validation guarantees, and the
customer. Where the client leaves out the id or the timestamp, validation makes one. -/
structure TransactionPayload where
  transactionId : String
  cardNumber : String
  merchantId : String
  merchantName : String
  merchantCategory : String
  amount : ℚ
  currency : String := "USD"
  timestamp : Datetime
  channel : String := "online"
  ipAddress : Option String := none
  deviceId : Option String := none
  deviceFingerprint : Option String := none
  locationLat : Option ℚ := none
  locationLon : Option ℚ := none
  billingCountry : Option String := none
  shippingCountry : Option String := none
  isRecurring : Bool := false
  isInternational : Bool := false
  metadata : Option (List (String × Json)) := none
  customerId : String
  cardNumber_length : 4 ≤ cardNumber.length
  amount_pos : 0 < amount
  currency_length : currency.length = 3
  locationLat_range : ∀ x ∈ locationLat, -90 ≤ x ∧ x ≤ 90
  locationLon_range : ∀ x ∈ locationLon, -180 ≤ x ∧ x ≤ 180
  billingCountry_code : ∀ code ∈ billingCountry, CountryCode code
  shippingCountry_code : ∀ code ∈ shippingCountry, CountryCode code

namespace TransactionPayload

/-- `None`, or the JSON form of a value. -/
def optional {α : Type} (toJson : α → Json) (o : Option α) : Json := o.elim .null toJson

/-- `payload.model_dump(mode="json")`. The customer's id is one of the fields, so writing it again
changes nothing. -/
def modelDump (p : TransactionPayload) : Json :=
  .dict [
    ("transaction_id", .str p.transactionId),
    ("card_number", .str p.cardNumber),
    ("merchant_id", .str p.merchantId),
    ("merchant_name", .str p.merchantName),
    ("merchant_category", .str p.merchantCategory),
    ("amount", .float p.amount),
    ("currency", .str p.currency),
    ("timestamp", .str p.timestamp.isoformat),
    ("channel", .str p.channel),
    ("ip_address", optional .str p.ipAddress),
    ("device_id", optional .str p.deviceId),
    ("device_fingerprint", optional .str p.deviceFingerprint),
    ("location_lat", optional .float p.locationLat),
    ("location_lon", optional .float p.locationLon),
    ("billing_country", optional .str p.billingCountry),
    ("shipping_country", optional .str p.shippingCountry),
    ("is_recurring", .bool p.isRecurring),
    ("is_international", .bool p.isInternational),
    ("metadata", optional .dict p.metadata),
    ("customer_id", .str p.customerId)]

end TransactionPayload

/-! ## A sample -/

/-- The card number of sample payloads. -/
def sampleCard : String := "tok-4242"

theorem sampleCard_length : 4 ≤ sampleCard.length := by decide

theorem twentyFive_pos : (0 : ℚ) < 25 := by norm_num

theorem usd_length : "USD".length = 3 := by decide

/-- An online payment in dollars. -/
def samplePayload (transactionId customerId merchantId : String) (amount : ℚ) (h : 0 < amount) :
    TransactionPayload where
  transactionId := transactionId
  cardNumber := sampleCard
  merchantId := merchantId
  merchantName := "Shop"
  merchantCategory := "5411"
  amount := amount
  timestamp := ⟨1767225600, 0, "2026-01-01T00:00:00Z"⟩
  customerId := customerId
  cardNumber_length := sampleCard_length
  amount_pos := h
  currency_length := usd_length
  locationLat_range := by simp
  locationLon_range := by simp
  billingCountry_code := by simp
  shippingCountry_code := by simp

end FraudDetection.Ingestion
