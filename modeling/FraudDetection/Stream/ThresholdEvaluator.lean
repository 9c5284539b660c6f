import FraudDetection.Stream.Aggregator

/-!
# The threshold evaluator of the stream processor

Every snapshot is compared with configured limits and searched for three fraud patterns. The
breaches and the patterns found are published, each list if it is not empty, and the snapshot always
is.
-/

namespace FraudDetection.Stream

open Python

/-! ## Settings -/

/-- The limits configured for one window. -/
structure Limits where
  txnCount : ℤ
  txnSum : ℚ
  distinctMerchants : ℤ
  distinctCountries : ℤ
  maxAmount : ℚ

/-- The settings the evaluator reads: the limits are `t1m_txn_count`, `t1m_txn_sum` and so on. -/
structure StreamProcessorSettings where
  serviceName : String
  velocityUpdatedTopic : String
  velocityBreachTopic : String
  fraudPatternTopic : String
  limits : Window → Limits

/-- The default limits. -/
def defaultLimits : Window → Limits
  | .m1 => ⟨5, 5000, 3, 1, 2500⟩
  | .m5 => ⟨15, 10000, 8, 2, 5000⟩
  | .h1 => ⟨50, 25000, 20, 3, 10000⟩
  | .h24 => ⟨200, 100000, 50, 5, 25000⟩

/-- The default settings. -/
def defaultSettings : StreamProcessorSettings where
  serviceName := "stream-processor"
  velocityUpdatedTopic := "velocity.updated"
  velocityBreachTopic := "velocity.threshold.breach"
  fraudPatternTopic := "fraud.pattern.detected"
  limits := defaultLimits

/-! ## Breaches and patterns -/

/-- `names.append(name)` under an `if`. -/
def appendIf (condition : Prop) [Decidable condition] (name : String) (names : List String) :
    List String :=
  if condition then names ++ [name] else names

theorem mem_appendIf {condition : Prop} [Decidable condition] {name x : String}
    {names : List String} :
    x ∈ appendIf condition name names ↔ x ∈ names ∨ condition ∧ x = name := by
  unfold appendIf
  split <;> simp_all

/-- The breaches of the configured limits. -/
def breaches (settings : StreamProcessorSettings) (snapshot : VelocitySnapshot) : List String :=
  let m1 := snapshot.window .m1
  let t1m := settings.limits .m1
  []
  |> appendIf ((m1.txnCount : ℤ) > t1m.txnCount) "1m_txn_count"
  |> appendIf (m1.txnSum > t1m.txnSum) "1m_txn_sum"
  |> appendIf ((m1.distinctMerchants : ℤ) > t1m.distinctMerchants) "1m_distinct_merchants"
  |> appendIf ((m1.distinctCountries : ℤ) > t1m.distinctCountries) "1m_distinct_countries"
  |> appendIf (((snapshot.window .m5).txnCount : ℤ) > (settings.limits .m5).txnCount) "5m_txn_count"
  |> appendIf (((snapshot.window .h1).txnCount : ℤ) > (settings.limits .h1).txnCount) "1h_txn_count"
  |> appendIf (((snapshot.window .h24).txnCount : ℤ) > (settings.limits .h24).txnCount)
      "24h_txn_count"

/-- The fraud patterns of a snapshot. -/
def patterns (snapshot : VelocitySnapshot) : List String :=
  let m1 := snapshot.window .m1
  []
  |> appendIf (m1.txnCount > 5 ∧ m1.distinctMerchants > 3 ∧ m1.maxAmount < 10) "CARD_TESTING"
  |> appendIf (m1.distinctCountries > 1) "GEO_ANOMALY"
  |> appendIf (m1.txnCount > 3) "RAPID_FIRE"

theorem geoAnomaly_mem_patterns (snapshot : VelocitySnapshot) :
    "GEO_ANOMALY" ∈ patterns snapshot ↔ 1 < (snapshot.window .m1).distinctCountries := by
  unfold patterns
  simp [mem_appendIf]

/-! ## Messages -/

/-- `snapshot.__dict__` -/
def VelocitySnapshot.dict (snapshot : VelocitySnapshot) : Json :=
  .dict (("customer_id", snapshot.customerId) ::
    windows.flatMap (fun win =>
      [("txn_count_" ++ win.name, .int (snapshot.window win).txnCount),
        ("txn_sum_" ++ win.name, .float (snapshot.window win).txnSum),
        ("distinct_merchants_" ++ win.name, .int (snapshot.window win).distinctMerchants),
        ("distinct_countries_" ++ win.name, .int (snapshot.window win).distinctCountries)])
    ++ windows.map fun win =>
      ("max_amount_" ++ win.name, .float (snapshot.window win).maxAmount))

/-- The id and the time made for a message. -/
structure Stamp where
  uuid : EventUuid
  timestamp : String

/-- What a message reports. -/
inductive Report where
  | breaches (names : List String)
  | patterns (names : List String)
  | updated

/-- The `payload` of a message. -/
def Report.payload (snapshot : VelocitySnapshot) (txnId : Json) : Report → Json
  | breaches names => .dict [
      ("customer_id", snapshot.customerId),
      ("transaction_id", txnId),
      ("breaches", .list (names.map .str)),
      ("snapshot", snapshot.dict)]
  | patterns names => .dict [
      ("customer_id", snapshot.customerId),
      ("transaction_id", txnId),
      ("patterns", .list (names.map .str)),
      ("snapshot", snapshot.dict)]
  | updated => snapshot.dict

/-- A message handed to the producer: its topic, its key, what it reports, and its value. -/
structure Message where
  topic : String
  key : Json
  report : Report
  value : Json

/-- The message that reports `report` on `topic`. -/
def message (settings : StreamProcessorSettings) (snapshot : VelocitySnapshot) (txnId : Json)
    (stamp : Stamp) (topic : String) (report : Report) : Message where
  topic := topic
  key := snapshot.customerId
  report := report
  value := .dict [
    ("metadata", .dict [
      ("event_id", .str ("evt_" ++ stamp.uuid.text)),
      ("event_type", .str topic),
      ("timestamp", .str stamp.timestamp),
      ("source_service", .str settings.serviceName)]),
    ("payload", report.payload snapshot txnId)]

/-- `evaluate`: the messages it publishes, in order, each with a stamp of its own. -/
def evaluate (settings : StreamProcessorSettings) (snapshot : VelocitySnapshot) (txnId : Json)
    (stamp : ℕ → Stamp) : List Message :=
  (if breaches settings snapshot = [] then []
    else [message settings snapshot txnId (stamp 0) settings.velocityBreachTopic
      (.breaches (breaches settings snapshot))])
  ++ (if patterns snapshot = [] then []
    else [message settings snapshot txnId (stamp 1) settings.fraudPatternTopic
      (.patterns (patterns snapshot))])
  ++ [message settings snapshot txnId (stamp 2) settings.velocityUpdatedTopic .updated]

/-- Some message reports the pattern. -/
def reportsPattern (name : String) (messages : List Message) : Prop :=
  ∃ m ∈ messages, ∃ names, m.report = .patterns names ∧ name ∈ names

/-- The evaluator reports the patterns it found. -/
theorem reportsPattern_evaluate (settings : StreamProcessorSettings) (snapshot : VelocitySnapshot)
    (txnId : Json) (stamp : ℕ → Stamp) (name : String) :
    reportsPattern name (evaluate settings snapshot txnId stamp) ↔ name ∈ patterns snapshot := by
  unfold reportsPattern evaluate
  constructor
  · rintro ⟨m, hm, names, hreport, hname⟩
    rw [List.mem_append, List.mem_append] at hm
    rcases hm with (hm | hm) | hm
    · split at hm
      · cases hm
      · rw [List.mem_singleton.mp hm] at hreport
        cases hreport
    · split at hm
      · cases hm
      · rw [List.mem_singleton.mp hm] at hreport
        cases hreport
        exact hname
    · rw [List.mem_singleton.mp hm] at hreport
      cases hreport
  · intro hname
    have hne : patterns snapshot ≠ [] := List.ne_nil_of_mem hname
    rw [if_neg hne]
    exact ⟨_, List.mem_append_left _ (List.mem_append_right _ (List.mem_singleton_self _)),
      patterns snapshot, rfl, hname⟩

end FraudDetection.Stream
