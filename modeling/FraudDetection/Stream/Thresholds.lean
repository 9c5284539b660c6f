import FraudDetection.Stream.ThresholdEvaluator

/-!
# Which thresholds the evaluator enforces

Twenty limits are configured, five for each window. The evaluator compares seven of them.
-/

namespace FraudDetection.Stream

open Python

/-! ## Windows and metrics -/

/-- The metrics a limit is configured for. -/
inductive Metric where
  | txnCount
  | txnSum
  | distinctMerchants
  | distinctCountries
  | maxAmount
  deriving DecidableEq, Repr

/-- The name of a metric in the fields of settings and snapshots. -/
def Metric.name : Metric → String
  | txnCount => "txn_count"
  | txnSum => "txn_sum"
  | distinctMerchants => "distinct_merchants"
  | distinctCountries => "distinct_countries"
  | maxAmount => "max_amount"

/-- The name a breach of the pair is reported under, as in `"1m_txn_count"`. -/
def breachName (win : Window) (metric : Metric) : String := win.name ++ "_" ++ metric.name

/-- The snapshot's value for the pair is above the limit configured for it. -/
def Exceeds (settings : StreamProcessorSettings) (snapshot : VelocitySnapshot) (win : Window) :
    Metric → Prop
  | .txnCount => ((snapshot.window win).txnCount : ℤ) > (settings.limits win).txnCount
  | .txnSum => (snapshot.window win).txnSum > (settings.limits win).txnSum
  | .distinctMerchants =>
      ((snapshot.window win).distinctMerchants : ℤ) > (settings.limits win).distinctMerchants
  | .distinctCountries =>
      ((snapshot.window win).distinctCountries : ℤ) > (settings.limits win).distinctCountries
  | .maxAmount => (snapshot.window win).maxAmount > (settings.limits win).maxAmount

/-- The pairs `evaluate` has a branch for. -/
def compared : Window → Metric → Bool
  | .m1, .maxAmount => false
  | .m1, _ => true
  | _, .txnCount => true
  | _, _ => false

section Breaches

variable (settings : StreamProcessorSettings) (snapshot : VelocitySnapshot)

/-- A pair is among the breaches when it is compared and its limit is exceeded. -/
theorem breachName_mem_breaches (win : Window) (metric : Metric) :
    breachName win metric ∈ breaches settings snapshot ↔
      compared win metric = true ∧ Exceeds settings snapshot win metric := by
  cases win <;> cases metric <;>
    simp [breaches, mem_appendIf, breachName, Window.name, Metric.name, compared, Exceeds]

/-- There is no other breach. -/
theorem exists_of_mem_breaches {name : String} (h : name ∈ breaches settings snapshot) :
    ∃ win metric, name = breachName win metric := by
  simp only [breaches, mem_appendIf, List.not_mem_nil, false_or] at h
  rcases h with (((((h | h) | h) | h) | h) | h) | h
  · exact ⟨.m1, .txnCount, h.2⟩
  · exact ⟨.m1, .txnSum, h.2⟩
  · exact ⟨.m1, .distinctMerchants, h.2⟩
  · exact ⟨.m1, .distinctCountries, h.2⟩
  · exact ⟨.m5, .txnCount, h.2⟩
  · exact ⟨.h1, .txnCount, h.2⟩
  · exact ⟨.h24, .txnCount, h.2⟩

theorem breaches_ne_nil :
    breaches settings snapshot ≠ [] ↔
      ∃ win metric, compared win metric = true ∧ Exceeds settings snapshot win metric := by
  constructor
  · intro hne
    obtain ⟨name, hname⟩ := List.exists_mem_of_ne_nil _ hne
    obtain ⟨win, metric, rfl⟩ := exists_of_mem_breaches settings snapshot hname
    exact ⟨win, metric, (breachName_mem_breaches settings snapshot win metric).mp hname⟩
  · rintro ⟨win, metric, h⟩
    exact List.ne_nil_of_mem ((breachName_mem_breaches settings snapshot win metric).mpr h)

end Breaches

/-! ## What is published -/

/-- Some message on the breach topic reports the name. -/
def reportsBreach (settings : StreamProcessorSettings) (name : String)
    (messages : List Message) : Prop :=
  ∃ m ∈ messages, m.topic = settings.velocityBreachTopic ∧
    ∃ names, m.report = .breaches names ∧ name ∈ names

/-- Some message goes to the breach topic. -/
def publishesBreach (settings : StreamProcessorSettings) (messages : List Message) : Prop :=
  ∃ m ∈ messages, m.topic = settings.velocityBreachTopic

section Published

variable {settings : StreamProcessorSettings} {snapshot : VelocitySnapshot} {txnId : Json}
  {stamp : ℕ → Stamp}

/-- The breach topic is not used for anything else. -/
structure OwnTopic (settings : StreamProcessorSettings) : Prop where
  ne_pattern : settings.velocityBreachTopic ≠ settings.fraudPatternTopic
  ne_updated : settings.velocityBreachTopic ≠ settings.velocityUpdatedTopic

/-- A message on the breach topic is the report of the breaches, and they are not empty. -/
theorem of_mem_evaluate (htopic : OwnTopic settings) {m : Message}
    (hm : m ∈ evaluate settings snapshot txnId stamp)
    (hm' : m.topic = settings.velocityBreachTopic) :
    m.report = .breaches (breaches settings snapshot) ∧ breaches settings snapshot ≠ [] := by
  unfold evaluate at hm
  rw [List.mem_append, List.mem_append] at hm
  rcases hm with (hm | hm) | hm
  · split at hm
    · cases hm
    · next hne =>
        rw [List.mem_singleton.mp hm]
        exact ⟨rfl, hne⟩
  · split at hm
    · cases hm
    · rw [List.mem_singleton.mp hm] at hm'
      exact absurd hm'.symm htopic.ne_pattern
  · rw [List.mem_singleton.mp hm] at hm'
    exact absurd hm'.symm htopic.ne_updated

/-- If there are breaches, their report is published. -/
theorem mem_evaluate (hne : breaches settings snapshot ≠ []) :
    message settings snapshot txnId (stamp 0) settings.velocityBreachTopic
      (.breaches (breaches settings snapshot)) ∈ evaluate settings snapshot txnId stamp := by
  unfold evaluate
  rw [if_neg hne]
  exact List.mem_append_left _ (List.mem_append_left _ (List.mem_singleton_self _))

theorem reportsBreach_evaluate (htopic : OwnTopic settings) (name : String) :
    reportsBreach settings name (evaluate settings snapshot txnId stamp) ↔
      name ∈ breaches settings snapshot := by
  constructor
  · rintro ⟨m, hm, hm', names, hreport, hname⟩
    have hbreaches := (of_mem_evaluate htopic hm hm').1
    rw [hbreaches] at hreport
    cases hreport
    exact hname
  · intro hname
    exact ⟨_, mem_evaluate (List.ne_nil_of_mem hname), rfl, _, rfl, hname⟩

theorem publishesBreach_evaluate (htopic : OwnTopic settings) :
    publishesBreach settings (evaluate settings snapshot txnId stamp) ↔
      breaches settings snapshot ≠ [] := by
  constructor
  · rintro ⟨m, hm, hm'⟩
    exact (of_mem_evaluate htopic hm hm').2
  · intro hne
    exact ⟨_, mem_evaluate hne, rfl⟩

end Published

/-! ## Every configured threshold -/

/-- The evaluation reports exactly the pairs that are exceeded, and publishes to the breach topic
exactly when there is one. -/
structure Enforced (settings : StreamProcessorSettings) (snapshot : VelocitySnapshot)
    (messages : List Message) : Prop where
  reported : ∀ win metric, reportsBreach settings (breachName win metric) messages ↔
    Exceeds settings snapshot win metric
  published : publishesBreach settings messages ↔
    ∃ win metric, Exceeds settings snapshot win metric

/-- The limits are enforced on a snapshot exactly when none of the pairs without a comparison is
exceeded by it. -/
theorem enforced_iff (settings : StreamProcessorSettings) (htopic : OwnTopic settings)
    (snapshot : VelocitySnapshot) (txnId : Json) (stamp : ℕ → Stamp) :
    Enforced settings snapshot (evaluate settings snapshot txnId stamp) ↔
      ∀ win metric, compared win metric = false → ¬ Exceeds settings snapshot win metric := by
  constructor
  · intro h win metric hcompared hexceeds
    have hreported := (h.reported win metric).mpr hexceeds
    rw [reportsBreach_evaluate htopic, breachName_mem_breaches, hcompared] at hreported
    cases hreported.1
  · intro h
    have hcompared : ∀ win metric, Exceeds settings snapshot win metric →
        compared win metric = true := by
      intro win metric hexceeds
      by_contra hno
      exact h win metric (Bool.eq_false_of_not_eq_true hno) hexceeds
    refine ⟨?_, ?_⟩
    · intro win metric
      rw [reportsBreach_evaluate htopic, breachName_mem_breaches]
      exact ⟨And.right, fun hexceeds => ⟨hcompared win metric hexceeds, hexceeds⟩⟩
    · rw [publishesBreach_evaluate htopic, breaches_ne_nil]
      constructor
      · rintro ⟨win, metric, -, hexceeds⟩
        exact ⟨win, metric, hexceeds⟩
      · rintro ⟨win, metric, hexceeds⟩
        exact ⟨win, metric, hcompared win metric hexceeds, hexceeds⟩

theorem ownTopic_defaultSettings : OwnTopic defaultSettings :=
  ⟨by decide, by decide⟩

/-- One transaction of the given amount in every window. -/
def singleTransaction (amount : ℚ) : VelocitySnapshot where
  customerId := .str "c-1"
  window := fun _ => ⟨1, amount, 1, 1, amount⟩

/-- A sample stamp. -/
def thresholdStamp : ℕ → Stamp := fun _ => ⟨sampleUuid '0', "2024-01-01T00:00:00+00:00"⟩

/-- No limit is exceeded by a small transaction. -/
theorem enforced_singleTransaction :
    Enforced defaultSettings (singleTransaction 100)
      (evaluate defaultSettings (singleTransaction 100) (.str "t-1") thresholdStamp) := by
  apply (enforced_iff defaultSettings ownTopic_defaultSettings (singleTransaction 100) (.str "t-1")
    thresholdStamp).mpr
  intro win metric _
  cases win <;> cases metric <;> norm_num [Exceeds, singleTransaction, defaultSettings, defaultLimits]

/-- A transaction of 3000 exceeds the limit on the largest amount in a minute, and no breach is
reported. -/
theorem not_enforced_singleTransaction :
    ¬ Enforced defaultSettings (singleTransaction 3000)
      (evaluate defaultSettings (singleTransaction 3000) (.str "t-1") thresholdStamp) := by
  intro h
  have hexceeds : Exceeds defaultSettings (singleTransaction 3000) .m1 .maxAmount := by
    norm_num [Exceeds, singleTransaction, defaultSettings, defaultLimits]
  have hreported := (h.reported .m1 .maxAmount).mpr hexceeds
  rw [reportsBreach_evaluate ownTopic_defaultSettings, breachName_mem_breaches] at hreported
  cases hreported.1

end FraudDetection.Stream
