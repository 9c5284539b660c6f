import FraudDetection.Gateway.Page
import FraudDetection.Orchestrator.Pipeline

/-!
# From the request to the page

A request is published on the topic of transactions, the orchestrator publishes its evaluation, and
the gateway sends that to every page with the live feed. The components run independently, and each
of the two topics can hand on a record late, again, or not at all. One page is looked at; the
connections of the others come and go in the gateway.

`Site.Sound` follows the data: what is on a topic comes from what is before it. A step touches one
component, so each step lemma concerns one field. `riskLevel_makeDecision` compares the thresholds
of the page with those of the decision.
-/

namespace FraudDetection.Dashboard

open Async Python Ingestion Kafka Orchestrator Gateway Floats

/-! ## The page -/

/-- The classes of `RiskBadge` -/
inductive RiskLevel where
  | low
  | medium
  | high
  deriving DecidableEq

/-- `RiskBadge` -/
def riskLevel (score : ℚ) : RiskLevel :=
  if 80 ≤ score then .high else if 40 ≤ score then .medium else .low

/-- The badge of a transaction on the page, which shows its `final_score`. -/
def badge (tx : Json) : RiskLevel := riskLevel (numberAt tx "final_score")

/-- `json.dumps` of the orchestrator, and `JSON.parse` of the page. -/
structure Wire where
  dumps : Json → String
  parse : String → Option Json
  parse_dumps : ∀ v, v.WF → parse (dumps v) = some v

/-! ## The site -/

variable {κ σ : Type} [DecidableEq κ]

/-- What the site runs on. -/
structure SiteSetting (σ : Type) where
  wire : Wire
  lib : NumberLib
  pb : Protobuf
  platform : PlatformSetting σ

/-- The requests so far, the transaction service, the topic of transactions as its consumer decodes
it, the engines with the topic of evaluations, and the gateway with a page. -/
structure Site (κ σ : Type) where
  requests : List Submission
  service : Ingestion.World
  topic : List Json
  running : Running (Platform σ)
  viewer : Viewer κ

/-- What can happen: a request, the broker stores a published event, the orchestrator handles a
message, the engines change for another reason, or something happens in the gateway or to the
page. -/
inductive SiteEvent (κ σ : Type) where
  | request (submission : Submission)
  | stored (event : EventEnvelope)
  | handled (value : Json)
  | changed (platform : Platform σ)
  | viewer (event : ViewerEvent κ)

/-- The site after an event. -/
def Site.step (S : SiteSetting σ) (s : Site κ σ) : SiteEvent κ σ → Site κ σ
  | .request r =>
      { s with
        requests := s.requests ++ [r]
        service := ((handle r.isInitialised r.toArrival).run (answer r.faults) s.service).final }
  | .stored event => { s with topic := s.topic ++ [event.toDict] }
  | .handled value =>
      { s with
        running := ((processMessage S.lib S.pb value).run S.platform.engines.answer s.running).final }
  | .changed platform => { s with running := { s.running with engines := platform } }
  | .viewer event => { s with viewer := s.viewer.step event }

/-- A topic hands on what is on it: any record, any number of times. -/
def Site.Enabled (S : SiteSetting σ) (s : Site κ σ) : SiteEvent κ σ → Prop
  | .request _ => True
  | .stored event => event ∈ s.service.events
  | .handled value => value ∈ s.topic
  | .changed _ => True
  | .viewer event =>
      s.viewer.Enabled event ∧ ∀ text ∈ event.yields, ∃ e ∈ s.running.events, text = S.wire.dumps e

/-- The site before its first request. -/
def newSite (platform : Platform σ) : Site κ σ := ⟨[], ⟨[], [], []⟩, [], ⟨platform, []⟩, newViewer⟩

/-- The site after any history. -/
def Site.Reachable (S : SiteSetting σ) (s : Site κ σ) : Prop :=
  ∃ platform history, Throughout (Site.step S) (Site.Enabled S) (newSite platform) history ∧
    s = runEvents (Site.step S) (newSite platform) history

/-- The transactions on the page. -/
def Site.page (S : SiteSetting σ) (s : Site κ σ) : List Json :=
  transactions S.wire.parse s.viewer.received

/-! ## The thresholds of the page -/

theorem riskLevel_low {score : ℚ} (h : riskLevel score = .low) : score < 40 := by
  unfold riskLevel at h
  by_contra hge
  split at h
  · cases h
  · rw [if_pos (not_lt.mp hge)] at h
    cases h

theorem riskLevel_high {score : ℚ} : riskLevel score = .high ↔ 80 ≤ score := by
  unfold riskLevel
  by_cases h : 80 ≤ score
  · simp [h]
  · rw [if_neg h]
    split <;> simp [h]

/-- The page never plays a decision down or up: what it marks as low is at most to be reviewed, what
is blocked it marks as high, and what it marks as high is at least declined. -/
theorem riskLevel_makeDecision (score : ℚ) :
    (riskLevel (binary64.times score 100) = .low → makeDecision score .default ≤ .review) ∧
      (makeDecision score .default = .block → riskLevel (binary64.times score 100) = .high) ∧
      (riskLevel (binary64.times score 100) = .high → .decline ≤ makeDecision score .default) := by
  have hpercent : ∀ {x y : ℚ}, x ≤ y → binary64.times x 100 ≤ binary64.times y 100 :=
    fun hxy => binary64.mono (mul_le_mul_of_nonneg_right hxy (by norm_num))
  -- the thresholds as percentages
  have hsixty : binary64.times (binary64.round (6 / 10)) 100 = 60 := by decide +kernel
  have heightyfive : 80 ≤ binary64.times (binary64.round (85 / 100)) 100 := by decide +kernel
  refine ⟨?_, ?_, ?_⟩
  · intro hlow
    by_contra hsevere
    have hscore : binary64.round (6 / 10) ≤ score := by
      by_contra hlt
      have hmild := makeDecision_mono (not_le.mp hlt).le .default
      exact hsevere (hmild.trans (by decide +kernel))
    have hlt := riskLevel_low hlow
    have hle := hpercent hscore
    linarith
  · intro hblock
    rw [riskLevel_high]
    by_contra hlow
    have hscore : score ≤ binary64.round (85 / 100) := by
      by_contra hgt
      exact hlow (heightyfive.trans (hpercent (not_le.mp hgt).le))
    have hmild := makeDecision_mono hscore .default
    rw [hblock] at hmild
    exact absurd hmild (by decide +kernel)
  · intro hhigh
    have hscore : (7 / 10 : ℚ) ≤ score := by
      by_contra hlt
      have hle := hpercent (not_le.mp hlt).le
      have hseventy : binary64.times (7 / 10) 100 < 80 := by decide +kernel
      have hge := riskLevel_high.mp hhigh
      linarith
    exact le_trans (by decide +kernel) (makeDecision_mono hscore .default)

/-! ## The way of the data -/

/-- The evaluation of a request. -/
def Evaluates (requests : List Submission) (event : Json) : Prop :=
  ∃ r ∈ requests, ∃ scores : Scores, scores.Valid ∧ event = evaluatedTransaction r.payload scores

/-- What every step keeps: each part of the site has its data from the one before it. -/
structure Site.Sound (S : SiteSetting σ) (s : Site κ σ) : Prop where
  service : Served s.requests s.service
  topic : ∀ value ∈ s.topic, ∃ r ∈ s.requests, value = r.event.toDict
  evaluated : ∀ event ∈ s.running.events, Evaluates s.requests event
  yielded : ∀ text ∈ s.viewer.live.yielded, ∃ event ∈ s.running.events, text = S.wire.dumps event
  viewer : s.viewer.Sound

section Way

variable {S : SiteSetting σ} {s : Site κ σ} {event : SiteEvent κ σ}

theorem Evaluates.append {requests : List Submission} {e : Json} (h : Evaluates requests e)
    (r : Submission) : Evaluates (requests ++ [r]) e := by
  obtain ⟨r', hr', hscores⟩ := h
  exact ⟨r', List.mem_append_left _ hr', hscores⟩

theorem sound_request (h : s.Sound S) (r : Submission) : (s.step S (.request r)).Sound S :=
  { h with
    service := h.service.handle r
    topic := by
      intro value hvalue
      obtain ⟨r', hr', rfl⟩ := h.topic value hvalue
      exact ⟨r', List.mem_append_left _ hr', rfl⟩
    evaluated := fun e he => (h.evaluated e he).append r }

theorem sound_stored (h : s.Sound S) {e : EventEnvelope} (he : e ∈ s.service.events) :
    (s.step S (.stored e)).Sound S :=
  { h with
    topic := by
      intro value hvalue
      rcases List.mem_append.mp hvalue with hvalue | hvalue
      · exact h.topic value hvalue
      · rw [h.service.events] at he
        obtain ⟨r, hr, rfl⟩ := List.mem_map.mp he
        exact ⟨r, hr, List.mem_singleton.mp hvalue⟩ }

/-- Whatever the engines do, the orchestrator publishes nothing, or an evaluation of the message
that it handles. -/
theorem events_handled (s : Site κ σ) (r : Submission) :
    (s.step S (.handled r.event.toDict)).running.events = s.running.events ∨
      ∃ scores : Scores, scores.Valid ∧ (s.step S (.handled r.event.toDict)).running.events
        = s.running.events ++ [evaluatedTransaction r.payload scores] := by
  have hrun := @leads_processMessage_yields _ S.platform.engines S.lib S.pb r.event.toDict s.running
  rcases hrun with hsame | ⟨fs, scores, hpayload, hyields, happend⟩
  · exact Or.inl hsame
  · obtain rfl : entries r.payload.modelDump = fs := Json.dict.inj (Except.ok.inj hpayload)
    rw [eventOf_modelDump] at happend
    exact Or.inr ⟨scores, hyields.valid, happend⟩

theorem sound_handled (h : s.Sound S) {value : Json} (hvalue : value ∈ s.topic) :
    (s.step S (.handled value)).Sound S := by
  obtain ⟨r, hr, rfl⟩ := h.topic value hvalue
  have hold : ∀ e ∈ s.running.events, e ∈ (s.step S (.handled r.event.toDict)).running.events := by
    intro e he
    rcases events_handled (S := S) s r with hsame | ⟨scores, -, happend⟩
    · rwa [hsame]
    · rw [happend]
      exact List.mem_append_left _ he
  refine { h with evaluated := ?_, yielded := ?_ }
  · intro e he
    rcases events_handled (S := S) s r with hsame | ⟨scores, hvalid, happend⟩
    · rw [hsame] at he
      exact h.evaluated e he
    · rw [happend, List.mem_append, List.mem_singleton] at he
      rcases he with he | rfl
      · exact h.evaluated e he
      · exact ⟨r, hr, scores, hvalid, rfl⟩
  · intro text htext
    obtain ⟨e, he, rfl⟩ := h.yielded text htext
    exact ⟨e, hold e he, rfl⟩

theorem sound_step (h : s.Sound S) (hok : s.Enabled S event) :
    (s.step S event).Sound S := by
  cases event with
  | request r => exact sound_request h r
  | stored e => exact sound_stored h hok
  | handled value => exact sound_handled h hok
  | changed platform => exact { h with }
  | viewer event =>
    obtain ⟨henabled, htexts⟩ := hok
    refine { h with yielded := ?_, viewer := sound_viewerStep h.viewer henabled }
    intro text htext
    change text ∈ (s.viewer.step event).live.yielded at htext
    rw [yielded_viewerStep, List.mem_append] at htext
    exact htext.elim (h.yielded text) (htexts text)

theorem reachable_newSite (platform : Platform σ) :
    (newSite platform : Site κ σ).Reachable S := ⟨platform, [], trivial, rfl⟩

theorem Site.Reachable.step (h : s.Reachable S) (hok : s.Enabled S event) :
    (s.step S event).Reachable S := by
  obtain ⟨platform, history, hhistory, rfl⟩ := h
  exact ⟨platform, history ++ [event], hhistory.concat hok, (runEvents_concat _ _ _).symm⟩

theorem Site.Reachable.sound (h : s.Reachable S) : s.Sound S := by
  obtain ⟨platform, history, hhistory, rfl⟩ := h
  refine Throughout.invariant (fun t event => sound_step) hhistory ?_
  exact ⟨served [], nofun, nofun, nofun, sound_newViewer⟩

end Way

theorem wf_evaluatedTransaction (p : TransactionPayload) (scores : Scores) :
    (evaluatedTransaction p scores).WF := by
  refine .dict (by simp) ?_
  simp only [List.forall_mem_cons]
  exact ⟨.str _, .str _, .str _, .float _, .str _, .str _, .float _, .float _, .float _, .float _,
    .str _, .str _, nofun⟩

theorem badge_evaluatedTransaction (p : TransactionPayload) (scores : Scores) :
    badge (evaluatedTransaction p scores) = riskLevel (binary64.times scores.final 100) := rfl

/-- Every transaction on the page, at every point of every run, is that of a request: it bears the
request's data and the decision on valid scores, its badge agrees with the decision, and its row is
in the database if the database took it. -/
theorem page_shows_requests (S : SiteSetting σ) (s : Site κ σ) (hs : s.Reachable S) :
    ∀ tx ∈ s.page S, ∃ r ∈ s.requests, ∃ scores : Scores, scores.Valid ∧
      tx = evaluatedTransaction r.payload scores ∧
      (r.accepted = true → r.payload.transactionId ∈ s.service.ids) ∧
      let decision := makeDecision scores.final .default
      (badge tx = .low → decision ≤ .review) ∧ (decision = .block → badge tx = .high) ∧
        (badge tx = .high → .decline ≤ decision) := by
  intro tx htx
  have hsound := hs.sound
  have hread : tx ∈ s.viewer.received.filterMap S.wire.parse := by
    rw [Site.page, transactions_eq] at htx
    exact List.mem_reverse.mp (List.mem_of_mem_take htx)
  obtain ⟨text, htext, hparse⟩ := List.mem_filterMap.mp hread
  obtain ⟨event, hevent, rfl⟩ := hsound.yielded text (hsound.viewer.yielded text htext)
  obtain ⟨r, hr, scores, hvalid, rfl⟩ := hsound.evaluated event hevent
  obtain rfl : evaluatedTransaction r.payload scores = tx :=
    Option.some.inj ((S.wire.parse_dumps _ (wf_evaluatedTransaction _ _)).symm.trans hparse)
  refine ⟨r, hr, scores, hvalid, rfl, ?_, ?_⟩
  · intro haccepted
    exact (hsound.service.mem_ids _).mpr ⟨r, hr, rfl, haccepted⟩
  · rw [badge_evaluatedTransaction]
    exact riskLevel_makeDecision _

/-- An evaluation reaches a page that opens its first connection. -/
theorem reachable_shown {S : SiteSetting σ} {s : Site κ σ} (hs : s.Reachable S)
    (hnew : s.viewer = newViewer) {event : Json} (hevent : event ∈ s.running.events) (c : κ) :
    ∃ t : Site κ σ, t.Reachable S ∧ t.requests = s.requests ∧
      t.viewer.received = [S.wire.dumps event] := by
  obtain ⟨requests, service, topic, running, viewer⟩ := s
  obtain rfl : viewer = newViewer := hnew
  have hstarted : (Site.step S _ (.viewer (.gateway .started))).Reachable S := hs.step ⟨rfl, nofun⟩
  have hopened : (Site.step S _ (.viewer (.opened c))).Reachable S :=
    hstarted.step ⟨⟨rfl, List.not_mem_nil⟩, nofun⟩
  have hmessage : (Site.step S _ (.viewer (.gateway (.message (S.wire.dumps event))))).Reachable S :=
    hopened.step ⟨rfl, fun text htext => ⟨event, hevent, List.mem_singleton.mp htext⟩⟩
  have hsent : (Site.step S _ (.viewer (.gateway .sent))).Reachable S := hmessage.step ⟨rfl, nofun⟩
  refine ⟨_, hsent, rfl, ?_⟩
  exact if_pos rfl

/-! ### One payment -/

/-- The compact codec on both ends. -/
def compactWire : Wire where
  dumps v := String.ofList (CompactJson.print v)
  parse text := CompactJson.parse text.toList
  parse_dumps v hv := by rw [String.toList_ofList, CompactJson.parse_print hv]

/-- A site with one rule and no model. -/
def paymentSetting : SiteSetting Rules.RedisStore where
  wire := compactWire
  lib := compactNumbers
  pb := lenientProtobuf
  platform := lossyPlatform

/-- A payment that the database takes. -/
def submittedPayment : Submission := retriedPayment "e-1" {}

/-- The site once the event of the payment is on the topic. -/
def submitted : Site ℕ Rules.RedisStore :=
  ((newSite ⟨fun _ => none, .empty, fun _ => 0⟩).step paymentSetting (.request submittedPayment)).step
    paymentSetting (.stored submittedPayment.event)

theorem submitted_reachable : submitted.Reachable paymentSetting := by
  have hrequest : (Site.step paymentSetting (newSite ⟨fun _ => none, .empty, fun _ => 0⟩)
      (.request submittedPayment) : Site ℕ Rules.RedisStore).Reachable paymentSetting :=
    (reachable_newSite _).step trivial
  have hserved : Served [submittedPayment] _ := (served []).handle submittedPayment
  refine hrequest.step ?_
  change submittedPayment.event ∈ ((handle submittedPayment.isInitialised
    submittedPayment.toArrival).run (answer submittedPayment.faults) (serve [])).final.events
  rw [hserved.events]
  exact List.mem_singleton_self _

/-- The payment arrives on the page. -/
theorem page_shows_requests_payment :
    ∃ s : Site ℕ Rules.RedisStore, (s.page paymentSetting).length = 1 ∧
      ∀ tx ∈ s.page paymentSetting, ∃ scores : Scores, scores.Valid ∧
        tx = evaluatedTransaction submittedPayment.payload scores := by
  have hhandled : (submitted.step paymentSetting (.handled submittedPayment.event.toDict)).Reachable
      paymentSetting := submitted_reachable.step (List.mem_singleton_self _)
  have hpublished := @leads_processMessage_eventOf _ _ paymentSetting.lib paymentSetting.pb
    (sound_engines regular_lossyPlatform) submittedPayment.event.toDict
    (entries submittedPayment.payload.modelDump) rfl (List.cons_ne_nil _ _) submitted.running
  have hevents := congrArg Running.events hpublished.2
  rw [eventOf_modelDump] at hevents
  have hevent : _ ∈ (submitted.step paymentSetting
      (.handled submittedPayment.event.toDict)).running.events :=
    (List.Perm.of_eq hevents).mem_iff.mpr (List.mem_append_right _ (List.mem_singleton_self _))
  obtain ⟨s, hs, hrequests, htexts⟩ := reachable_shown hhandled rfl hevent 0
  refine ⟨s, ?_, ?_⟩
  · rw [Site.page, htexts, transactions_eq, List.filterMap_cons_some
      (paymentSetting.wire.parse_dumps _ (wf_evaluatedTransaction _ _))]
    rfl
  · intro tx htx
    obtain ⟨r, hr, scores, hvalid, htx, -⟩ := page_shows_requests paymentSetting s hs tx htx
    rw [hrequests] at hr
    obtain rfl : r = submittedPayment := List.mem_singleton.mp hr
    exact ⟨scores, hvalid, htx⟩

end FraudDetection.Dashboard
