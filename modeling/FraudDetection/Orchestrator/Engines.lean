import FraudDetection.Orchestrator.Consume

/-!
# Engines that keep a state

The engines learn from the transactions they are asked about: a call counts in Redis and draws in
the graph. The scores of a message therefore depend on the messages before it.

`Engines.evaluations` says what a sequence of payloads comes to, one after the other.
`leads_loop_evaluations` ties the consume loop to it, for engines whose answers are in range. Of
other engines `leads_consume_yields` says less: what is published has valid scores that they gave.
-/

namespace FraudDetection.Orchestrator

open Async Python Floats

/-- How the engines answer in a state, and what a call leaves; and how Redis answers the updates of
the counters of the dashboard. -/
structure Engines (S : Type) where
  call : Request → S → Except Exn Double × S
  redis : Op → S → Except Exn Unit

/-- A score is in range, and a failure is an `Exception`. -/
def Answers (r : Except Exn Double) : Prop :=
  (∀ score, r = .ok score → score.Unit) ∧ ∀ x, r = .error x → x.isException = true

/-- Engines whose answers are in range, whatever state they are in. -/
structure Engines.Sound {S : Type} (E : Engines S) : Prop where
  call : ∀ request s, Answers (E.call request s).1
  redis : ∀ op s x, E.redis op s = .error x → x.isException = true

/-- The engines, and the events published so far. -/
structure Running (S : Type) where
  engines : S
  events : List Json

section Spec

variable {S : Type} (E : Engines S)

/-- Answer an operation. The producer works. -/
def Engines.answer : (op : Op) → Running S → Except Exn (Ret op) × Running S
  | .getone, t => (.ok (), t)
  | .rpc request, t => ((E.call request t.engines).1, { t with engines := (E.call request t.engines).2 })
  | .sendAndWait value, t => (.ok (), { t with events := t.events ++ [value] })
  | .incr key, t => (E.redis (.incr key) t.engines, t)
  | .incrbyfloat key amount, t => (E.redis (.incrbyfloat key amount) t.engines, t)

variable (pb : Protobuf)

/-- The score that the client of an engine returns, and the state it leaves. -/
def Engines.scoreOf (engine : Engine) (payload : Json) (s : S) : Double × S :=
  match requestFor engine payload with
  | .error _ => (0, s)
  | .ok request =>
      match pb.construct request with
      | .error _ => (0, s)
      | .ok _ =>
          match E.call request s with
          | (.ok score, s') => (score, s')
          | (.error _, s') => (0, s')

/-- The scores of a payload, and the state they leave. -/
def Engines.scoresOf (payload : Json) (s : S) : Scores × S :=
  let rule := E.scoreOf pb .ruleEngine payload s
  let ml := E.scoreOf pb .mlScoring payload rule.2
  let graph := E.scoreOf pb .graphAnalysis payload ml.2
  (⟨rule.1, ml.1, graph.1, 0⟩, graph.2)

/-- The scores of payloads one after the other, and the state they leave. -/
def Engines.evaluations : List Json → S → List Scores × S
  | [], s => ([], s)
  | payload :: payloads, s =>
      let first := E.scoresOf pb payload s
      let rest := Engines.evaluations payloads first.2
      (first.1 :: rest.1, rest.2)

end Spec

/-- The event for a payload with its scores. -/
def eventOf (fs : List (String × Json)) (scores : Scores) : Json :=
  .dict [
    ("transaction_id", (fs.lookup "transaction_id").getD .null),
    ("customer_id", (fs.lookup "customer_id").getD .null),
    ("merchant_name", (fs.lookup "merchant_name").getD .null),
    ("amount", (fs.lookup "amount").getD .null),
    ("currency", (fs.lookup "currency").getD (.str "USD")),
    ("timestamp", (fs.lookup "timestamp").getD .null),
    ("rule_score", .float scores.ruleScore.value),
    ("ml_score", .float scores.mlScore.value),
    ("graph_score", .float scores.graphScore.value),
    ("final_score", .float scores.percent),
    ("decision", .str (makeDecision scores.final .default).value),
    ("type", (fs.lookup "transaction_type").getD (.str "CREDIT"))]

section Loop

variable {S : Type} {E : Engines S} {lib : NumberLib} {pb : Protobuf}

/-- The client returns the score of its engine, in every world in which the calls are those of the
engines. -/
theorem leads_evaluate_of_calls {T : Type} {ans : (op : Op) → T → Except Exn (Ret op) × T}
    {put : S → T} (hE : E.Sound)
    (hans : ∀ request s, ans (.rpc request) (put s) = ((E.call request s).1, put (E.call request s).2))
    (engine : Engine) (payload : Json)
    (hpayload : ∀ x, requestFor engine payload = .error x → x.isException = true) (s : S) :
    Prog.Leads ans (evaluate pb engine payload) (put s) fun r t =>
      r = .ok (E.scoreOf pb engine payload s).1 ∧ t = put (E.scoreOf pb engine payload s).2 := by
  unfold evaluate Engines.scoreOf
  rw [Prog.leads_tryExcept, Prog.leads_bind, Prog.leads_lift]
  cases hrequest : requestFor engine payload with
  | error x => simp [hpayload x hrequest]
  | ok request =>
    simp only [Prog.leads_bind, Prog.leads_lift]
    cases hconstruct : pb.construct request with
    | error x => simp [pb.construct_exception _ _ hconstruct]
    | ok u =>
      simp only [Prog.leads_await, hans]
      obtain ⟨-, hexception⟩ := hE.call request s
      cases hcall : E.call request s with
      | mk r s' =>
        cases r with
        | ok score => simp
        | error x => simp [hexception x (by rw [hcall])]

/-- The client returns the score of its engine. -/
theorem leads_evaluate_scoreOf (hE : E.Sound) (engine : Engine) (payload : Json)
    (hpayload : ∀ x, requestFor engine payload = .error x → x.isException = true) (t : Running S) :
    Prog.Leads E.answer (evaluate pb engine payload) t fun r t' =>
      r = .ok (E.scoreOf pb engine payload t.engines).1 ∧
        t' = ⟨(E.scoreOf pb engine payload t.engines).2, t.events⟩ :=
  @leads_evaluate_of_calls S E pb (Running S) E.answer (fun s => ⟨s, t.events⟩) hE (fun _ _ => rfl)
    engine payload hpayload t.engines

/-- A request is for its engine. -/
theorem engine_of_requestFor {engine : Engine} {payload : Json} {request : Request}
    (h : requestFor engine payload = .ok request) : request.engine = engine := by
  cases payload with
  | dict fs =>
    obtain ⟨request', hrequest, hengine⟩ := requestFor_dict engine fs
    rw [h] at hrequest
    cases hrequest
    exact hengine
  | _ => cases engine <;> cases h

/-- A score is zero, or an answer of its engine. -/
theorem scoreOf_cases (engine : Engine) (payload : Json) (s : S) :
    (E.scoreOf pb engine payload s).1 = 0 ∨ ∃ request, request.engine = engine ∧
      (E.call request s).1 = .ok (E.scoreOf pb engine payload s).1 := by
  unfold Engines.scoreOf
  cases hrequest : requestFor engine payload with
  | error x => exact Or.inl rfl
  | ok request =>
    dsimp only
    cases pb.construct request with
    | error x => exact Or.inl rfl
    | ok u =>
      dsimp only
      cases hcall : E.call request s with
      | mk r s' =>
        cases r with
        | ok score => exact Or.inr ⟨request, engine_of_requestFor hrequest, by rw [hcall]⟩
        | error x => exact Or.inl rfl

/-- The score that a client returns is in range. -/
theorem scoreOf_unit (hE : E.Sound) (engine : Engine) (payload : Json) (s : S) :
    (E.scoreOf pb engine payload s).1.Unit := by
  rcases @scoreOf_cases _ E pb engine payload s with hzero | ⟨request, -, hcall⟩
  · rw [hzero]
    exact Double.unit_zero
  · exact (hE.call request s).1 _ hcall

theorem scoresOf_valid_of_sound (hE : E.Sound) (payload : Json) (s : S) :
    (E.scoresOf pb payload s).1.Valid :=
  Scores.valid_iff.mpr ⟨scoreOf_unit hE _ _ _, scoreOf_unit hE _ _ _, scoreOf_unit hE _ _ _,
    Double.unit_zero⟩

/-- A program that changes nothing and raises nothing else. -/
def Engines.Quiet (E : Engines S) (C : Exn → Prop) {α : Type} (p : Coroutine α) : Prop :=
  ∀ t, Prog.Leads E.answer p t fun r t' => (∀ x, r = .error x → C x) ∧ t' = t

section Quiet

variable {C : Exn → Prop}

theorem Engines.Quiet.bind {α β : Type} {p : Coroutine α} {g : α → Coroutine β} (hp : E.Quiet C p)
    (hg : ∀ a, E.Quiet C (g a)) : E.Quiet C (p >>= g) := by
  intro t
  rw [Prog.leads_bind]
  refine (hp t).mono ?_
  rintro r t' ⟨hr, rfl⟩
  cases r with
  | ok a => exact hg a t'
  | error x =>
    refine ⟨?_, rfl⟩
    rintro y ⟨⟩
    exact hr x rfl

theorem Engines.Quiet.pure {α : Type} (a : α) : E.Quiet C (Pure.pure a : Coroutine α) := by
  intro t
  rw [Prog.leads_pure]
  exact ⟨nofun, rfl⟩

theorem quiet_incr (hredis : ∀ op s x, E.redis op s = .error x → C x) (key : String) :
    E.Quiet C (Prog.await (Op.incr key)) := by
  intro t
  rw [Prog.leads_await]
  exact ⟨fun x hx => hredis _ _ x hx, rfl⟩

theorem quiet_incrbyfloat (hredis : ∀ op s x, E.redis op s = .error x → C x) (key : String)
    (amount : ℚ) : E.Quiet C (Prog.await (Op.incrbyfloat key amount)) := by
  intro t
  rw [Prog.leads_await]
  exact ⟨fun x hx => hredis _ _ x hx, rfl⟩

/-- The amount that is added to a counter, or an `Exception`. -/
theorem quiet_amount (hC : ∀ x : Exn, x.isException = true → C x) (payload : Json) :
    E.Quiet C (Prog.lift (payload.get "amount" (.float 0) >>= lib.toFloat) : Coroutine ℚ) := by
  intro t
  rw [Prog.leads_lift]
  refine ⟨?_, rfl⟩
  intro x hx
  rcases bind_eq_error.mp hx with hget | ⟨v, -, hfloat⟩
  · exact hC x (Json.isException_of_get hget)
  · exact hC x (isException_of_toFloat hfloat)

/-- The updates of the counters leave the engines and the events alone, and raise what Redis does at
most, unless it is caught. -/
theorem leads_updateKpis_of_redis (hC : ∀ x : Exn, x.isException = true → C x)
    (hredis : ∀ op s x, E.redis op s = .error x → C x) (payload : Json) (decision : FraudDecision)
    (t : Running S) :
    Prog.Leads E.answer (updateKpis lib payload decision) t fun r t' =>
      (∀ x, r = .error x → C x ∧ x.isException = false) ∧ t' = t := by
  have hupdates : E.Quiet C (do
      Prog.await (Op.incr "metrics:total_tx")
      let amount ← Prog.lift (payload.get "amount" (.float 0) >>= lib.toFloat)
      Prog.await (Op.incrbyfloat "metrics:total_volume" amount)
      if decision.value = "block" then
        Prog.await (Op.incr "metrics:blocked_tx")
        Prog.await (Op.incr "metrics:fraud_tx")
      else if decision.value = "review" then
        Prog.await (Op.incr "metrics:fraud_tx")) := by
    refine (quiet_incr hredis _).bind fun _ => (quiet_amount hC payload).bind fun amount =>
      (quiet_incrbyfloat hredis _ amount).bind fun _ => ?_
    split
    · exact (quiet_incr hredis _).bind fun _ => quiet_incr hredis _
    · split
      · exact quiet_incr hredis _
      · exact .pure ()
  unfold updateKpis
  rw [Prog.leads_tryExcept]
  refine (hupdates t).mono ?_
  rintro r t' ⟨hr, rfl⟩
  cases r with
  | ok u => exact ⟨nofun, rfl⟩
  | error x =>
    dsimp only
    split
    · exact ⟨nofun, rfl⟩
    · rename_i hx
      refine ⟨?_, rfl⟩
      rintro y ⟨⟩
      exact ⟨hr x rfl, by simpa using hx⟩

end Quiet

/-- The updates of the counters return, and leave the engines alone. -/
theorem leads_updateKpis_of_sound (hE : E.Sound) (payload : Json) (decision : FraudDecision)
    (t : Running S) :
    Prog.Leads E.answer (updateKpis lib payload decision) t fun r t' => r = .ok () ∧ t' = t := by
  refine (leads_updateKpis_of_redis (fun x hx => hx) hE.redis payload decision t).mono ?_
  rintro r t' ⟨hr, rfl⟩
  cases r with
  | ok u => exact ⟨rfl, rfl⟩
  | error x =>
    obtain ⟨hexception, hno⟩ := hr x rfl
    rw [hexception] at hno
    cases hno

/-- The body of the loop publishes the event of a payload that is a dict, and returns. -/
theorem leads_processMessage_eventOf (hE : E.Sound) {value : Json} {fs : List (String × Json)}
    (hpayload : payloadOf value = .ok (.dict fs)) (hfs : fs ≠ []) (t : Running S) :
    Prog.Leads E.answer (processMessage lib pb value) t fun r t' =>
      r = .ok () ∧ t' = ⟨(E.scoresOf pb (.dict fs) t.engines).2,
        t.events ++ [eventOf fs (E.scoresOf pb (.dict fs) t.engines).1]⟩ := by
  have htruthy : (Json.dict fs).truthy = true := by
    cases fs with
    | nil => exact absurd rfl hfs
    | cons f fs => rfl
  have hdict : ∀ engine x, requestFor engine (.dict fs) = .error x → x.isException = true := by
    intro engine x hx
    obtain ⟨request, hrequest, -⟩ := requestFor_dict engine fs
    rw [hrequest] at hx
    cases hx
  have hvalid : (E.scoresOf pb (.dict fs) t.engines).1.Valid := scoresOf_valid_of_sound hE _ _
  unfold processMessage
  rw [hpayload, Prog.lift_ok, pure_bind, if_pos htruthy, Json.get_dict, Prog.lift_ok, pure_bind,
    Prog.leads_bind_of_ok _ (leads_evaluate_scoreOf hE .ruleEngine (.dict fs) (hdict _) t),
    Prog.leads_bind_of_ok _ (leads_evaluate_scoreOf hE .mlScoring (.dict fs) (hdict _) _),
    Prog.leads_bind_of_ok _ (leads_evaluate_scoreOf hE .graphAnalysis (.dict fs) (hdict _) _)]
  show Prog.Leads _
    (Prog.lift (aggregate binary64 lib.toPyLib (E.scoresOf pb (.dict fs) t.engines).1 weights) >>= _) _ _
  rw [aggregate_final hvalid, Prog.lift_ok, pure_bind]
  show Prog.Leads _ (Prog.await (Op.sendAndWait _) >>= _) _ _
  rw [Prog.leads_bind, Prog.leads_await]
  exact leads_updateKpis_of_sound hE _ _ _

/-- A message with a payload that is a dict with entries. -/
structure Carries (value : Json) (fs : List (String × Json)) : Prop where
  payload : payloadOf value = .ok (.dict fs)
  nonempty : fs ≠ []

/-- The loop publishes one event for each message, and leaves the engines as the payloads do. -/
theorem leads_loop_evaluations (hE : E.Sound) {values : List Json}
    {payloads : List (List (String × Json))} (h : List.Forall₂ Carries values payloads)
    (t : Running S) :
    Prog.Leads E.answer (loop lib pb values) t fun r t' =>
      r = .ok () ∧
        t' = ⟨(E.evaluations pb (payloads.map .dict) t.engines).2, t.events ++
          payloads.zipWith eventOf (E.evaluations pb (payloads.map .dict) t.engines).1⟩ := by
  induction h generalizing t with
  | nil =>
    refine ⟨rfl, ?_⟩
    show t = ⟨t.engines, t.events ++ []⟩
    rw [List.append_nil]
  | @cons value fs values payloads hfirst hrest ih =>
    rw [loop, Prog.leads_bind, Prog.leads_await]
    show Prog.Leads _ (processMessage lib pb value >>= _) t _
    rw [Prog.leads_bind_of_ok _
      (leads_processMessage_eventOf hE hfirst.payload hfirst.nonempty t)]
    refine (ih _).mono ?_
    rintro r t' ⟨hr, rfl⟩
    refine ⟨hr, ?_⟩
    dsimp only
    rw [List.append_assoc]
    rfl

theorem length_evaluations (E : Engines S) (pb : Protobuf) (payloads : List Json) (s : S) :
    (E.evaluations pb payloads s).1.length = payloads.length := by
  induction payloads generalizing s with
  | nil => rfl
  | cons payload payloads ih =>
    rw [Engines.evaluations, List.length_cons, ih, List.length_cons]

/-- What holds of the scores of every payload in every state. -/
theorem forall_evaluations {P : Scores → Prop}
    (h : ∀ payload s, P (E.scoresOf pb payload s).1) (payloads : List Json) (s : S) :
    ∀ scores ∈ (E.evaluations pb payloads s).1, P scores := by
  induction payloads generalizing s with
  | nil =>
    intro scores hscores
    cases hscores
  | cons payload payloads ih =>
    intro scores hscores
    rcases List.mem_cons.mp hscores with rfl | hrest
    · exact h payload s
    · exact ih _ scores hrest

/-! ## Engines of any kind -/

/-- A score that a client returns: zero, or an answer of its engine. -/
def Engines.Gives (E : Engines S) (engine : Engine) (score : Double) : Prop :=
  score = 0 ∨ ∃ request s, request.engine = engine ∧ (E.call request s).1 = .ok score

/-- The scores of a message that is published. -/
structure Engines.Yields (E : Engines S) (scores : Scores) : Prop where
  valid : scores.Valid
  rule : E.Gives .ruleEngine scores.ruleScore
  ml : E.Gives .mlScoring scores.mlScore
  graph : E.Gives .graphAnalysis scores.graphScore
  history : scores.historicalScore = 0

/-- A client publishes nothing, and what it returns is a score of its engine. -/
theorem leads_evaluate_gives (engine : Engine) (payload : Json) (t : Running S) :
    Prog.Leads E.answer (evaluate pb engine payload) t fun r t' =>
      t'.events = t.events ∧ ∀ score, r = .ok score → E.Gives engine score := by
  have hfailed : ∀ (x : Exn) (t' : Running S), t'.events = t.events →
      if x.isException then
        Prog.Leads E.answer (pure 0 : Coroutine Double) t' fun r t'' =>
          t''.events = t.events ∧ ∀ score, r = .ok score → E.Gives engine score
      else t'.events = t.events ∧
        ∀ score, (.error x : Except Exn Double) = .ok score → E.Gives engine score := by
    intro x t' ht'
    split
    · refine ⟨ht', ?_⟩
      rintro score ⟨⟩
      exact Or.inl rfl
    · exact ⟨ht', nofun⟩
  unfold evaluate
  rw [Prog.leads_tryExcept, Prog.leads_bind, Prog.leads_lift]
  cases hrequest : requestFor engine payload with
  | error x => exact hfailed x t rfl
  | ok request =>
    dsimp only
    rw [Prog.leads_bind, Prog.leads_lift]
    cases pb.construct request with
    | error x => exact hfailed x t rfl
    | ok u =>
      dsimp only
      rw [Prog.leads_await]
      cases hcall : E.call request t.engines with
      | mk r s' =>
        have hanswer : E.answer (.rpc request) t = (r, { t with engines := s' }) := by
          rw [Engines.answer, hcall]
        rw [hanswer]
        cases r with
        | error x => exact hfailed x _ rfl
        | ok score =>
          refine ⟨rfl, ?_⟩
          rintro score' ⟨⟩
          exact Or.inr ⟨request, t.engines, engine_of_requestFor hrequest, by rw [hcall]⟩

/-- The body of the loop publishes nothing, or the event of a dict with its scores. -/
theorem leads_processMessage_yields (value : Json) (t : Running S) :
    Prog.Leads E.answer (processMessage lib pb value) t fun _ t' =>
      t'.events = t.events ∨ ∃ fs scores, payloadOf value = .ok (.dict fs) ∧ E.Yields scores ∧
        t'.events = t.events ++ [eventOf fs scores] := by
  unfold processMessage
  rw [Prog.leads_bind, Prog.leads_lift]
  cases hpayload : payloadOf value with
  | error x => exact Or.inl rfl
  | ok payload =>
    dsimp only
    split
    · rw [Prog.leads_bind, Prog.leads_lift]
      cases hid : payload.get "transaction_id" .null with
      | error x => exact Or.inl rfl
      | ok id =>
        obtain ⟨fs, rfl⟩ := Json.dict_of_get hid
        dsimp only
        rw [Prog.leads_bind]
        refine (leads_evaluate_gives .ruleEngine _ t).mono ?_
        rintro (x | ruleScore) t₁ ⟨hevents₁, hrule⟩
        · exact Or.inl hevents₁
        dsimp only
        rw [Prog.leads_bind]
        refine (leads_evaluate_gives .mlScoring _ t₁).mono ?_
        rintro (x | mlScore) t₂ ⟨hevents₂, hml⟩
        · exact Or.inl (hevents₂.trans hevents₁)
        dsimp only
        rw [Prog.leads_bind]
        refine (leads_evaluate_gives .graphAnalysis _ t₂).mono ?_
        rintro (x | graphScore) t₃ ⟨hevents₃, hgraph⟩
        · exact Or.inl (hevents₃.trans (hevents₂.trans hevents₁))
        have hevents : t₃.events = t.events := hevents₃.trans (hevents₂.trans hevents₁)
        dsimp only
        rw [Prog.leads_bind, Prog.leads_lift]
        cases haggregate : aggregate binary64 lib.toPyLib ⟨ruleScore, mlScore, graphScore, 0⟩ weights with
        | error x => exact Or.inl hevents
        | ok finalScore =>
          -- what is aggregated is valid
          have hvalid : (⟨ruleScore, mlScore, graphScore, 0⟩ : Scores).Valid := by
            by_contra hnot
            obtain ⟨x, hx, -⟩ := @aggregate_error binary64 lib.toPyLib weights _ hnot
            rw [hx] at haggregate
            cases haggregate
          obtain rfl := aggregate_eq_final haggregate
          dsimp only
          rw [Prog.leads_bind, Prog.leads_lift]
          show Prog.Leads _ (Prog.await (Op.sendAndWait (eventOf fs ⟨ruleScore, mlScore, graphScore, 0⟩))
            >>= _) _ _
          rw [Prog.leads_bind, Prog.leads_await]
          refine (leads_updateKpis_of_redis (C := fun _ => True) (fun _ _ => trivial)
            (fun _ _ _ _ => trivial) _ _ _).mono ?_
          rintro r t₄ ⟨-, rfl⟩
          refine Or.inr ⟨fs, _, rfl, ⟨hvalid, hrule _ rfl, hml _ rfl, hgraph _ rfl, rfl⟩, ?_⟩
          exact congrArg (· ++ [eventOf fs _]) hevents
    · exact Or.inl rfl

/-- Whatever the engines and Redis do, what the loop publishes are events of dicts with their
scores. -/
theorem leads_loop_yields (values : List Json) (t : Running S) :
    Prog.Leads E.answer (loop lib pb values) t fun _ t' =>
      ∀ event ∈ t'.events, event ∈ t.events ∨
        ∃ fs scores, E.Yields scores ∧ event = eventOf fs scores := by
  induction values generalizing t with
  | nil => exact fun event hevent => Or.inl hevent
  | cons value values ih =>
    rw [loop, Prog.leads_bind, Prog.leads_await]
    show Prog.Leads _ (processMessage lib pb value >>= _) t _
    rw [Prog.leads_bind]
    refine (leads_processMessage_yields value t).mono ?_
    intro r t₁ hone
    have hstep : ∀ event ∈ t₁.events, event ∈ t.events ∨
        ∃ fs scores, E.Yields scores ∧ event = eventOf fs scores := by
      intro event hevent
      rcases hone with hsame | ⟨fs, scores, -, hyields, happend⟩
      · rw [hsame] at hevent
        exact Or.inl hevent
      · rw [happend, List.mem_append, List.mem_singleton] at hevent
        exact hevent.imp_right fun h => ⟨fs, scores, hyields, h⟩
    cases r with
    | error x => exact hstep
    | ok u =>
      refine (ih t₁).mono ?_
      intro r t₂ hrest event hevent
      rcases hrest event hevent with h | h
      · exact hstep event h
      · exact Or.inr h

/-- So are those that `consume` publishes. -/
theorem leads_consume_yields (values : List Json) (s : S) :
    Prog.Leads E.answer (consume lib pb values) ⟨s, []⟩ fun _ t' =>
      ∀ event ∈ t'.events, ∃ fs scores, E.Yields scores ∧ event = eventOf fs scores := by
  unfold consume
  rw [Prog.leads_tryExcept]
  refine (leads_loop_yields values ⟨s, []⟩).mono ?_
  intro r t' h
  have hevents : ∀ event ∈ t'.events, ∃ fs scores, E.Yields scores ∧ event = eventOf fs scores :=
    fun event hevent => (h event hevent).resolve_left List.not_mem_nil
  cases r with
  | ok u => exact hevents
  | error x =>
    dsimp only
    split
    · exact hevents
    · exact hevents

end Loop

end FraudDetection.Orchestrator
