import FraudDetection.Async.Gather
import FraudDetection.Graph.Queries
import FraudDetection.Orchestrator.Pipeline

/-!
# Three engines at once

The orchestrator awaits its three clients together: the Redis commands of the rule engine and the
queries of the graph come in any order. `processMessage` calls one engine after the other.

`interleaved_iff` compares the two. Operations of different engines are independent
(`independent_perform`), and a client carried out by the services returns what `Engines.scoreOf`
says (`leads_client`), so the general fact on gatherings applies.
-/

namespace FraudDetection.Orchestrator

open Async Python Rules Ingestion MlScoring Floats
open FraudDetection.Graph

/-! ## The services -/

/-- What the services await: how the next call of an engine fares, a Redis command of the rule
engine, a query of the graph. -/
inductive ServiceOp where
  | deliver (engine : Engine)
  | redis (op : Rules.Op)
  | neo4j (op : Query)

abbrev ServiceRet : ServiceOp → Type
  | .deliver _ => Delivery Exn
  | .redis op => Rules.Ret op
  | .neo4j op => op.Ret

/-- The engine that an operation is of. -/
def ServiceOp.engine : ServiceOp → Engine
  | .deliver engine => engine
  | .redis _ => .ruleEngine
  | .neo4j _ => .graphAnalysis

/-- A coroutine of a service. -/
abbrev Servicing := Prog ServiceRet Exn

section Services

variable {σ : Type} (P : PlatformSetting σ)

/-- Answer an operation. -/
def PlatformSetting.perform : (op : ServiceOp) → Platform σ → Except Exn (ServiceRet op) × Platform σ
  | .deliver engine, t =>
      (.ok (P.fate engine ((t.called engine).calls engine)), t.called engine)
  | .redis op, t => ((P.velocity op t.redis).1, { t with redis := (P.velocity op t.redis).2 })
  | .neo4j op, t =>
      let x := Database.answer (P.driver (t.calls .graphAnalysis)) op t.graph
      (x.1, { t with graph := x.2 })

/-- A coroutine of the rule engine, on the Redis of the platform. -/
def onRedis {α : Type} (p : Rules.Coroutine α) : Servicing α :=
  p.carriedOut fun op => Prog.await (ServiceOp.redis op)

/-- A program of queries, on the graph of the platform. -/
def onNeo4j {α : Type} (p : Prog Query.Ret Exn α) : Servicing α :=
  p.carriedOut fun op => Prog.await (ServiceOp.neo4j op)

/-- What fails in a service is a failed call to its caller. -/
def guarded {α : Type} (p : Servicing α) : Servicing α :=
  Prog.tryExcept p (fun _ => true) fun _ => .raise rpcError

/-- `EvaluateRules`, `PredictFraud` or `AnalyzeGraph`. -/
def PlatformSetting.service (request : Request) : Servicing Double :=
  match request.engine with
  | .ruleEngine => guarded do
      let result ← onRedis (evaluateTransaction binary64 P.py (fetchActiveRules P.table)
        (sentContext P.inherited request))
      return result.ruleScore
  | .mlScoring => pure (.num (predict P.model (receivedPrediction request)).mlScore)
  | .graphAnalysis => guarded do
      let reply ← onNeo4j (analysis (receivedMessage request))
      match reply.internal with
      | none => return .num reply.result.graphScore
      | some _ => .raise rpcError

/-- A call over the network. A call without an answer has been carried out. -/
def PlatformSetting.rpc (request : Request) : Servicing Double := do
  let delivery ← Prog.await (ServiceOp.deliver request.engine)
  match delivery with
  | .answered => P.service request
  | .unanswered x => do
      let _ ← (P.service request).attempt
      .raise x
  | .lost x => .raise x

/-- What a client awaits: calls only. -/
def PlatformSetting.carryOut : (op : Op) → Servicing (Ret op)
  | .getone => pure ()
  | .rpc request => P.rpc request
  | .sendAndWait _ => pure ()
  | .incr _ => pure ()
  | .incrbyfloat _ _ => pure ()

/-- The task of a client. -/
def PlatformSetting.client (pb : Protobuf) (payload : Json) (engine : Engine) : Servicing Double :=
  (evaluate pb engine payload).carriedOut P.carryOut

/-- The evaluations of payloads, where the three tasks of each take turns in some order until they
have ended. -/
inductive Interleaved (pb : Protobuf) :
    List Json → Platform σ → List Scores → Platform σ → Prop
  | nil (t : Platform σ) : Interleaved pb [] t [] t
  | cons {payload : Json} {payloads : List Json} {t t' : Platform σ} {schedule : List Engine}
      {score : Engine → Double} {scores : List Scores}
      (h : ∀ engine, (Gathering.exec P.perform schedule ⟨P.client pb payload, t⟩).Ended engine
        (.ok (score engine)))
      (hrest : Interleaved pb payloads
        (Gathering.exec P.perform schedule ⟨P.client pb payload, t⟩).shared scores t') :
      Interleaved pb (payload :: payloads) t
        (⟨score .ruleEngine, score .mlScoring, score .graphAnalysis, 0⟩ :: scores) t'

end Services

/-! ## One call -/

section Calls

variable {σ : Type} {P : PlatformSetting σ} {pb : Protobuf} {request : Request} {t : Platform σ}

theorem leads_guarded {α : Type} {p : Servicing α} {Q : Except Exn α → Platform σ → Prop} :
    Prog.Leads P.perform (guarded p) t Q ↔ Prog.Leads P.perform p t fun r t' =>
      match r with
      | .ok a => Q (.ok a) t'
      | .error _ => Q (.error rpcError) t' := by
  unfold guarded
  rw [Prog.leads_tryExcept]
  unfold Prog.Leads
  cases (p.run P.perform t).result with
  | ok a => exact Iff.rfl
  | error x => exact Iff.rfl

theorem leads_onRedis {α : Type} {p : Rules.Coroutine α} {Q : Except Exn α → Platform σ → Prop} :
    Prog.Leads P.perform (onRedis p) t Q ↔
      Prog.Leads P.velocity p t.redis fun r redis => Q r { t with redis := redis } := by
  unfold onRedis
  rw [Prog.leads_carriedOut]
  refine @Prog.leads_framed _ _ _ _ _ _ P.velocity _ (fun redis => { t with redis := redis }) ?_ p t.redis Q
  intro op redis
  rw [Prog.run_await]
  rfl

theorem leads_onNeo4j {α : Type} {p : Prog Query.Ret Exn α} {Q : Except Exn α → Platform σ → Prop} :
    Prog.Leads P.perform (onNeo4j p) t Q ↔
      Prog.Leads (Database.answer (P.driver (t.calls .graphAnalysis))) p t.graph
        fun r graph => Q r { t with graph := graph } := by
  unfold onNeo4j
  rw [Prog.leads_carriedOut]
  refine @Prog.leads_framed _ _ _ _ _ _ (Database.answer (P.driver (t.calls .graphAnalysis))) _
    (fun graph => { t with graph := graph }) ?_ p t.graph Q
  intro op graph
  rw [Prog.run_await]
  rfl

/-- A service answers as `PlatformSetting.serve` says. -/
theorem leads_service (request : Request) (t : Platform σ) :
    Prog.Leads P.perform (P.service request) t fun r t' =>
      r = (P.serve request t).1 ∧ t' = (P.serve request t).2 := by
  unfold PlatformSetting.service PlatformSetting.serve
  cases request.engine with
  | ruleEngine =>
    dsimp only
    rw [leads_guarded, Prog.leads_bind, leads_onRedis]
    unfold Prog.Leads
    cases ((evaluateTransaction binary64 P.py (fetchActiveRules P.table)
      (sentContext P.inherited request)).run P.velocity t.redis).result with
    | ok result => exact ⟨rfl, rfl⟩
    | error x => exact ⟨rfl, rfl⟩
  | mlScoring => exact ⟨rfl, rfl⟩
  | graphAnalysis =>
    dsimp only
    rw [leads_guarded, Prog.leads_bind, leads_onNeo4j]
    refine (leads_analysis _ _ _).mono ?_
    rintro r graph ⟨rfl, rfl⟩
    cases analyzeGraph (t.graph.client (P.driver (t.calls .graphAnalysis)) (receivedMessage request))
        (receivedMessage request) with
    | error x => exact ⟨rfl, rfl⟩
    | ok reply =>
      obtain ⟨internal, result⟩ := reply
      cases internal with
      | none => exact ⟨rfl, rfl⟩
      | some details => exact ⟨rfl, rfl⟩

/-- A call goes as `PlatformSetting.engines` says. -/
theorem leads_rpc (request : Request) (t : Platform σ) :
    Prog.Leads P.perform (P.rpc request) t fun r t' =>
      r = (P.engines.call request t).1 ∧ t' = (P.engines.call request t).2 := by
  unfold PlatformSetting.rpc PlatformSetting.engines
  rw [Prog.leads_bind, Prog.leads_await]
  simp only [PlatformSetting.perform]
  cases P.fate request.engine ((t.called request.engine).calls request.engine) with
  | answered => exact leads_service request _
  | unanswered x =>
    dsimp only
    rw [Prog.leads_bind, Prog.leads_attempt]
    refine (leads_service request _).mono ?_
    rintro r t' ⟨-, rfl⟩
    exact ⟨rfl, rfl⟩
  | lost x => exact ⟨rfl, rfl⟩

theorem exception_of_requestFor {engine : Engine} {payload : Json} {x : Exn}
    (h : requestFor engine payload = .error x) : x.isException = true := by
  cases payload with
  | dict fs =>
    obtain ⟨request, hrequest, -⟩ := requestFor_dict engine fs
    rw [hrequest] at h
    cases h
  | _ => cases engine <;> cases h <;> rfl

/-- A client returns the score of its engine. -/
theorem leads_client (hP : P.Regular) (pb : Protobuf) (payload : Json) (engine : Engine)
    (t : Platform σ) :
    Prog.Leads P.perform (P.client pb payload engine) t fun r t' =>
      r = .ok (P.engines.scoreOf pb engine payload t).1 ∧
        t' = (P.engines.scoreOf pb engine payload t).2 := by
  unfold PlatformSetting.client
  rw [Prog.leads_carriedOut]
  refine @leads_evaluate_of_calls _ _ _ _ _ id (sound_engines hP) ?_ engine payload
    (fun x => exception_of_requestFor) t
  intro request s
  exact Prod.ext (leads_rpc request s).1 (leads_rpc request s).2

end Calls

/-! ## Three tasks -/

section Tasks

variable {σ : Type} {P : PlatformSetting σ} {pb : Protobuf} {payload : Json}

theorem asks_onRedis {α : Type} (p : Rules.Coroutine α) :
    (onRedis p).Asks fun op => op.engine = .ruleEngine :=
  p.asks_any.carriedOut fun _ _ => Prog.asks_await rfl

theorem asks_onNeo4j {α : Type} (p : Prog Query.Ret Exn α) :
    (onNeo4j p).Asks fun op => op.engine = .graphAnalysis :=
  p.asks_any.carriedOut fun _ _ => Prog.asks_await rfl

theorem asks_rpc (request : Request) :
    (P.rpc request).Asks fun op => op.engine = request.engine := by
  have hservice : (P.service request).Asks fun op => op.engine = request.engine := by
    unfold PlatformSetting.service
    cases hengine : request.engine with
    | ruleEngine =>
      refine ((asks_onRedis _).bind ?_).tryExcept fun x => trivial
      intro result
      trivial
    | mlScoring => trivial
    | graphAnalysis =>
      refine ((asks_onNeo4j _).bind ?_).tryExcept fun x => trivial
      intro reply
      cases reply.internal with
      | none => trivial
      | some details => trivial
  have hdeliver : (Prog.await (ServiceOp.deliver request.engine) : Servicing _).Asks
      fun op => op.engine = request.engine := Prog.asks_await rfl
  refine hdeliver.bind ?_
  intro delivery
  cases delivery with
  | answered => exact hservice
  | unanswered x => exact hservice.attempt.bind fun r => trivial
  | lost x => trivial

/-- A task awaits operations of its engine only. -/
theorem asks_client (engine : Engine) :
    (P.client pb payload engine).Asks fun op => op.engine = engine := by
  have hcalls : (evaluate pb engine payload).Asks
      fun op => ∃ request, op = .rpc request ∧ request.engine = engine := by
    unfold evaluate
    refine Prog.Asks.tryExcept ?_ fun x => trivial
    cases hrequest : requestFor engine payload with
    | error x => trivial
    | ok request =>
      rw [Prog.lift_ok, pure_bind]
      refine (Prog.asks_lift _).bind ?_
      intro u
      exact ⟨⟨request, rfl, engine_of_requestFor hrequest⟩, fun r => by cases r <;> trivial⟩
  refine hcalls.carriedOut ?_
  rintro op ⟨request, rfl, rfl⟩
  exact asks_rpc request

theorem calls_called_of_ne {t : Platform σ} {engine engine' : Engine} (h : engine ≠ engine') :
    (t.called engine').calls engine = t.calls engine :=
  Function.update_of_ne h _ _

theorem called_comm (t : Platform σ) {engine engine' : Engine} (h : engine ≠ engine') :
    (t.called engine').called engine = (t.called engine).called engine' := by
  have hcalls : ((t.called engine').called engine).calls = ((t.called engine).called engine').calls := by
    show Function.update (t.called engine').calls engine ((t.called engine').calls engine + 1) =
      Function.update (t.called engine).calls engine' ((t.called engine).calls engine' + 1)
    rw [calls_called_of_ne h, calls_called_of_ne h.symm]
    exact (Function.update_comm h _ _ _).symm
  exact congrArg (fun calls => (⟨t.redis, t.graph, calls⟩ : Platform σ)) hcalls

/-- The delivery of a call does not meet the operations of other engines. -/
theorem independent_deliver {engine : Engine} {op : ServiceOp} (h : engine ≠ op.engine) :
    Independent P.perform (.deliver engine) op := by
  cases op with
  | deliver engine' =>
    have hne : engine ≠ engine' := h
    refine ⟨?_, ?_, fun t => called_comm t hne⟩
    · intro t
      simp only [PlatformSetting.perform]
      rw [called_comm t hne, calls_called_of_ne hne]
    · intro t
      simp only [PlatformSetting.perform]
      rw [← called_comm t hne, calls_called_of_ne hne.symm]
  | redis op => exact ⟨fun t => rfl, fun t => rfl, fun t => rfl⟩
  | neo4j op =>
    have hcalls : ∀ t : Platform σ, (t.called engine).calls .graphAnalysis = t.calls .graphAnalysis :=
      fun t => calls_called_of_ne (Ne.symm h)
    refine ⟨fun t => rfl, ?_, ?_⟩
    · intro t
      simp only [PlatformSetting.perform]
      rw [hcalls]
      rfl
    · intro t
      simp only [PlatformSetting.perform]
      rw [hcalls]
      rfl

/-- Operations of different engines are independent: they work on different parts of the
platform. -/
theorem independent_perform {op op' : ServiceOp} (h : op.engine ≠ op'.engine) :
    Independent P.perform op op' := by
  cases op with
  | deliver engine => exact independent_deliver h
  | redis op =>
    cases op' with
    | deliver engine' => exact (independent_deliver h.symm).symm
    | redis op' => exact absurd rfl h
    | neo4j op' => exact ⟨fun t => rfl, fun t => rfl, fun t => rfl⟩
  | neo4j op =>
    cases op' with
    | deliver engine' => exact (independent_deliver h.symm).symm
    | redis op' => exact ⟨fun t => rfl, fun t => rfl, fun t => rfl⟩
    | neo4j op' => exact absurd rfl h

/-- The tasks of a message work on different parts of the platform. -/
theorem separate_client : Gathering.Separate P.perform ServiceOp.engine (P.client pb payload) :=
  ⟨asks_client, fun _ _ => independent_perform⟩

/-- The tasks one after the other give the scores of the payload. -/
theorem inOrder_client (hP : P.Regular) (t : Platform σ) :
    Gathering.inOrder P.perform (P.client pb payload) [.ruleEngine, .mlScoring, .graphAnalysis] t =
      ([.ok (P.engines.scoresOf pb payload t).1.ruleScore, .ok (P.engines.scoresOf pb payload t).1.mlScore,
        .ok (P.engines.scoresOf pb payload t).1.graphScore], (P.engines.scoresOf pb payload t).2) := by
  simp only [Gathering.inOrder]
  rw [(leads_client hP pb payload .ruleEngine t).1, (leads_client hP pb payload .ruleEngine t).2,
    (leads_client hP pb payload .mlScoring _).1, (leads_client hP pb payload .mlScoring _).2,
    (leads_client hP pb payload .graphAnalysis _).1, (leads_client hP pb payload .graphAnalysis _).2]
  rfl

/-- However the tasks take turns, they return the scores of the payload, and leave what it
leaves. -/
theorem scores_of_ended (hP : P.Regular) {t : Platform σ} {schedule : List Engine}
    {result : Engine → Except Exn Double}
    (h : ∀ engine, (Gathering.exec P.perform schedule ⟨P.client pb payload, t⟩).Ended engine
      (result engine)) :
    result .ruleEngine = .ok (P.engines.scoresOf pb payload t).1.ruleScore ∧
      result .mlScoring = .ok (P.engines.scoresOf pb payload t).1.mlScore ∧
      result .graphAnalysis = .ok (P.engines.scoresOf pb payload t).1.graphScore ∧
      (Gathering.exec P.perform schedule ⟨P.client pb payload, t⟩).shared
        = (P.engines.scoresOf pb payload t).2 := by
  have horder : ∀ engine ∈ schedule, engine ∈ [Engine.ruleEngine, .mlScoring, .graphAnalysis] := by
    intro engine _
    cases engine <;> decide
  have heq := @Gathering.exec_eq_inOrder _ _ _ _ _ _ _ P.perform ⟨P.client pb payload, t⟩ schedule
    ServiceOp.engine separate_client _ (by decide) horder result fun engine _ => h engine
  rw [inOrder_client hP] at heq
  simp only [List.map_cons, List.map_nil, Prod.mk.injEq, List.cons.injEq, and_true] at heq
  obtain ⟨⟨hrule, hml, hgraph⟩, hshared⟩ := heq
  exact ⟨hrule.symm, hml.symm, hgraph.symm, hshared.symm⟩

end Tasks

/-! ## Runs -/

section Runs

variable {σ : Type} {P : PlatformSetting σ} {pb : Protobuf} {payloads : List Json} {t t' : Platform σ}
  {scores : List Scores}

/-- The evaluations in any order of turns are those of the sequential loop. -/
theorem interleaved_iff (hP : P.Regular) :
    Interleaved P pb payloads t scores t' ↔ P.engines.evaluations pb payloads t = (scores, t') := by
  constructor
  · intro h
    induction h with
    | nil t => rfl
    | @cons payload payloads t t' schedule score scores h hrest ih =>
      obtain ⟨hrule, hml, hgraph, hshared⟩ := scores_of_ended hP h
      rw [hshared] at ih
      rw [Engines.evaluations, ih, Except.ok.inj hrule, Except.ok.inj hml, Except.ok.inj hgraph]
      rfl
  · intro h
    induction payloads generalizing t scores with
    | nil =>
      cases h
      exact .nil _
    | cons payload payloads ih =>
      cases h
      obtain ⟨schedule, -, hended⟩ := @Gathering.exists_schedule _ _ _ _ _ _ _ P.perform
        ⟨P.client pb payload, t⟩ [Engine.ruleEngine, .mlScoring, .graphAnalysis] (by decide)
      have hall : ∀ engine, ∃ result,
          (Gathering.exec P.perform schedule ⟨P.client pb payload, t⟩).Ended engine result := by
        intro engine
        exact hended engine (by cases engine <;> decide)
      choose result hresult using hall
      obtain ⟨hrule, hml, hgraph, hshared⟩ := scores_of_ended hP hresult
      let score : Engine → Double
        | .ruleEngine => (P.engines.scoresOf pb payload t).1.ruleScore
        | .mlScoring => (P.engines.scoresOf pb payload t).1.mlScore
        | .graphAnalysis => (P.engines.scoresOf pb payload t).1.graphScore
      have hscore : ∀ engine,
          (Gathering.exec P.perform schedule ⟨P.client pb payload, t⟩).Ended engine
            (.ok (score engine)) := by
        intro engine
        have hengine : result engine = .ok (score engine) := by
          cases engine with
          | ruleEngine => exact hrule
          | mlScoring => exact hml
          | graphAnalysis => exact hgraph
        rw [← hengine]
        exact hresult engine
      refine @Interleaved.cons _ P pb payload payloads t _ schedule score _ hscore ?_
      rw [hshared]
      exact ih rfl

/-- The orchestrator awaits three clients at once, and their commands and queries come in any order:
whatever the order for each message, the events published are those of the loop that calls one
engine after the other, and so is what the services keep. -/
theorem interleavings_agree (lib : NumberLib) (pb : Protobuf) (P : PlatformSetting σ) (hP : P.Regular)
    {values : List Json} {payloads : List (List (String × Json))}
    (h : List.Forall₂ Carries values payloads) (t : Platform σ) :
    let run := (consume lib pb values).run P.engines.answer ⟨t, []⟩
    run.result = .ok () ∧
      (∃ scores t', Interleaved P pb (payloads.map .dict) t scores t') ∧
      ∀ scores t', Interleaved P pb (payloads.map .dict) t scores t' →
        run.final = ⟨t', payloads.zipWith eventOf scores⟩ := by
  intro run
  have hconsume : Prog.Leads P.engines.answer (consume lib pb values) ⟨t, []⟩
      fun r final => r = .ok () ∧
        final = ⟨(P.engines.evaluations pb (payloads.map .dict) t).2,
          payloads.zipWith eventOf (P.engines.evaluations pb (payloads.map .dict) t).1⟩ := by
    unfold consume
    rw [Prog.leads_tryExcept]
    refine (leads_loop_evaluations (sound_engines hP) h ⟨t, []⟩).mono ?_
    rintro r final ⟨rfl, rfl⟩
    exact ⟨rfl, rfl⟩
  obtain ⟨hresult, hfinal⟩ := hconsume
  refine ⟨hresult, ⟨_, _, (interleaved_iff hP).mpr rfl⟩, ?_⟩
  intro scores t' hinterleaved
  have hevaluations := (interleaved_iff hP).mp hinterleaved
  rw [hevaluations] at hfinal
  exact hfinal

end Runs

theorem interleavings_agree_lossy :
    let requests := [retriedPayment "e-1" {}, retriedPayment "e-2" {}]
    let payloads := requests.map fun r => entries r.payload.modelDump
    let t : Platform RedisStore := ⟨fun _ => none, .empty, fun _ => 0⟩
    let run := (consume compactNumbers lenientProtobuf (messages requests)).run
      lossyPlatform.engines.answer ⟨t, []⟩
    run.result = .ok () ∧
      (∃ scores t', Interleaved lossyPlatform lenientProtobuf (payloads.map .dict) t scores t') ∧
      ∀ scores t', Interleaved lossyPlatform lenientProtobuf (payloads.map .dict) t scores t' →
        run.final = ⟨t', payloads.zipWith eventOf scores⟩ :=
  interleavings_agree compactNumbers lenientProtobuf lossyPlatform regular_lossyPlatform
    (messages_carry _) _

end FraudDetection.Orchestrator
