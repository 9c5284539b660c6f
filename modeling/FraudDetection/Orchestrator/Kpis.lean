import FraudDetection.Orchestrator.Isolation

/-!
# The dashboard counters

After an event is published the loop counts it in Redis: every one under `total_tx`, its amount
under `total_volume`, and by its decision under `blocked_tx` and `fraud_tx`. An amount that is no
float ends the updates of its message after `total_tx`.

`leads_updateKpis_counting` says which keys one message moves, and `Consistent` is kept by it: each
counter is a count over the evaluated messages. A decision is a function of the final score, so what
is counted as fraud is a set of scores, with a gap where the decision is DECLINE.
-/

namespace FraudDetection.Orchestrator

open Async Python Floats

/-! ## The counters -/

/-- The published events and the values of the keys. A key that does not exist counts from zero. -/
structure Dashboard where
  events : List Json
  kpis : String → ℚ

namespace Dashboard

/-- Nothing is published or counted. -/
def empty : Dashboard := ⟨[], fun _ => 0⟩

/-- Publish an event. -/
def publish (event : Json) (d : Dashboard) : Dashboard :=
  { d with events := d.events ++ [event] }

/-- `INCR key` -/
def incr (d : Dashboard) (key : String) : Dashboard :=
  { d with kpis := Function.update d.kpis key (d.kpis key + 1) }

/-- `INCRBYFLOAT key amount` -/
def incrbyfloat (lib : NumberLib) (d : Dashboard) (key : String) (amount : ℚ) : Dashboard :=
  { d with kpis := Function.update d.kpis key (lib.incrSum (d.kpis key) amount) }

end Dashboard

/-- The world of the message in progress, those of the messages to come, and the dashboard. -/
structure Counting where
  world : World
  pending : List World
  board : Dashboard

/-- Answer an operation. Beside the engines, Redis works. -/
def Counting.answer (lib : NumberLib) : (op : Op) → Counting → Except Exn (Ret op) × Counting
  | .getone, t => (.ok (), { t with world := t.pending.headD t.world, pending := t.pending.tail })
  | .rpc request, t => (t.world.engines request, t)
  | .sendAndWait value, t => (.ok (), { t with board := t.board.publish value })
  | .incr key, t => (.ok (), { t with board := t.board.incr key })
  | .incrbyfloat key amount, t => (.ok (), { t with board := t.board.incrbyfloat lib key amount })

/-- The dashboard after the messages have been consumed. -/
def dashboard (lib : NumberLib) (pb : Protobuf) (ms : List Incoming) : Dashboard :=
  ((consume lib pb (ms.map Incoming.value)).run (Counting.answer lib)
    ⟨idleWorld, ms.map Incoming.world, .empty⟩).final.board

/-! ## What a message says -/

namespace Incoming

/-- The amount. -/
def amount (m : Incoming) : ℚ :=
  match payloadOf m.value with
  | .ok payload => numberAt payload "amount"
  | .error _ => 0

/-- `float(payload.get("amount", 0.0))`, unless it raises. -/
def counted (lib : NumberLib) (m : Incoming) : Option ℚ :=
  match payloadOf m.value >>= fun payload => payload.get "amount" (.float 0) >>= lib.toFloat with
  | .ok q => some q
  | .error _ => none

/-- The final score. -/
def finalScore (pb : Protobuf) (m : Incoming) : ℚ :=
  match payloadOf m.value with
  | .ok payload => (scoresOf pb m.world payload).final
  | .error _ => 0

/-- The decision with the default thresholds. -/
def decision (pb : Protobuf) (m : Incoming) : FraudDecision := makeDecision (m.finalScore pb) .default

/-- What is counted under `blocked_tx`. -/
def CountedAsBlocked (lib : NumberLib) (pb : Protobuf) (m : Incoming) : Prop :=
  m.decision pb = .block ∧ m.counted lib ≠ none

/-- What is counted under `fraud_tx`. -/
def CountedAsFraud (lib : NumberLib) (pb : Protobuf) (m : Incoming) : Prop :=
  (m.decision pb = .block ∨ m.decision pb = .review) ∧ m.counted lib ≠ none

instance (lib : NumberLib) (pb : Protobuf) (m : Incoming) : Decidable (m.CountedAsBlocked lib pb) :=
  inferInstanceAs (Decidable (_ ∧ _))

instance (lib : NumberLib) (pb : Protobuf) (m : Incoming) : Decidable (m.CountedAsFraud lib pb) :=
  inferInstanceAs (Decidable (_ ∧ _))

end Incoming

/-- The messages for which an event is published. -/
def evaluated (lib : NumberLib) (pb : Protobuf) : List Incoming → List Incoming
  | [] => []
  | m :: ms =>
      match outcome lib pb m.world m.value with
      | .raised _ => []
      | .skipped => evaluated lib pb ms
      | .published _ => m :: evaluated lib pb ms

section One

variable {lib : NumberLib} {pb : Protobuf} {w : World} {d : Dashboard}

theorem serves_counting (lib : NumberLib) (w : World) (pending : List World) :
    Serves w (Counting.answer lib) (fun d => ⟨w, pending, d⟩) Dashboard.publish :=
  ⟨fun _ _ => rfl, fun _ _ => rfl⟩

/-- What the updates leave of the counters. -/
def Dashboard.update (lib : NumberLib) (d : Dashboard) (decision : FraudDecision) :
    Option ℚ → Dashboard
  | none => d.incr "metrics:total_tx"
  | some amount =>
      let d := (d.incr "metrics:total_tx").incrbyfloat lib "metrics:total_volume" amount
      match decision with
      | .block => (d.incr "metrics:blocked_tx").incr "metrics:fraud_tx"
      | .review => d.incr "metrics:fraud_tx"
      | _ => d

theorem leads_updateKpis_counting {m : Incoming} {fs : List (String × Json)}
    (hpayload : payloadOf m.value = .ok (.dict fs)) (decision : FraudDecision) (pending : List World) :
    Prog.Leads (Counting.answer lib) (updateKpis lib (.dict fs) decision) ⟨w, pending, d⟩ fun r t =>
      r = .ok () ∧ t = ⟨w, pending, d.update lib decision (m.counted lib)⟩ := by
  have hcounted : m.counted lib =
      match (Json.dict fs).get "amount" (.float 0) >>= lib.toFloat with
      | .ok q => some q
      | .error _ => none := by
    rw [Incoming.counted, hpayload]
    rfl
  unfold updateKpis
  rw [Prog.leads_tryExcept, Prog.leads_bind, Prog.leads_await]
  show Prog.Leads _ (Prog.lift _ >>= _) _ _
  cases hamount : (Json.dict fs).get "amount" (.float 0) >>= lib.toFloat with
  | error x =>
      -- the amount is no float: the updates end here
      have hcaught : x.isException = true := by
        rcases bind_eq_error.mp hamount with hget | ⟨v, -, hfloat⟩
        · exact Json.isException_of_get hget
        · exact isException_of_toFloat hfloat
      rw [hamount] at hcounted
      rw [hcounted, Prog.leads_bind, Prog.leads_lift]
      simp only [hcaught, if_true]
      exact ⟨rfl, rfl⟩
  | ok amount =>
      rw [hamount] at hcounted
      rw [hcounted, Prog.lift_ok, pure_bind, Prog.leads_bind, Prog.leads_await]
      cases decision with
      | approve => exact ⟨rfl, rfl⟩
      | review => exact ⟨rfl, rfl⟩
      | decline => exact ⟨rfl, rfl⟩
      | block => exact ⟨rfl, rfl⟩

end One

/-! ## A run -/

/-- Each counter is a count over the evaluated messages. -/
structure Dashboard.Consistent (lib : NumberLib) (pb : Protobuf) (d : Dashboard)
    (es : List Incoming) : Prop where
  published : d.events.length = es.length
  total : d.kpis "metrics:total_tx" = es.length
  blocked : d.kpis "metrics:blocked_tx" = es.countP fun m => m.CountedAsBlocked lib pb
  volume : d.kpis "metrics:total_volume" = lib.redisSum (es.filterMap (Incoming.counted lib))
  fraud : d.kpis "metrics:fraud_tx" = es.countP fun m => m.CountedAsFraud lib pb

section Run

variable {lib : NumberLib} {pb : Protobuf} {d : Dashboard} {es ms : List Incoming}

theorem consistent_empty : Dashboard.empty.Consistent lib pb [] := ⟨rfl, rfl, rfl, rfl, rfl⟩

/-- Counting an evaluated message keeps the counters consistent. -/
theorem Dashboard.Consistent.update (h : d.Consistent lib pb es) (event : Json) (m : Incoming) :
    ((d.publish event).update lib (m.decision pb) (m.counted lib)).Consistent lib pb (es ++ [m]) := by
  obtain ⟨hpublished, htotal, hblocked, hvolume, hfraud⟩ := h
  cases hcounted : m.counted lib with
  | none =>
      constructor <;>
        simp [Dashboard.update, Dashboard.publish, Dashboard.incr, Incoming.CountedAsBlocked,
          Incoming.CountedAsFraud, hcounted, hpublished, htotal, hblocked, hvolume, hfraud]
  | some amount =>
      cases hdecision : m.decision pb <;> constructor <;>
        simp [Dashboard.update, Dashboard.publish, Dashboard.incr, Dashboard.incrbyfloat,
          Incoming.CountedAsBlocked, Incoming.CountedAsFraud, hcounted, hdecision, hpublished, htotal,
          hblocked, hvolume, hfraud, NumberLib.redisSum_concat]

theorem Dashboard.events_update (decision : FraudDecision) (amount : Option ℚ) :
    (d.update lib decision amount).events = d.events := by
  cases amount with
  | none => rfl
  | some amount => cases decision <;> rfl

/-- The messages leave the counters consistent, and their events published. -/
theorem leads_loop_counting (w : World) (h : d.Consistent lib pb es) :
    Prog.Leads (Counting.answer lib) (loop lib pb (ms.map Incoming.value))
      ⟨w, ms.map Incoming.world, d⟩ fun _ t =>
        t.board.Consistent lib pb (es ++ evaluated lib pb ms) ∧
          t.board.events = d.events ++ outputs lib pb ms := by
  induction ms generalizing d es w with
  | nil =>
      rw [evaluated, List.append_nil]
      exact ⟨h, (List.append_nil _).symm⟩
  | cons m ms ih =>
      rw [List.map_cons, loop, Prog.leads_bind, Prog.leads_await, outputs, evaluated]
      show Prog.Leads _ (processMessage lib pb m.value >>= _)
        (⟨m.world, ms.map Incoming.world, d⟩ : Counting) _
      rw [Prog.leads_bind]
      apply (serves_counting lib m.world (ms.map Incoming.world)).leads_processMessage
      · intro x hx
        rw [hx, List.append_nil]
        exact ⟨h, (List.append_nil _).symm⟩
      · intro hx
        rw [hx]
        exact ih m.world h
      · intro fs finalScore event hpayload haggregate _ hx
        -- what has been aggregated is the final score of the message
        have hdecision : makeDecision finalScore .default = m.decision pb := by
          rw [Incoming.decision, Incoming.finalScore, hpayload, aggregate_eq_final haggregate]
        rw [hdecision]
        refine (leads_updateKpis_counting hpayload _ _).mono ?_
        rintro r t ⟨rfl, rfl⟩
        rw [hx]
        refine (ih m.world (h.update event m)).mono ?_
        rintro r t ⟨hconsistent, hevents⟩
        rw [List.append_assoc] at hconsistent
        rw [Dashboard.events_update] at hevents
        exact ⟨hconsistent, hevents.trans (List.append_assoc d.events [event] _)⟩

variable (lib pb ms) in
/-- The counters are consistent with what has been published. -/
theorem dashboard_spec : (dashboard lib pb ms).Consistent lib pb (evaluated lib pb ms) ∧
    (dashboard lib pb ms).events = outputs lib pb ms := by
  have hloop := @leads_loop_counting lib pb .empty [] ms idleWorld consistent_empty
  have hconsume : Prog.Leads (Counting.answer lib) (consume lib pb (ms.map Incoming.value))
      ⟨idleWorld, ms.map Incoming.world, .empty⟩ fun _ t =>
        t.board.Consistent lib pb (evaluated lib pb ms) ∧ t.board.events = outputs lib pb ms := by
    unfold consume
    rw [Prog.leads_tryExcept]
    refine hloop.mono ?_
    intro r t hend
    cases r with
    | ok u => exact hend
    | error x =>
        show if _ then _ else _
        split
        · exact hend
        · exact hend
  exact hconsume

end Run

/-! ## Evaluated messages -/

section Evaluated

variable {lib : NumberLib} {pb : Protobuf} {m : Incoming} {ms : List Incoming}

/-- More messages leave the evaluated ones as they are. -/
theorem evaluated_append (xs ys : List Incoming) :
    ∃ zs, evaluated lib pb (xs ++ ys) = evaluated lib pb xs ++ zs := by
  induction xs with
  | nil => exact ⟨_, rfl⟩
  | cons x xs ih =>
      obtain ⟨zs, hzs⟩ := ih
      rw [List.cons_append, evaluated, evaluated]
      cases outcome lib pb x.world x.value with
      | raised e => exact ⟨[], rfl⟩
      | skipped => exact ⟨zs, hzs⟩
      | published event => exact ⟨zs, congrArg (x :: ·) hzs⟩

/-- A message is evaluated, or it changes nothing. -/
theorem evaluated_concat (xs : List Incoming) (m : Incoming) :
    evaluated lib pb (xs ++ [m]) = evaluated lib pb xs ++ [m] ∨
      evaluated lib pb (xs ++ [m]) = evaluated lib pb xs := by
  induction xs with
  | nil =>
      rw [List.nil_append, evaluated, evaluated]
      cases outcome lib pb m.world m.value with
      | raised e => exact Or.inr rfl
      | skipped => exact Or.inr rfl
      | published event => exact Or.inl rfl
  | cons x xs ih =>
      rw [List.cons_append, evaluated, evaluated]
      cases outcome lib pb x.world x.value with
      | raised e => exact Or.inr rfl
      | skipped => exact ih
      | published event => exact ih.imp (congrArg (x :: ·)) (congrArg (x :: ·))

/-- What is evaluated is evaluated after some part of the messages. -/
theorem mem_evaluated_iff : m ∈ evaluated lib pb ms ↔ ∃ before after, ms = before ++ m :: after ∧
    evaluated lib pb (before ++ [m]) = evaluated lib pb before ++ [m] := by
  constructor
  · intro h
    induction ms with
    | nil => exact absurd h List.not_mem_nil
    | cons x ms ih =>
        rw [evaluated] at h
        -- the messages before `m` are those before it in the rest, and `x`
        have hcons : ∀ {before : List Incoming} {zs : List Incoming},
            (∀ ys, evaluated lib pb (x :: ys) = zs ++ evaluated lib pb ys) →
            evaluated lib pb (before ++ [m]) = evaluated lib pb before ++ [m] →
            evaluated lib pb (x :: before ++ [m]) = evaluated lib pb (x :: before) ++ [m] := by
          intro before zs hx hbefore
          rw [List.cons_append, hx, hx, hbefore, List.append_assoc]
        cases hx : outcome lib pb x.world x.value with
        | raised e =>
            rw [hx] at h
            exact absurd h List.not_mem_nil
        | skipped =>
            rw [hx] at h
            obtain ⟨before, after, rfl, hbefore⟩ := ih h
            have hskip : ∀ ys, evaluated lib pb (x :: ys) = [] ++ evaluated lib pb ys := by
              intro ys
              rw [evaluated, hx]
              rfl
            exact ⟨x :: before, after, rfl, hcons hskip hbefore⟩
        | published event =>
            rw [hx] at h
            rcases List.mem_cons.mp h with rfl | h
            · refine ⟨[], ms, rfl, ?_⟩
              show evaluated lib pb [m] = [m]
              rw [evaluated, hx]
              rfl
            · obtain ⟨before, after, rfl, hbefore⟩ := ih h
              have hpublish : ∀ ys, evaluated lib pb (x :: ys) = [x] ++ evaluated lib pb ys := by
                intro ys
                rw [evaluated, hx]
                rfl
              exact ⟨x :: before, after, rfl, hcons hpublish hbefore⟩
  · rintro ⟨before, after, rfl, hbefore⟩
    obtain ⟨zs, hzs⟩ := @evaluated_append lib pb (before ++ [m]) after
    rw [List.append_cons, hzs, hbefore]
    simp

end Evaluated

/-! ## What is counted as fraud -/

section Fraud

variable (lib : NumberLib) (pb : Protobuf)

/-- An event is published for the message after the ones before it. -/
def Evaluates (before : List Incoming) (m : Incoming) : Prop :=
  (dashboard lib pb before).events.length < (dashboard lib pb (before ++ [m])).events.length

/-- `metrics:fraud_tx` counts the message. -/
def CountsAsFraud (before : List Incoming) (m : Incoming) : Prop :=
  (dashboard lib pb before).kpis "metrics:fraud_tx" <
    (dashboard lib pb (before ++ [m])).kpis "metrics:fraud_tx"

/-- Whenever a transaction is counted as fraud, so is every one with at least its final score. -/
def FraudUpwardClosed (ms : List Incoming) : Prop :=
  ∀ before m after before' m' after',
    ms = before ++ m :: after → ms = before' ++ m' :: after' →
    Evaluates lib pb before m → Evaluates lib pb before' m' →
    m.finalScore pb ≤ m'.finalScore pb →
    CountsAsFraud lib pb before m → CountsAsFraud lib pb before' m'

/-- The counters follow the severity of the decisions. -/
structure FollowSeverity (ms : List Incoming) : Prop where
  total : (dashboard lib pb ms).kpis "metrics:total_tx" = (dashboard lib pb ms).events.length
  blocked : (dashboard lib pb ms).kpis "metrics:blocked_tx" =
    (evaluated lib pb ms).countP fun m => (DecisionThresholds.default.highRisk : ℚ) < m.finalScore pb
  volume : (dashboard lib pb ms).kpis "metrics:total_volume" =
    ((evaluated lib pb ms).map Incoming.amount).sum
  fraud : FraudUpwardClosed lib pb ms

end Fraud

section Closed

variable {lib : NumberLib} {pb : Protobuf} {ms before after : List Incoming} {m : Incoming}

theorem evaluates_iff : Evaluates lib pb before m ↔
    evaluated lib pb (before ++ [m]) = evaluated lib pb before ++ [m] := by
  unfold Evaluates
  rw [(dashboard_spec lib pb before).1.published, (dashboard_spec lib pb _).1.published]
  constructor
  · intro hlt
    rcases @evaluated_concat lib pb before m with h | h
    · exact h
    · rw [h] at hlt
      exact absurd hlt (lt_irrefl _)
  · intro h
    rw [h, List.length_append, List.length_singleton]
    omega

/-- An evaluated message is counted by its decision. -/
theorem countsAsFraud_iff (h : Evaluates lib pb before m) :
    CountsAsFraud lib pb before m ↔ m.CountedAsFraud lib pb := by
  unfold CountsAsFraud
  rw [(dashboard_spec lib pb before).1.fraud, (dashboard_spec lib pb _).1.fraud, evaluates_iff.mp h,
    List.countP_append, Nat.cast_lt, List.countP_singleton]
  by_cases hcounted : m.CountedAsFraud lib pb
  · simp [hcounted]
  · simp [hcounted]

/-- Only a final score above `high_risk` blocks. -/
theorem makeDecision_block_iff {x : ℚ} :
    makeDecision x .default = .block ↔ (DecisionThresholds.default.highRisk : ℚ) < x := by
  have hreview : (DecisionThresholds.default.approve : ℚ) ≤ DecisionThresholds.default.review :=
    binary64.mono (by norm_num)
  have hhigh : (DecisionThresholds.default.review : ℚ) ≤ DecisionThresholds.default.highRisk :=
    binary64.mono (by norm_num)
  unfold makeDecision
  split
  · refine iff_of_false nofun ?_
    linarith
  · split
    · refine iff_of_false nofun ?_
      linarith
    · split
      · refine iff_of_false nofun ?_
        linarith
      · refine iff_of_true rfl ?_
        linarith

/-- A part of a list is all of it exactly if its condition follows from that of the list. -/
theorem countP_eq_iff_of_imp {α : Type} {p q : α → Bool} {l : List α}
    (h : ∀ x, p x = true → q x = true) :
    l.countP p = l.countP q ↔ ∀ x ∈ l, q x = true → p x = true := by
  induction l with
  | nil => simp
  | cons x l ih =>
      have hle : l.countP p ≤ l.countP q := List.countP_mono_left fun x _ => h x
      rw [List.countP_cons, List.countP_cons, List.forall_mem_cons, ← ih]
      by_cases hq : q x = true
      · by_cases hp : p x = true
        · simp [hp, hq]
        · simp only [hp, hq, if_true]
          refine iff_of_false ?_ fun hall => by simpa using hall.1
          simp only [Bool.false_eq_true, if_false]
          omega
      · have hp : ¬ p x = true := fun hp => hq (h x hp)
        simp [hp, hq]

/-- The counter of the blocked transactions is right exactly if every amount above `high_risk` is a
float. -/
theorem blocked_eq_iff : (dashboard lib pb ms).kpis "metrics:blocked_tx" =
      ((evaluated lib pb ms).countP fun m =>
        (DecisionThresholds.default.highRisk : ℚ) < m.finalScore pb) ↔
    ∀ m ∈ evaluated lib pb ms, m.decision pb = .block → m.counted lib ≠ none := by
  rw [(dashboard_spec lib pb ms).1.blocked, Nat.cast_inj]
  simp only [← makeDecision_block_iff]
  rw [countP_eq_iff_of_imp]
  · refine forall₂_congr fun m _ => ?_
    rw [decide_eq_true_iff, decide_eq_true_iff, Incoming.CountedAsBlocked, Incoming.decision]
    exact forall_congr' fun hblock => and_iff_right hblock
  · intro m hm
    simpa [Incoming.decision] using (of_decide_eq_true hm).1

/-- A decision of a lower rank means a lower score. -/
theorem finalScore_le_of_lt {m m' : Incoming} (h : m.decision pb < m'.decision pb) :
    m.finalScore pb ≤ m'.finalScore pb := by
  by_contra hlt
  have hle := makeDecision_mono (not_le.mp hlt).le DecisionThresholds.default
  exact absurd h (not_lt.mpr hle)

/-- Fraud counting is upward closed in a run exactly if it is on the evaluated messages. -/
theorem fraudUpwardClosed_iff : FraudUpwardClosed lib pb ms ↔
    ∀ m ∈ evaluated lib pb ms, ∀ m' ∈ evaluated lib pb ms, m.finalScore pb ≤ m'.finalScore pb →
      m.CountedAsFraud lib pb → m'.CountedAsFraud lib pb := by
  constructor
  · intro hclosed m hm m' hm' hle hcounted
    obtain ⟨before, after, heq, heval⟩ := mem_evaluated_iff.mp hm
    obtain ⟨before', after', heq', heval'⟩ := mem_evaluated_iff.mp hm'
    have hcounts := hclosed before m after before' m' after' heq heq' (evaluates_iff.mpr heval)
      (evaluates_iff.mpr heval') hle
    rw [countsAsFraud_iff (evaluates_iff.mpr heval),
      countsAsFraud_iff (evaluates_iff.mpr heval')] at hcounts
    exact hcounts hcounted
  · intro hall before m after before' m' after' heq heq' heval heval' hle
    rw [countsAsFraud_iff heval, countsAsFraud_iff heval']
    exact hall m (mem_evaluated_iff.mpr ⟨before, after, heq, evaluates_iff.mp heval⟩) m'
      (mem_evaluated_iff.mpr ⟨before', after', heq', evaluates_iff.mp heval'⟩) hle

/-- A transaction that is counted as fraud, because it is to be reviewed. -/
def Incoming.Reviewed (lib : NumberLib) (pb : Protobuf) (m : Incoming) : Prop :=
  m.decision pb = .review ∧ m.counted lib ≠ none

/-- If the blocked transactions are counted, those that are reviewed decide about the others: none
is declined, and none is reviewed at a higher score without being counted. -/
theorem upwardClosed_iff_reviewed {es : List Incoming}
    (hblock : ∀ m ∈ es, m.decision pb = .block → m.counted lib ≠ none) :
    (∀ m ∈ es, ∀ m' ∈ es, m.finalScore pb ≤ m'.finalScore pb →
      m.CountedAsFraud lib pb → m'.CountedAsFraud lib pb) ↔
    ∀ m ∈ es, m.Reviewed lib pb → ∀ m' ∈ es, m'.decision pb ≠ .decline ∧
      (m'.decision pb = .review → m.finalScore pb ≤ m'.finalScore pb → m'.counted lib ≠ none) := by
  constructor
  · rintro hclosed m hm ⟨hreview, hcounted⟩ m' hm'
    constructor
    · intro hdecline
      have hle : m.finalScore pb ≤ m'.finalScore pb := by
        apply finalScore_le_of_lt
        rw [hreview, hdecline]
        decide
      rcases (hclosed m hm m' hm' hle ⟨Or.inr hreview, hcounted⟩).1 with h | h
      · rw [hdecline] at h
        cases h
      · rw [hdecline] at h
        cases h
    · intro _ hle
      exact (hclosed m hm m' hm' hle ⟨Or.inr hreview, hcounted⟩).2
  · rintro hreviewed m hm m' hm' hle ⟨hdecision, hcounted⟩
    have hmono : m.decision pb ≤ m'.decision pb := makeDecision_mono hle DecisionThresholds.default
    rw [FraudDecision.le_iff] at hmono
    rcases hdecision with hblocked | hreview
    · -- above a blocked transaction everything is blocked
      have hblocked' : m'.decision pb = .block := by
        rw [hblocked] at hmono
        cases hdecision : m'.decision pb with
        | block => rfl
        | approve => simp [hdecision, FraudDecision.severity] at hmono
        | review => simp [hdecision, FraudDecision.severity] at hmono
        | decline => simp [hdecision, FraudDecision.severity] at hmono
      exact ⟨Or.inl hblocked', hblock m' hm' hblocked'⟩
    · obtain ⟨hnot, hsame⟩ := hreviewed m hm ⟨hreview, hcounted⟩ m' hm'
      rw [hreview] at hmono
      cases hdecision : m'.decision pb with
      | approve =>
          rw [hdecision] at hmono
          simp [FraudDecision.severity] at hmono
      | review => exact ⟨Or.inr hdecision, hsame hdecision hle⟩
      | decline => exact absurd hdecision hnot
      | block => exact ⟨Or.inl hdecision, hblock m' hm' hdecision⟩

end Closed

/-! ## The counters after a run -/

/-- After every sequence of messages the counters follow the severity of the decisions exactly if
every amount of a blocked transaction is a float, Redis adds the amounts up to their sum, and a
reviewed transaction that is counted stands beside no declined one and below no reviewed one whose
amount is no float. -/
theorem kpis_follow_severity_iff (lib : NumberLib) (pb : Protobuf) (ms : List Incoming) :
    FollowSeverity lib pb ms ↔
      (∀ m ∈ evaluated lib pb ms, m.decision pb = .block → m.counted lib ≠ none) ∧
      lib.redisSum ((evaluated lib pb ms).filterMap (Incoming.counted lib))
        = ((evaluated lib pb ms).map Incoming.amount).sum ∧
      ∀ m ∈ evaluated lib pb ms, m.Reviewed lib pb → ∀ m' ∈ evaluated lib pb ms,
        m'.decision pb ≠ .decline ∧
          (m'.decision pb = .review → m.finalScore pb ≤ m'.finalScore pb → m'.counted lib ≠ none) := by
  obtain ⟨hpublished, htotal, -, hvolume, -⟩ := (dashboard_spec lib pb ms).1
  constructor
  · rintro ⟨-, hblocked, hsum, hfraud⟩
    have hblock := blocked_eq_iff.mp hblocked
    exact ⟨hblock, hvolume.symm.trans hsum,
      (upwardClosed_iff_reviewed hblock).mp (fraudUpwardClosed_iff.mp hfraud)⟩
  · rintro ⟨hblock, hsum, hreviewed⟩
    exact ⟨by rw [htotal, hpublished], blocked_eq_iff.mpr hblock, hvolume.trans hsum,
      fraudUpwardClosed_iff.mpr ((upwardClosed_iff_reviewed hblock).mpr hreviewed)⟩

/-! ### Amounts that are floats -/

/-- The amount of a message is a float, if it is there: every integer up to `2 ^ 53` is one. -/
def FloatAmount (m : Incoming) : Prop :=
  ∀ fs v, payloadOf m.value = .ok (.dict fs) → fs.lookup "amount" = some v →
    (∃ n : ℤ, v = .int n ∧ binary64.IsFloat n ∧ |(n : ℚ)| < 2 ^ 1024) ∨ ∃ q, v = .float q

/-- An event is published for a dict only. -/
theorem dict_of_evaluated {lib : NumberLib} {pb : Protobuf} {ms : List Incoming} {m : Incoming}
    (h : m ∈ evaluated lib pb ms) : ∃ fs, payloadOf m.value = .ok (.dict fs) := by
  induction ms with
  | nil => exact absurd h List.not_mem_nil
  | cons x ms ih =>
      rw [evaluated] at h
      cases hx : outcome lib pb x.world x.value with
      | raised e =>
          rw [hx] at h
          exact absurd h List.not_mem_nil
      | skipped =>
          rw [hx] at h
          exact ih h
      | published event =>
          rw [hx] at h
          rcases List.mem_cons.mp h with rfl | h
          · unfold outcome at hx
            cases hpayload : payloadOf m.value with
            | error e => simp [hpayload] at hx
            | ok payload =>
                cases hid : payload.get "transaction_id" .null with
                | error e =>
                    simp only [hpayload, evaluation, hid, bind, Except.bind] at hx
                    split at hx
                    · cases hx
                    · cases hx
                | ok id =>
                    obtain ⟨fs, rfl⟩ := Json.dict_of_get hid
                    exact ⟨fs, rfl⟩
          · exact ih h

/-- A float is counted as it is. -/
theorem counted_of_floatAmount {lib : NumberLib} {m : Incoming} {fs : List (String × Json)}
    (hpayload : payloadOf m.value = .ok (.dict fs)) (h : FloatAmount m) :
    m.counted lib = some m.amount := by
  unfold Incoming.counted Incoming.amount numberAt
  rw [hpayload]
  cases hamount : fs.lookup "amount" with
  | none => simp [hamount, Json.get, NumberLib.toFloat, bind, Except.bind, pure, Except.pure]
  | some v =>
      rcases h fs v hpayload hamount with ⟨n, rfl, hfloat, hlt⟩ | ⟨q, rfl⟩
      · have hround : binary64.round n = n := hfloat
        simp [hamount, Json.get, NumberLib.toFloat, bind, Except.bind, pure, Except.pure, hround,
          hlt]
      · simp [hamount, Json.get, NumberLib.toFloat, bind, Except.bind, pure, Except.pure]

/-- With amounts that are floats and that Redis adds exactly, it takes a reviewed transaction beside
a declined one to break the counters. -/
theorem followSeverity_of_floatAmount {lib : NumberLib} {pb : Protobuf} {ms : List Incoming}
    (hfloat : ∀ m ∈ ms, FloatAmount m)
    (hsum : lib.redisSum ((evaluated lib pb ms).map Incoming.amount)
      = ((evaluated lib pb ms).map Incoming.amount).sum)
    (hnot : ¬ ((∃ m ∈ evaluated lib pb ms, m.decision pb = .review) ∧
      ∃ m ∈ evaluated lib pb ms, m.decision pb = .decline)) : FollowSeverity lib pb ms := by
  have hcounted : ∀ m ∈ evaluated lib pb ms, m.counted lib = some m.amount := by
    intro m hm
    obtain ⟨fs, hpayload⟩ := dict_of_evaluated hm
    obtain ⟨before, after, rfl, -⟩ := mem_evaluated_iff.mp hm
    exact counted_of_floatAmount hpayload (hfloat m (by simp))
  have hsome : ∀ m ∈ evaluated lib pb ms, m.counted lib ≠ none := by
    intro m hm
    rw [hcounted m hm]
    exact Option.some_ne_none _
  have hblock : ∀ m ∈ evaluated lib pb ms, m.decision pb = .block → m.counted lib ≠ none :=
    fun m hm _ => hsome m hm
  obtain ⟨hpublished, htotal, -, hvolume, -⟩ := (dashboard_spec lib pb ms).1
  refine ⟨by rw [htotal, hpublished], blocked_eq_iff.mpr hblock, ?_, fraudUpwardClosed_iff.mpr
    ((upwardClosed_iff_reviewed hblock).mpr ?_)⟩
  · rw [hvolume, List.filterMap_congr hcounted, List.filterMap_eq_map']
    exact hsum
  · rintro m hm ⟨hreview, -⟩ m' hm'
    exact ⟨fun hdecline => hnot ⟨⟨m, hm, hreview⟩, m', hm', hdecline⟩, fun _ _ => hsome m' hm'⟩

/-! ### Two transactions between `approve` and `high_risk` -/

/-- Engines that take the amount for the score. -/
def amountWorld : World :=
  { idleWorld with
    engines := fun request => .ok (.num (numberAt (.dict request.fields) "amount"))
    engines_exception := nofun }

/-- A transaction with this amount. -/
def payment (amount : ℚ) : Incoming :=
  ⟨.dict [("payload", .dict [("amount", .float amount)])], amountWorld⟩

/-- A transaction to be reviewed is counted as fraud, and one that is declined is not. -/
theorem declined_not_counted :
    ¬ FollowSeverity compactNumbers lenientProtobuf ([1 / 2, 11 / 16].map payment) := by
  rintro ⟨-, -, -, hclosed⟩
  have hruns : (evaluated compactNumbers lenientProtobuf ([1 / 2, 11 / 16].map payment)).map
      (fun m => (m.decision lenientProtobuf, (m.counted compactNumbers).isSome))
        = [(.review, true), (.decline, true)] := by
    decide +kernel
  have hboth : ∀ entry ∈ [(FraudDecision.review, true), (.decline, true)],
      ∃ m ∈ evaluated compactNumbers lenientProtobuf ([1 / 2, 11 / 16].map payment),
        (m.decision lenientProtobuf, (m.counted compactNumbers).isSome) = entry := by
    intro entry hentry
    rw [← hruns] at hentry
    exact List.mem_map.mp hentry
  obtain ⟨m, hm, hreview⟩ := hboth (.review, true) (by simp)
  obtain ⟨m', hm', hdecline⟩ := hboth (.decline, true) (by simp)
  obtain ⟨hreview, hcounted⟩ := Prod.mk.inj hreview
  obtain ⟨hdecline, -⟩ := Prod.mk.inj hdecline
  have hle : m.finalScore lenientProtobuf ≤ m'.finalScore lenientProtobuf := by
    apply finalScore_le_of_lt
    rw [hreview, hdecline]
    decide
  have hfraud : m.CountedAsFraud compactNumbers lenientProtobuf :=
    ⟨Or.inr hreview, Option.isSome_iff_ne_none.mp hcounted⟩
  rcases (fraudUpwardClosed_iff.mp hclosed m hm m' hm' hle hfraud).1 with h | h
  · rw [hdecline] at h
    cases h
  · rw [hdecline] at h
    cases h

end FraudDetection.Orchestrator
