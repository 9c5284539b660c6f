import Mathlib.Tactic.Linarith
import FraudDetection.Async.Pool
import FraudDetection.Python.CompactJson
import FraudDetection.Python.Compare

/-!
# Alerts and their cases

`consume_alerts` inserts an alert, escalates it if its score is high, and publishes `case.opened`:
three effects on two systems, any of which can fail, and between which the process can die.

What a task still owes to its alert is in its phase. `Accounted` says that every alert with a high
score is escalated or owed to be, and every escalated alert has its case or is owed one. The side
condition `Whole` of a run keeps a task from ending while it owes something.
-/

namespace FraudDetection.Alerts

open Async Python

/-! ## The consumer -/

/-- The columns that a new alert is given. -/
structure NewAlert where
  transactionId : Json
  customerId : Json
  score : Json
  reason : String

/-- What a task awaits: the commit of a new alert, its refresh, the commit of a status, and a
send. -/
inductive Op where
  | insert (alert : NewAlert)
  | refresh (alertId : String)
  | update (alertId status : String)
  | sendAndWait (topic key : String) (value : Json)

/-- The replies. A new alert has the id that its default has drawn. -/
abbrev Ret : Op → Type
  | .insert _ => String
  | .refresh _ => Unit
  | .update _ _ => Unit
  | .sendAndWait _ _ _ => Unit

/-- `publish_event`, on a service that has started its producer or has not -/
def publishEvent (producer : Bool) (topic key : String) (payload : Json) : Prog Ret Exn Unit :=
  if producer then Prog.await (Op.sendAndWait topic key payload) else pure ()

/-- `case_payload` -/
def casePayload (alertId : String) (transactionId customerId : Json) : Json :=
  .dict [
    ("metadata", .dict [("event_type", .str "case.opened")]),
    ("payload", .dict [
      ("alert_id", .str alertId),
      ("transaction_id", transactionId),
      ("customer_id", customerId),
      ("severity", .str "HIGH")])]

/-- The body of the loop of `consume_alerts` -/
def consumeAlert (lib : PyLib) (producer : Bool) (value : Json) : Prog Ret Exn Unit :=
  if value.truthy then do
    let payload ← Prog.lift (value.get "payload" (.dict []))
    let transactionId ← Prog.lift (payload.get "transaction_id" .null)
    let customerId ← Prog.lift (payload.get "customer_id" .null)
    let score ← Prog.lift (payload.get "score" (.float 0))
    if !transactionId.truthy || !customerId.truthy then
      pure ()
    else do
      let reason := "Fraud score exceeded threshold: " ++ lib.str score
      let alertId ← Prog.await (Op.insert ⟨transactionId, customerId, score, reason⟩)
      Prog.await (Op.refresh alertId)
      let high ← Prog.lift (Operator.ge.apply score (.float (8 / 10)))
      if high then do
        Prog.await (Op.update alertId "ESCALATED")
        publishEvent producer "case.opened" alertId (casePayload alertId transactionId customerId)
      else
        pure ()
  else
    pure ()

/-! ## The database and the broker -/

/-- A row of the table `alerts`. -/
structure Alert where
  transactionId : String
  customerId : String
  score : ℚ
  status : String
  reason : String

/-- The row of a new alert, if its values fit the columns. -/
def NewAlert.row (alert : NewAlert) : Option Alert :=
  match alert.transactionId, alert.customerId, alert.score.number? with
  | .str transactionId, .str customerId, some score =>
      some ⟨transactionId, customerId, score, "NEW", alert.reason⟩
  | _, _, _ => none

/-- An event that the broker has accepted. -/
structure Record where
  topic : String
  key : String
  value : Json

/-- The alerts by their id, how many ids have been drawn, and the accepted events. -/
structure Server where
  alerts : String → Option Alert
  drawn : ℕ
  events : List Record

/-- The alert that a commit would store: its values fit the columns, and its id is not in use. -/
def Server.stores (t : Server) (ids : ℕ → String) (alert : NewAlert) : Option Alert :=
  match t.alerts (ids t.drawn) with
  | none => alert.row
  | some _ => none

/-- The exception of a statement that the database refuses. -/
def refused : Exn := ⟨.other "DBAPIError", "the statement is refused"⟩

/-- What an operation does, where `ids` are the ids as they are drawn. -/
def Server.perform (ids : ℕ → String) : (op : Op) → Server → Except Exn (Ret op) × Server
  | .insert alert, t =>
      match t.stores ids alert with
      | some row =>
          (.ok (ids t.drawn),
            { t with
              alerts := Function.update t.alerts (ids t.drawn) (some row)
              drawn := t.drawn + 1 })
      -- the default draws the id before the statement is refused
      | none => (.error refused, { t with drawn := t.drawn + 1 })
  | .refresh alertId, t =>
      match t.alerts alertId with
      | some _ => (.ok (), t)
      | none => (.error refused, t)
  | .update alertId status, t =>
      match t.alerts alertId with
      | some row =>
          (.ok (),
            { t with alerts := Function.update t.alerts alertId (some { row with status := status }) })
      | none => (.error refused, t)
  | .sendAndWait topic key value, t => (.ok (), { t with events := t.events ++ [⟨topic, key, value⟩] })

/-- The alert id in an event. -/
def alertIdOf (value : Json) : Except Exn Json := do
  let payload ← value.getItem "payload"
  payload.getItem "alert_id"

/-- The broker has accepted the case of an alert. -/
def Server.Opened (t : Server) (alertId : String) : Prop :=
  ∃ e ∈ t.events, e.topic = "case.opened" ∧ alertIdOf e.value = .ok (.str alertId)

/-- Every escalated alert has its case, and every alert with a high score is escalated. -/
structure Together (t : Server) : Prop where
  opened : ∀ alertId row, t.alerts alertId = some row → row.status = "ESCALATED" → t.Opened alertId
  escalated : ∀ alertId row, t.alerts alertId = some row → 8 / 10 ≤ row.score →
    row.status = "ESCALATED"

/-! ## Deliveries -/

/-- An alert event that is delivered, and whether the service has started its producer. -/
structure Consumed where
  value : Json
  producer : Bool

variable {ι : Type}

/-- Deliveries of alert events. An event that is delivered again is one more task, or the same
again. -/
def alertTasks (lib : PyLib) (ids : ℕ → String) (deliveries : ι → Consumed) :
    Setting ι Server Ret Exn Unit where
  program i := consumeAlert lib (deliveries i).producer (deliveries i).value
  perform _ := Server.perform ids
  drift _ _ := False

/-- No alert yet. -/
def emptyAlerts : Pool ι Server Ret Exn Unit := ⟨fun _ => none, ⟨fun _ => none, 0, []⟩⟩

/-- The operations that the escalation of an alert with a high score hangs on. -/
def Server.Owes (t : Server) : Op → Prop
  | .insert _ => False
  | .refresh alertId => ∃ row, t.alerts alertId = some row ∧ 8 / 10 ≤ row.score
  | .update _ _ => True
  | .sendAndWait _ _ _ => True

/-- What has to happen for an alert with a high score to be escalated with its case: it is inserted
with an answer, by a service that has started its producer, it is refreshed and updated with an
answer, the send is not lost, and the process does not die before. -/
def Whole (ids : ℕ → String) (deliveries : ι → Consumed) (s : Pool ι Server Ret Exn Unit) :
    Happening ι Op Exn → Prop
  | .command i (.insert alert) d =>
      ∀ row, s.shared.stores ids alert = some row → 8 / 10 ≤ row.score →
        (∃ e, d = .lost e) ∨ (d = .answered ∧ (deliveries i).producer = true)
  | .command _ (.sendAndWait _ _ _) d => ∀ e, d ≠ .lost e
  | .command _ op d => s.shared.Owes op → d = .answered
  | .die i => ∀ op k, s.tasks i = some (.call op k) → ¬ s.shared.Owes op
  | _ => True

/-! ## Phases -/

/-- Where a task stands: before the insert, with its alert inserted, refreshed, or escalated, or
with nothing left to do. -/
inductive Phase where
  | fresh (producer : Bool)
  | inserted (producer : Bool) (alertId : String) (score : ℚ)
  | refreshed (producer : Bool) (alertId : String) (score : ℚ)
  | escalated (producer : Bool) (alertId : String)
  | done

/-- The phase after an operation. -/
def Phase.next (q : Phase) (ev : Event Ret Exn) : Phase :=
  match q, ev with
  | .fresh producer, ⟨.insert alert, .ok alertId⟩ =>
      .inserted producer alertId (alert.score.number?.getD 0)
  | .inserted producer alertId score, ⟨.refresh _, .ok _⟩ => .refreshed producer alertId score
  | .refreshed producer alertId _, ⟨.update _ _, .ok _⟩ => .escalated producer alertId
  | _, _ => .done

/-- The operations of a task in their order. -/
def operations : Contract Phase Ret Exn where
  guar := fun q op =>
    match q with
    | .fresh _ => ∃ alert, op = .insert alert
    | .inserted _ alertId _ => op = .refresh alertId
    | .refreshed _ alertId score => op = .update alertId "ESCALATED" ∧ 8 / 10 ≤ score
    | .escalated _ alertId => ∃ value, op = .sendAndWait "case.opened" alertId value ∧
        alertIdOf value = .ok (.str alertId)
    | .done => False
  rely := fun q ev q' => q' = q.next ev

/-- How a task can end. -/
def Ends (_ : Except Exn Unit) : Phase → Prop
  | .inserted _ _ _ => False
  | .refreshed _ _ score => score < 8 / 10
  | .escalated producer _ => producer = false
  | _ => True

section Programs

/-- An escalated alert gets its case, unless the producer has not been started. -/
theorem wp_publishEvent {producer : Bool} {alertId : String} {value : Json}
    (h : alertIdOf value = .ok (.str alertId)) :
    (publishEvent producer "case.opened" alertId value).wp operations Ends
      (.escalated producer alertId) := by
  unfold publishEvent
  cases producer with
  | true =>
    rw [if_pos rfl, Prog.wp_await]
    refine ⟨⟨value, rfl, h⟩, ?_⟩
    rintro (e | u) q rfl
    · trivial
    · trivial
  | false =>
    rw [if_neg Bool.false_ne_true]
    rfl

/-- A task ends well, whatever it consumes. -/
theorem wp_consumeAlert (lib : PyLib) (producer : Bool) (value : Json) :
    (consumeAlert lib producer value).wp operations Ends (.fresh producer) := by
  have hlift : ∀ {x : Except Exn Json} {g : Json → Prog Ret Exn Unit},
      (∀ v, (g v).wp operations Ends (.fresh producer)) →
      (Prog.lift x >>= g).wp operations Ends (.fresh producer) := by
    intro x g hg
    refine Prog.wp_seq (P := fun _ q => q = .fresh producer) ?_ ?_ ?_
    · rw [Prog.wp_lift]
    · rintro e q rfl
      trivial
    · rintro v q rfl
      exact hg v
  unfold consumeAlert
  split
  · refine hlift fun payload => hlift fun transactionId => hlift fun customerId => hlift ?_
    intro score
    split
    · trivial
    · refine Prog.wp_await_seq ⟨_, rfl⟩ ?_ ?_
      · rintro e q rfl
        trivial
      · rintro alertId q rfl
        refine Prog.wp_await_seq rfl ?_ ?_
        · rintro e q rfl
          trivial
        · rintro u q rfl
          rcases Operator.apply_ge_float score (8 / 10) with ⟨p, hp, hge⟩ | ⟨hnone, x, hge⟩
          · rw [hge, Prog.lift_ok, pure_bind]
            dsimp only [Phase.next]
            rw [hp]
            by_cases hhigh : 8 / 10 ≤ p
            · rw [if_pos (decide_eq_true hhigh)]
              refine Prog.wp_await_seq ⟨rfl, hhigh⟩ ?_ ?_
              · rintro e q rfl
                trivial
              · rintro u q rfl
                exact wp_publishEvent rfl
            · rw [if_neg (by simpa using hhigh)]
              exact not_le.mp hhigh
          -- a score that cannot be compared raises here, and the stored score counts as 0
          · rw [hge, Prog.lift_error, Prog.raise_bind]
            dsimp only [Phase.next]
            rw [hnone]
            exact (by norm_num : (0 : ℚ) < 8 / 10)
  · trivial

end Programs

/-! ## What tasks owe -/

/-- The alert that a task is to escalate if its score is high. -/
def Phase.Escalates : Phase → String → Prop
  | .inserted _ a _, alertId => a = alertId
  | .refreshed _ a _, alertId => a = alertId
  | _, _ => False

/-- The alert whose case a task is to open. -/
def Phase.Opens : Phase → String → Prop
  | .escalated _ a, alertId => a = alertId
  | _, _ => False

/-- The alert of a task is stored with its score. -/
def Server.Scored (t : Server) (alertId : String) (score : ℚ) : Prop :=
  ∃ row, t.alerts alertId = some row ∧ row.score = score

/-- What the phase of a task says about the alerts and the service. -/
def Fits (t : Server) (started : Bool) : Phase → Prop
  | .fresh producer => producer = started
  | .inserted producer alertId score => t.Scored alertId score ∧ (8 / 10 ≤ score → producer = true)
  | .refreshed producer alertId score => t.Scored alertId score ∧ (8 / 10 ≤ score → producer = true)
  | .escalated producer _ => producer = true
  | .done => True

/-- Every alert with a high score is escalated, or a task is to do so. Every escalated alert has its
case, or a task is to open it. -/
structure Accounted (deliveries : ι → Consumed) (qs : ι → Option Phase) (t : Server) : Prop where
  fits : ∀ i q, qs i = some q → Fits t (deliveries i).producer q
  escalated : ∀ alertId row, t.alerts alertId = some row → 8 / 10 ≤ row.score →
    row.status = "ESCALATED" ∨ ∃ i q, qs i = some q ∧ q.Escalates alertId
  opened : ∀ alertId row, t.alerts alertId = some row → row.status = "ESCALATED" →
    t.Opened alertId ∨ ∃ i q, qs i = some q ∧ q.Opens alertId

theorem Fits.of_scored {t t' : Server} {started : Bool} {q : Phase} (h : Fits t started q)
    (hscored : ∀ alertId score, t.Scored alertId score → t'.Scored alertId score) :
    Fits t' started q := by
  cases q with
  | fresh producer => exact h
  | inserted producer alertId score => exact ⟨hscored _ _ h.1, h.2⟩
  | refreshed producer alertId score => exact ⟨hscored _ _ h.1, h.2⟩
  | escalated producer alertId => exact h
  | done => trivial

namespace Accounted

variable [DecidableEq ι] {deliveries : ι → Consumed} {qs : ι → Option Phase} {t t' : Server} {i : ι}
  {q q' : Phase} {o : Option Phase}

/-- What a task owes is still owed after another one, or itself, moved on. -/
theorem kept {owes : Phase → Prop} (h : ∃ j q, qs j = some q ∧ owes q)
    (hi : ∀ q, qs i = some q → owes q → ∃ q', o = some q' ∧ owes q') :
    ∃ j q, Function.update qs i o j = some q ∧ owes q := by
  obtain ⟨j, q, hj, howes⟩ := h
  by_cases hji : j = i
  · subst hji
    obtain ⟨q', ho, howes'⟩ := hi q hj howes
    exact ⟨j, q', by rw [Function.update_self, ho], howes'⟩
  · exact ⟨j, q, by rw [Function.update_of_ne hji, hj], howes⟩

theorem fits_update (h : Accounted deliveries qs t)
    (ho : ∀ q, o = some q → Fits t' (deliveries i).producer q)
    (hscored : ∀ a score, t.Scored a score → t'.Scored a score) :
    ∀ j q, Function.update qs i o j = some q → Fits t' (deliveries j).producer q := by
  intro j q hj
  rcases Pool.update_cases hj with ⟨rfl, hchanged⟩ | ⟨-, hj⟩
  · exact ho q hchanged
  · exact (h.fits j q hj).of_scored hscored

/-- A task moves on without an effect on the alerts. What it owed is done, or it still owes it. -/
theorem move (h : Accounted deliveries qs t) (halerts : t'.alerts = t.alerts)
    (hevents : ∀ a, t.Opened a → t'.Opened a)
    (ho : ∀ q, o = some q → Fits t (deliveries i).producer q)
    (hescalates : ∀ q a row, qs i = some q → t.alerts a = some row → 8 / 10 ≤ row.score →
      q.Escalates a → ∃ q', o = some q' ∧ q'.Escalates a)
    (hopens : ∀ q a, qs i = some q → q.Opens a → t'.Opened a) :
    Accounted deliveries (Function.update qs i o) t' := by
  have hscored : ∀ a score, t.Scored a score → t'.Scored a score := by
    intro a score ⟨row, hrow, hscore⟩
    exact ⟨row, by rw [halerts, hrow], hscore⟩
  refine ⟨h.fits_update (fun q hq => (ho q hq).of_scored hscored) hscored, ?_, ?_⟩
  · intro a row hrow hhigh
    rw [halerts] at hrow
    rcases h.escalated a row hrow hhigh with hdone | howed
    · exact Or.inl hdone
    · exact Or.inr (kept howed fun q hq => hescalates q a row hq hrow hhigh)
  -- a case is owed by this task, which opens it, or by another one
  · intro a row hrow hstatus
    rw [halerts] at hrow
    rcases h.opened a row hrow hstatus with hdone | howed
    · exact Or.inl (hevents a hdone)
    · by_cases hq : ∃ q, qs i = some q ∧ q.Opens a
      · obtain ⟨q, hi, hopen⟩ := hq
        exact Or.inl (hopens q a hi hopen)
      · exact Or.inr (kept howed fun q hi hopen => absurd ⟨q, hi, hopen⟩ hq)

/-- A task starts. -/
theorem start (h : Accounted deliveries qs t) (hi : qs i = none) :
    Accounted deliveries (Function.update qs i (some (.fresh (deliveries i).producer))) t := by
  have hno : ∀ q, qs i ≠ some q := by
    intro q
    rw [hi]
    nofun
  refine h.move rfl (fun _ ha => ha) ?_ ?_ ?_
  · rintro q ⟨⟩
    rfl
  · intro q a row hq
    exact absurd hq (hno q)
  · intro q a hq
    exact absurd hq (hno q)

/-- A task that owes nothing leaves, or has nothing left to do. -/
theorem leave (h : Accounted deliveries qs t) (hi : qs i = some q)
    (halerts : t'.alerts = t.alerts) (hevents : ∀ a, t.Opened a → t'.Opened a)
    (ho : ∀ q', o = some q' → q' = .done)
    (hescalates : ∀ a row, t.alerts a = some row → q.Escalates a → row.score < 8 / 10)
    (hopens : ∀ a, q.Opens a → t'.Opened a) :
    Accounted deliveries (Function.update qs i o) t' := by
  have hsame : ∀ {r}, qs i = some r → r = q := fun hr => Option.some.inj (hr.symm.trans hi)
  refine h.move halerts hevents ?_ ?_ ?_
  · intro q' hq'
    rw [ho q' hq']
    trivial
  · intro r a row hr hrow hhigh howes
    rw [hsame hr] at howes
    exact absurd hhigh (not_le.mpr (hescalates a row hrow howes))
  · intro r a hr hopen
    rw [hsame hr] at hopen
    exact hopens a hopen

/-- A task stores a row under the alert that it works on. What the row now lacks it owes. -/
theorem put {alertId : String} {row : Alert} (h : Accounted deliveries qs t) (hi : qs i = some q)
    (hself : t'.alerts alertId = some row) (hother : ∀ a, a ≠ alertId → t'.alerts a = t.alerts a)
    (hevents : t'.events = t.events)
    (hscore : ∀ old, t.alerts alertId = some old → row.score = old.score)
    (ho : ∀ q', o = some q' → Fits t' (deliveries i).producer q')
    (hescalated : 8 / 10 ≤ row.score →
      row.status = "ESCALATED" ∨ ∃ q', o = some q' ∧ q'.Escalates alertId)
    (hopened : row.status = "ESCALATED" → ∃ q', o = some q' ∧ q'.Opens alertId)
    (howed : ∀ a, q.Escalates a ∨ q.Opens a → a = alertId) :
    Accounted deliveries (Function.update qs i o) t' := by
  have hscored : ∀ a score, t.Scored a score → t'.Scored a score := by
    intro a score ⟨r, hr, hr'⟩
    by_cases ha : a = alertId
    · subst ha
      exact ⟨row, hself, (hscore r hr).trans hr'⟩
    · exact ⟨r, (hother a ha).trans hr, hr'⟩
  have hsame : ∀ {r}, qs i = some r → r = q := fun hr => Option.some.inj (hr.symm.trans hi)
  have hnow : ∀ {owes : Phase → Prop}, (∃ q', o = some q' ∧ owes q') →
      ∃ j r, Function.update qs i o j = some r ∧ owes r := by
    rintro owes ⟨q', rfl, howes⟩
    exact ⟨i, q', Function.update_self .., howes⟩
  refine ⟨h.fits_update ho hscored, ?_, ?_⟩
  · intro a r hr hhigh
    -- its own row is the new one; every other row is as before, and so are those who owe it
    by_cases ha : a = alertId
    · subst ha
      obtain rfl : row = r := Option.some.inj (hself.symm.trans hr)
      exact (hescalated hhigh).imp id hnow
    · rw [hother a ha] at hr
      refine (h.escalated a r hr hhigh).imp id fun hold => kept hold ?_
      intro q' hq' howes
      rw [hsame hq'] at howes
      exact absurd (howed a (Or.inl howes)) ha
  · intro a r hr hstatus
    unfold Server.Opened
    rw [hevents]
    by_cases ha : a = alertId
    · subst ha
      obtain rfl : row = r := Option.some.inj (hself.symm.trans hr)
      exact Or.inr (hnow (hopened hstatus))
    · rw [hother a ha] at hr
      refine (h.opened a r hr hstatus).imp id fun hold => kept hold ?_
      intro q' hq' howes
      rw [hsame hq'] at howes
      exact absurd (howed a (Or.inr howes)) ha

/-- An alert is inserted. If its score is high, the task is to escalate it, and can open its
case. -/
theorem insert {producer : Bool} {alertId : String} {row : Alert}
    (h : Accounted deliveries qs t) (hi : qs i = some (.fresh producer))
    (hself : t'.alerts alertId = some row) (hother : ∀ a, a ≠ alertId → t'.alerts a = t.alerts a)
    (hevents : t'.events = t.events) (hnew : t.alerts alertId = none) (hstatus : row.status = "NEW")
    (hq : (q' = .inserted producer alertId row.score ∧ (8 / 10 ≤ row.score → producer = true)) ∨
      (q' = .done ∧ row.score < 8 / 10)) :
    Accounted deliveries (Function.update qs i (some q')) t' := by
  refine h.put hi hself hother hevents ?_ ?_ ?_ ?_ ?_
  · intro old hold
    exact absurd (hnew.symm.trans hold) nofun
  · rintro r ⟨⟩
    rcases hq with ⟨rfl, hproducer⟩ | ⟨rfl, -⟩
    · exact ⟨⟨row, hself, rfl⟩, hproducer⟩
    · trivial
  · intro hhigh
    rcases hq with ⟨rfl, -⟩ | ⟨-, hlow⟩
    · exact Or.inr ⟨_, rfl, rfl⟩
    · exact absurd hhigh (not_le.mpr hlow)
  · intro hescalated
    rw [hstatus] at hescalated
    exact absurd hescalated (by decide)
  · rintro a (howes | howes)
    · exact howes.elim
    · exact howes.elim

/-- An alert is escalated, and the task is to open its case. -/
theorem update {producer : Bool} {alertId : String} {row row' : Alert} {score : ℚ}
    (h : Accounted deliveries qs t) (hi : qs i = some (.refreshed producer alertId score))
    (hself : t'.alerts alertId = some row') (hother : ∀ a, a ≠ alertId → t'.alerts a = t.alerts a)
    (hevents : t'.events = t.events) (hrow : t.alerts alertId = some row)
    (hscore : row'.score = row.score) (hstatus : row'.status = "ESCALATED")
    (hproducer : producer = true) :
    Accounted deliveries (Function.update qs i (some (.escalated producer alertId))) t' := by
  refine h.put hi hself hother hevents ?_ ?_ (fun _ => Or.inl hstatus) (fun _ => ⟨_, rfl, rfl⟩) ?_
  · intro old hold
    obtain rfl : row = old := Option.some.inj (hrow.symm.trans hold)
    exact hscore
  · rintro r ⟨⟩
    exact hproducer
  · rintro a (howes | howes)
    · exact howes.symm
    · exact howes.elim

end Accounted

/-! ## Runs -/

section Runs

variable [DecidableEq ι] {ids : ℕ → String} {deliveries : ι → Consumed} {qs : ι → Option Phase}
  {s : Pool ι Server Ret Exn Unit} {t : Server} {i : ι} {q : Phase} {op : Op} {d : Delivery Exn}

omit [DecidableEq ι] in
/-- What a commit stores is new. -/
theorem Server.of_stores {alert : NewAlert} {row : Alert} (h : t.stores ids alert = some row) :
    t.alerts (ids t.drawn) = none ∧ row.status = "NEW" ∧
      row.score = alert.score.number?.getD 0 := by
  unfold stores at h
  split at h
  · rename_i hnone
    refine ⟨hnone, ?_⟩
    unfold NewAlert.row at h
    split at h
    · rename_i hscore
      obtain rfl := Option.some.inj h
      rw [hscore]
      exact ⟨rfl, rfl⟩
    · cases h
  · cases h

omit [DecidableEq ι] in
theorem Server.perform_insert {alert : NewAlert} {row : Alert} (h : t.stores ids alert = some row) :
    t.perform ids (.insert alert)
      = (.ok (ids t.drawn),
          { t with
            alerts := Function.update t.alerts (ids t.drawn) (some row)
            drawn := t.drawn + 1 }) := by
  simp only [perform, h]

omit [DecidableEq ι] in
theorem Server.perform_insert_refused {alert : NewAlert} (h : t.stores ids alert = none) :
    t.perform ids (.insert alert) = (.error refused, { t with drawn := t.drawn + 1 }) := by
  simp only [perform, h]

/-- An insert that stores nothing leaves nothing to do. -/
theorem Accounted.not_inserted {producer : Bool} {t' : Server} (h : Accounted deliveries qs t)
    (hi : qs i = some (.fresh producer)) (halerts : t'.alerts = t.alerts)
    (hevents : t'.events = t.events) :
    Accounted deliveries (Function.update qs i (some .done)) t' := by
  refine h.leave hi halerts ?_ ?_ nofun nofun
  · intro a ha
    unfold Server.Opened
    rw [hevents]
    exact ha
  · rintro q' ⟨⟩
    rfl

/-- The alert of an insert that the side condition admits is owed by a task that can open its
case. -/
theorem Accounted.insert_command {producer : Bool} {alert : NewAlert}
    (h : Accounted deliveries qs s.shared) (hi : qs i = some (.fresh producer))
    (hok : Whole ids deliveries s (.command i (.insert alert) d)) :
    let x := d.outcome (s.shared.perform ids (.insert alert)) s.shared
    ∃ q', operations.rely (.fresh producer) ⟨.insert alert, x.1⟩ q' ∧
      Accounted deliveries (Function.update qs i (some q')) x.2 := by
  cases hstores : s.shared.stores ids alert with
  | none =>
    rw [Server.perform_insert_refused hstores]
    cases d with
    | answered => exact ⟨_, rfl, h.not_inserted hi rfl rfl⟩
    | unanswered e => exact ⟨_, rfl, h.not_inserted hi rfl rfl⟩
    | lost e => exact ⟨_, rfl, h.not_inserted hi rfl rfl⟩
  | some row =>
    obtain ⟨hnew, hstatus, hscore⟩ := Server.of_stores hstores
    have hother : ∀ a, a ≠ ids s.shared.drawn →
        Function.update s.shared.alerts (ids s.shared.drawn) (some row) a = s.shared.alerts a :=
      fun a ha => Function.update_of_ne ha ..
    rw [Server.perform_insert hstores]
    cases d with
    | answered =>
      refine ⟨_, rfl, h.insert hi (Function.update_self ..) hother rfl hnew hstatus
        (Or.inl ⟨?_, ?_⟩)⟩
      · rw [hscore]
        rfl
      · intro hhigh
        rcases hok row hstores hhigh with ⟨e, hlost⟩ | ⟨-, hproducer⟩
        · cases hlost
        · exact (h.fits i _ hi).trans hproducer
    -- stored without an answer: nobody will escalate it, so the score must be low
    | unanswered e =>
      refine ⟨_, rfl, h.insert hi (Function.update_self ..) hother rfl hnew hstatus
        (Or.inr ⟨rfl, ?_⟩)⟩
      apply not_le.mp
      intro hhigh
      rcases hok row hstores hhigh with ⟨e, hlost⟩ | ⟨hanswered, -⟩
      · cases hlost
      · cases hanswered
    | lost e => exact ⟨_, rfl, h.not_inserted hi rfl rfl⟩

/-- The refresh of an alert with a high score is answered. -/
theorem Accounted.refresh_command {producer : Bool} {alertId : String} {score : ℚ}
    (h : Accounted deliveries qs s.shared) (hi : qs i = some (.inserted producer alertId score))
    (hok : Whole ids deliveries s (.command i (.refresh alertId) d)) :
    let x := d.outcome (s.shared.perform ids (.refresh alertId)) s.shared
    ∃ q', operations.rely (.inserted producer alertId score) ⟨.refresh alertId, x.1⟩ q' ∧
      Accounted deliveries (Function.update qs i (some q')) x.2 := by
  have hfits := h.fits i _ hi
  have hscored := hfits.1
  obtain ⟨row, hrow, hscore⟩ := hscored
  have hperform : s.shared.perform ids (.refresh alertId) = (.ok (), s.shared) := by
    simp only [Server.perform, hrow]
  have hdone : d ≠ .answered →
      Accounted deliveries (Function.update qs i (some .done)) s.shared := by
    intro hd
    refine h.leave hi rfl (fun _ ha => ha) ?_ ?_ nofun
    · rintro q' ⟨⟩
      rfl
    · rintro a r hr rfl
      obtain rfl : row = r := Option.some.inj (hrow.symm.trans hr)
      apply not_le.mp
      intro hhigh
      exact hd (hok ⟨row, hrow, hhigh⟩)
  rw [hperform]
  cases d with
  | answered =>
    refine ⟨_, rfl, h.move rfl (fun _ ha => ha) ?_ ?_ ?_⟩
    · rintro q' ⟨⟩
      exact hfits
    · intro q a r hq _ _ howes
      obtain rfl := Option.some.inj (hi.symm.trans hq)
      exact ⟨_, rfl, howes⟩
    · intro q a hq hopen
      obtain rfl := Option.some.inj (hi.symm.trans hq)
      exact hopen.elim
  | unanswered e => exact ⟨_, rfl, hdone nofun⟩
  | lost e => exact ⟨_, rfl, hdone nofun⟩

/-- An operation that the side condition admits keeps the account. -/
theorem Accounted.command (h : Accounted deliveries qs s.shared) (hi : qs i = some q)
    (hguar : operations.guar q op) (hok : Whole ids deliveries s (.command i op d)) :
    let x := d.outcome (s.shared.perform ids op) s.shared
    ∃ q', operations.rely q ⟨op, x.1⟩ q' ∧
      Accounted deliveries (Function.update qs i (some q')) x.2 := by
  cases q with
  | fresh producer =>
    obtain ⟨alert, rfl⟩ := hguar
    exact h.insert_command hi hok
  | inserted producer alertId score =>
    cases hguar
    exact h.refresh_command hi hok
  | refreshed producer alertId score =>
    obtain ⟨rfl, hhigh⟩ := hguar
    obtain ⟨⟨row, hrow, -⟩, hproducer⟩ := h.fits i _ hi
    -- the side condition leaves only an answered update
    obtain rfl : d = .answered := hok trivial
    have hperform : s.shared.perform ids (.update alertId "ESCALATED")
        = (.ok (),
            { s.shared with
              alerts := Function.update s.shared.alerts alertId
                (some { row with status := "ESCALATED" }) }) := by
      simp only [Server.perform, hrow]
    rw [hperform]
    exact ⟨_, rfl, h.update hi (Function.update_self ..) (fun a ha => Function.update_of_ne ha ..)
      rfl hrow rfl rfl (hproducer hhigh)⟩
  | escalated producer alertId =>
    obtain ⟨value, rfl, hvalue⟩ := hguar
    have hopened : Accounted deliveries (Function.update qs i (some .done))
        { s.shared with
          events := s.shared.events ++ [⟨"case.opened", alertId, value⟩] } := by
      refine h.leave hi rfl ?_ ?_ nofun ?_
      · rintro a ⟨e, he, hcase⟩
        exact ⟨e, List.mem_append_left _ he, hcase⟩
      · rintro q' ⟨⟩
        rfl
      · rintro a rfl
        exact ⟨_, List.mem_append_right _ (List.mem_singleton_self _), rfl, hvalue⟩
    cases d with
    | answered => exact ⟨_, rfl, hopened⟩
    -- the broker has the event, with or without an answer
    | unanswered e => exact ⟨_, rfl, hopened⟩
    | lost e => exact absurd rfl (hok e)
  | done => exact hguar.elim

/-- A task that has ended owes nothing, if its service has started the producer. -/
theorem Accounted.finish {r : Except Exn Unit} (h : Accounted deliveries qs t) (hi : qs i = some q)
    (hends : Ends r q) : Accounted deliveries (Function.update qs i none) t := by
  have hfits := h.fits i q hi
  refine h.leave hi rfl (fun _ ha => ha) nofun ?_ ?_
  · intro a row hrow howes
    cases q with
    | inserted producer alertId score => exact hends.elim
    | refreshed producer alertId score =>
      obtain ⟨⟨row', hrow', hscore⟩, -⟩ := hfits
      cases howes
      obtain rfl : row' = row := Option.some.inj (hrow'.symm.trans hrow)
      rw [hscore]
      exact hends
    | _ => exact howes.elim
  · intro a howes
    cases q with
    | escalated producer alertId => exact absurd (hends.symm.trans hfits) Bool.false_ne_true
    | _ => exact howes.elim

/-- A task that dies owes nothing, where the side condition admits it. -/
theorem Accounted.die {p : Prog Ret Exn Unit} (h : Accounted deliveries qs s.shared)
    (htask : s.tasks i = some p) (hi : qs i = some q) (hwp : p.wp operations Ends q)
    (hok : Whole ids deliveries s (.die i)) :
    Accounted deliveries (Function.update qs i none) s.shared := by
  cases p with
  | pure a => exact h.finish hi hwp
  | raise e => exact h.finish hi hwp
  | call op k =>
    have howes := hok op k htask
    have hguar := hwp.1
    have hfits := h.fits i q hi
    refine h.leave hi rfl (fun _ ha => ha) nofun ?_ ?_
    · intro a row hrow hescalates
      cases q with
      | inserted producer alertId score =>
        cases hguar
        cases hescalates
        apply not_le.mp
        intro hhigh
        exact howes ⟨row, hrow, hhigh⟩
      | refreshed producer alertId score =>
        obtain ⟨rfl, -⟩ := hguar
        exact absurd trivial howes
      | _ => exact hescalates.elim
    · intro a hopens
      cases q with
      | escalated producer alertId =>
        obtain ⟨value, rfl, -⟩ := hguar
        exact absurd trivial howes
      | _ => exact hopens.elim

end Runs

/-- In every run on an empty table in which the escalation of no alert with a high score is cut
short, whenever no event is in progress, every escalated alert has its case and every alert with a
high score is escalated. -/
theorem alerts_together [DecidableEq ι] (lib : PyLib) (ids : ℕ → String)
    (deliveries : ι → Consumed) (s : Pool ι Server Ret Exn Unit)
    (hrun : Pool.Run (alertTasks lib ids deliveries) (Whole ids deliveries) emptyAlerts s)
    (hquiet : s.Quiet) : Together s.shared := by
  have hempty : Accounted deliveries (fun _ => none) (emptyAlerts (ι := ι)).shared :=
    ⟨nofun, nofun, nofun⟩
  have hinvariant : ∃ qs, Pool.Meets operations Ends s.tasks qs ∧
      Accounted deliveries qs s.shared := by
    refine Pool.invariant_of_meets (Accounted deliveries) ?_ ?_ ?_ ?_ ?_
      (fun _ => Or.inl ⟨rfl, rfl⟩) hempty hrun
    · intro qs s i hmeets h hi _
      exact ⟨_, wp_consumeAlert lib _ _, h.start (hmeets.none hi)⟩
    · intro qs s i q op d _ h hi hguar hok
      exact h.command hi hguar hok
    · intro qs t i q r h hi hends
      exact h.finish hi hends
    · intro qs s i p q h htask hi hwp hok
      exact h.die htask hi hwp hok
    · intro qs t t' _ hdrift
      exact hdrift.elim
  obtain ⟨qs, hmeets, h⟩ := hinvariant
  -- no task is left that could owe anything
  have hnone : ∀ i, qs i = none := fun i => hmeets.none (hquiet i)
  constructor
  · intro a row hrow hstatus
    rcases h.opened a row hrow hstatus with hopened | ⟨i, q, hi, -⟩
    · exact hopened
    · exact absurd ((hnone i).symm.trans hi) nofun
  · intro a row hrow hhigh
    rcases h.escalated a row hrow hhigh with hescalated | ⟨i, q, hi, -⟩
    · exact hescalated
    · exact absurd ((hnone i).symm.trans hi) nofun

/-! ### One event -/

/-- An event with a high score, to a service that has started its producer. -/
def highScore (_ : Unit) : Consumed where
  value := .dict [("payload", .dict [("transaction_id", .str "t-1"), ("customer_id", .str "c-1"),
    ("score", .float (9 / 10))])]
  producer := true

/-- The deliveries of the event. -/
def highScoreTasks : Setting Unit Server Ret Exn Unit :=
  alertTasks CompactJson.compactJson (fun _ => "alt_1") highScore

/-- What a delivery leaves, depending on how its operations fare. -/
def afterEvent (ds : List (Delivery Exn)) : Server :=
  Pool.script (highScoreTasks.perform ()) (highScoreTasks.program ()) ds ⟨fun _ => none, 0, []⟩

/-- The score is compared by value. -/
theorem program_highScore : highScoreTasks.program () = (do
    let alertId ← Prog.await (Op.insert ⟨.str "t-1", .str "c-1", .float (9 / 10),
      "Fraud score exceeded threshold: " ++ CompactJson.compactJson.str (.float (9 / 10))⟩)
    Prog.await (Op.refresh alertId)
    Prog.await (Op.update alertId "ESCALATED")
    Prog.await (Op.sendAndWait "case.opened" alertId
      (casePayload alertId (.str "t-1") (.str "c-1")))) := by
  have hge : Operator.ge.apply (.float (9 / 10)) (.float (8 / 10)) = .ok true := by
    rcases Operator.apply_ge_float (.float (9 / 10)) (8 / 10) with ⟨p, ⟨⟩, hge⟩ | ⟨hnone, -⟩
    · rw [hge]
      norm_num
    · cases hnone
  unfold highScoreTasks alertTasks consumeAlert highScore publishEvent
  simp [Json.truthy, List.lookup_cons, hge]

theorem run_whole : Pool.Run highScoreTasks (Whole (fun _ => "alt_1") highScore) emptyAlerts
    ⟨fun _ => none, afterEvent (List.replicate 4 .answered)⟩ := by
  refine Pool.run_task (i := ()) rfl trivial ?_
  rw [program_highScore]
  refine ⟨?_, ?_, ?_, ?_, trivial⟩
  · intro row _ _
    exact Or.inr ⟨rfl, rfl⟩
  · intro _
    rfl
  · intro _
    rfl
  · intro e
    nofun

/-- The alert of a delivery that is not cut short. -/
theorem alerts_afterEvent : ∃ row,
    (afterEvent (List.replicate 4 .answered)).alerts "alt_1" = some row ∧
      row.status = "ESCALATED" := by
  unfold afterEvent
  rw [program_highScore]
  exact ⟨_, rfl, rfl⟩

/-- A delivery that is not cut short opens the case of its alert. -/
theorem alerts_together_delivered :
    (afterEvent (List.replicate 4 .answered)).Opened "alt_1" := by
  obtain ⟨row, hrow, hstatus⟩ := alerts_afterEvent
  have htogether := alerts_together CompactJson.compactJson (fun _ => "alt_1") highScore
    ⟨fun _ => none, afterEvent (List.replicate 4 .answered)⟩ run_whole fun _ => rfl
  exact htogether.opened "alt_1" row hrow hstatus

/-- The process dies after the insert: the alert has a high score and is not escalated. -/
theorem escalation_cut_short : ¬ ∀ s, Pool.Run highScoreTasks (fun _ _ => True) emptyAlerts s →
    s.Quiet → Together s.shared := by
  intro hclaim
  have hrun : Pool.Run highScoreTasks (fun _ _ => True) emptyAlerts
      ⟨fun _ => none, afterEvent [.answered]⟩ :=
    Pool.run_task (i := ()) rfl trivial ⟨trivial, trivial⟩
  have htogether := hclaim _ hrun fun _ => rfl
  have hstatus := htogether.escalated "alt_1" _ rfl (by decide +kernel)
  exact absurd hstatus (by decide)

end FraudDetection.Alerts
