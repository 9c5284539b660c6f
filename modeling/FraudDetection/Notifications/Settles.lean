import FraudDetection.Notifications.Dispatch

/-!
# Dispatch settles every channel

With Redis and the database working, a call that finds no marker and carries texts records one
notification and one attempt for each channel, in their order, by the outcome of the send on that
channel. `Call.record` is that pair of rows. `leads_notify` shows that the body of the loop adds it,
and `leads_notifyAll` that the loop adds the pairs of all channels.
-/

namespace FraudDetection.Notifications

open Async Python Store

/-! ## What is recorded -/

section Record

variable (py : PyLib) (c : Call)

/-- What is recorded about the send on a channel. -/
def Call.settlement (ch : Channel) : Settlement :=
  match c.outcome ch with
  | .ok success => .ofSuccess (c.utcnow ch) success
  | .error e => .ofException e

/-- The rows of a channel, under the id its notification has drawn. -/
def Call.record (id : ℕ) (ch : Channel) : Notification × DeliveryAttempt :=
  ((((NotificationDispatcher.newNotification py c.notice ch).row id).settled (c.settlement ch)),
    (c.settlement ch).row id)

/-- The rows of the channels, the first of them under the given id. -/
def Call.records (id : ℕ) (channels : List Channel) : List (Notification × DeliveryAttempt) :=
  (channels.zipIdx id).map fun p => c.record py p.2 p.1

theorem Call.records_cons (id : ℕ) (ch : Channel) (channels : List Channel) :
    c.records py id (ch :: channels) = c.record py id ch :: c.records py (id + 1) channels := rfl

/-- Every channel has its rows. -/
theorem Call.exists_record (id : ℕ) {ch : Channel} {channels : List Channel} (hch : ch ∈ channels) :
    ∃ id', c.record py id' ch ∈ c.records py id channels := by
  induction channels generalizing id with
  | nil => cases hch
  | cons ch' channels ih =>
      rw [records_cons]
      rcases List.mem_cons.mp hch with rfl | hch
      · exact ⟨id, List.mem_cons_self⟩
      · obtain ⟨id', hid'⟩ := ih (id + 1) hch
        exact ⟨id', List.mem_cons_of_mem _ hid'⟩

/-- The notification and the attempt of a channel agree with the outcome of its send. -/
structure Recorded (ch : Channel) (p : Notification × DeliveryAttempt) : Prop where
  recipientId : p.1.recipientId = c.notice.recipientId
  alertId : p.1.alertId = c.notice.alertId
  channel : p.1.channel = ch
  attemptOf : p.2.notificationId = p.1.id ∧ p.2.attemptNumber = 1
  sent : c.outcome ch = .ok true →
    p.1.status = .sent ∧ p.1.sentAt = some (c.utcnow ch) ∧ p.2.status = .success
  failed : c.outcome ch ≠ .ok true →
    p.1.status = .failed ∧ p.1.sentAt = none ∧ p.2.status = .failed

theorem Call.recorded_record (id : ℕ) (ch : Channel) : Recorded c ch (c.record py id ch) where
  recipientId := rfl
  alertId := rfl
  channel := rfl
  attemptOf := ⟨rfl, rfl⟩
  sent := by
    intro h
    simp [record, settlement, h, Settlement.ofSuccess, Notification.settled, Settlement.row]
  failed := by
    intro h
    cases hout : c.outcome ch with
    | error e =>
        simp [record, settlement, hout, Settlement.ofException, Notification.settled,
          Settlement.row]
    | ok success =>
        cases success with
        | true => exact absurd hout h
        | false =>
            simp [record, settlement, hout, Settlement.ofSuccess, Notification.settled,
              Settlement.row]

theorem Call.recorded_records (id : ℕ) (channels : List Channel) :
    List.Forall₂ (Recorded c) channels (c.records py id channels) := by
  induction channels generalizing id with
  | nil => exact .nil
  | cons ch channels ih => exact .cons (c.recorded_record py id ch) (ih (id + 1))

/-- The rows of a channel do not depend on the sends on the others. -/
theorem Call.records_congr {c' : Call} {ch₀ : Channel} (hpayload : c'.payload = c.payload)
    (hothers : ∀ ch, ch ≠ ch₀ → c'.outcome ch = c.outcome ch ∧ c'.utcnow ch = c.utcnow ch)
    (id : ℕ) (channels : List Channel) :
    List.Forall₂ (fun p p' => p.1.channel ≠ ch₀ → p' = p) (c.records py id channels)
      (c'.records py id channels) := by
  have hnotice : c'.notice = c.notice := congrArg Notice.ofFields hpayload
  induction channels generalizing id with
  | nil => exact .nil
  | cons ch channels ih =>
      refine .cons ?_ (ih (id + 1))
      intro hch
      obtain ⟨houtcome, hutcnow⟩ := hothers ch hch
      have hsettlement : c'.settlement ch = c.settlement ch := by
        rw [settlement, settlement, houtcome, hutcnow]
      show c'.record py id ch = c.record py id ch
      unfold record
      rw [hsettlement, hnotice]

end Record

/-! ## The loop over the channels -/

section Loop

variable {py : PyLib} {self : NotificationDispatcher} {db : Database}
  {c : Call} {t : Server}

/-- The sends raise exceptions that `except Exception` catches. -/
def Call.Caught (c : Call) : Prop := ∀ ch x, c.outcome ch = .error x → x.isException = true

/-- The database does not refuse the notifications of a call, and what is recorded about its
sends. -/
structure Call.Accepted (py : PyLib) (db : Database) (c : Call) : Prop where
  insert : ∀ ch ∈ c.notice.channels,
    db.insert (NotificationDispatcher.newNotification py c.notice ch) = none
  settle : ∀ ch ∈ c.notice.channels, db.settle (c.settlement ch) = none

/-- The ids of a call are texts or nulls; these, the subject and the errors of the sends fit into
the columns. -/
structure Call.Texts (py : PyLib) (c : Call) : Prop where
  recipientId : StorableId c.notice.recipientId
  alertId : StorableId c.notice.alertId
  subject : Storable columnLimit (NotificationDispatcher.subject py c.notice)
  error : ∀ ch e, c.outcome ch = .error e → Storable columnLimit e.text

theorem Call.Texts.accepted (h : c.Texts py) (hdb : db.TakesTexts) : c.Accepted py db where
  insert ch _ := hdb.insert _ h.recipientId h.alertId h.subject
  settle ch _ := by
    apply hdb.settle
    intro text htext
    unfold Call.settlement at htext
    cases hout : c.outcome ch with
    | error e =>
        rw [hout] at htext
        cases htext
        exact h.error ch e hout
    | ok success =>
        rw [hout] at htext
        cases success <;> cases htext

theorem leads_trySend (hcaught : c.Caught) (ch : Channel)
    {P : Except Exn Settlement → Server → Prop} :
    Prog.Leads (Server.perform db c)
        (NotificationDispatcher.trySend py self c.notice c.utcnow ch) t P ↔
      P (.ok (c.settlement ch)) t := by
  unfold NotificationDispatcher.trySend Call.settlement
  rw [Prog.leads_tryExcept, Prog.leads_bind, Prog.leads_await]
  simp only [Server.perform, NotificationDispatcher.channel_message]
  cases hout : c.outcome ch with
  | ok success => exact Iff.rfl
  | error e =>
      simp only [hcaught ch e hout, if_true]
      exact Iff.rfl

/-- The server after the rows of a channel have been added. -/
def Server.settledFor (py : PyLib) (c : Call) (t : Server) (ch : Channel) : Server :=
  { t with
    notifications := (t.notifications.insert (NotificationDispatcher.newNotification py c.notice
      ch)).settle t.notifications.drawn (c.settlement ch)
    attempts := t.attempts ++ [(c.record py t.notifications.drawn ch).2] }

theorem Server.rows_settledFor (ch : Channel) : (t.settledFor py c ch).notifications.rows
    = t.notifications.rows ++ [(c.record py t.notifications.drawn ch).1] :=
  NotificationTable.rows_settle_insert ..

/-- The body of the loop adds the rows of its channel. -/
theorem leads_notify (hcaught : c.Caught) {ch : Channel}
    (hinsert : db.insert (NotificationDispatcher.newNotification py c.notice ch) = none)
    (hsettle : db.settle (c.settlement ch) = none)
    {P : Except Exn Unit → Server → Prop} :
    Prog.Leads (Server.perform db c)
        (NotificationDispatcher.notify py self c.notice c.utcnow ch) t P ↔
      P (.ok ()) (t.settledFor py c ch) := by
  unfold NotificationDispatcher.notify
  rw [Prog.leads_bind, Prog.leads_await]
  simp only [Server.perform, hinsert]
  rw [Prog.leads_bind, Prog.leads_await]
  simp only [Server.perform, NotificationTable.has_insert, if_true]
  rw [Prog.leads_bind, leads_trySend hcaught]
  simp only [Prog.leads_await, Server.perform, NotificationTable.has_insert, if_true, hsettle]
  exact Iff.rfl

variable (self) in
/-- The loop adds the rows of the channels in their order. -/
theorem leads_notifyAll (hcaught : c.Caught) {channels : List Channel}
    (hinsert : ∀ ch ∈ channels,
      db.insert (NotificationDispatcher.newNotification py c.notice ch) = none)
    (hsettle : ∀ ch ∈ channels, db.settle (c.settlement ch) = none) :
    Prog.Leads (Server.perform db c)
      (NotificationDispatcher.notifyAll py self c.notice c.utcnow channels) t fun r t' =>
        r = .ok () ∧ t'.redis = t.redis ∧
        t'.notifications.rows = t.notifications.rows
          ++ (c.records py t.notifications.drawn channels).map Prod.fst ∧
        t'.attempts = t.attempts ++ (c.records py t.notifications.drawn channels).map Prod.snd := by
  induction channels generalizing t with
  | nil => exact ⟨rfl, rfl, (List.append_nil _).symm, (List.append_nil _).symm⟩
  | cons ch channels ih =>
      rw [NotificationDispatcher.notifyAll, Prog.leads_bind,
        leads_notify hcaught (hinsert ch List.mem_cons_self) (hsettle ch List.mem_cons_self)]
      have hrest := @ih (t.settledFor py c ch)
        (fun ch' hch' => hinsert ch' (List.mem_cons_of_mem ch hch'))
        (fun ch' hch' => hsettle ch' (List.mem_cons_of_mem ch hch'))
      obtain ⟨hresult, hredis, hrows, hattempts⟩ := hrest
      refine ⟨hresult, hredis, ?_, ?_⟩
      · rw [hrows, Server.rows_settledFor, Call.records_cons, List.map_cons, List.append_assoc]
        rfl
      · rw [hattempts, Call.records_cons, List.map_cons]
        show t.attempts ++ [_] ++ _ = _
        rw [List.append_assoc]
        rfl

end Loop

/-! ## The call -/

section Run

variable {py : PyLib} {self : NotificationDispatcher} {db : Database}
  {c : Call} {t : Server}

variable (self) in
/-- A call that does not find the marker sets it, and adds the rows of all channels. -/
theorem run_settles (h : ¬ t.Marked c.getAt (c.notice.key py)) (hcaught : c.Caught)
    (haccepted : c.Accepted py db) :
    (c.run py self db t).result = .ok true ∧
      (c.run py self db t).final.redis = (t.mark c.setAt (c.notice.key py)).redis ∧
      (c.run py self db t).final.notifications.rows = t.notifications.rows
        ++ (c.records py t.notifications.drawn c.notice.channels).map Prod.fst ∧
      (c.run py self db t).final.attempts = t.attempts
        ++ (c.records py t.notifications.drawn c.notice.channels).map Prod.snd := by
  have hleads : Prog.Leads (Server.perform db c) (c.program py self) t
      fun r t' => r = .ok true ∧
        t'.redis = (t.mark c.setAt (c.notice.key py)).redis ∧
        t'.notifications.rows = t.notifications.rows
          ++ (c.records py t.notifications.drawn c.notice.channels).map Prod.fst ∧
        t'.attempts = t.attempts
          ++ (c.records py t.notifications.drawn c.notice.channels).map Prod.snd := by
    rw [leads_program]
    refine ⟨fun hmarked => absurd hmarked h, fun _ => ?_⟩
    unfold NotificationDispatcher.proceed
    rw [Prog.leads_bind, Prog.leads_await, Server.perform_set]
    simp only
    obtain ⟨hresult, hrest⟩ := leads_notifyAll self
      (t := t.mark c.setAt (c.notice.key py)) hcaught haccepted.insert haccepted.settle
    rw [Prog.leads_bind, Prog.Leads, hresult]
    exact ⟨rfl, hrest⟩
  exact hleads

variable (self) in
/-- A call sets the marker and raises where the database refuses the notification of the first
channel: no row is written. -/
theorem run_refused (h : ¬ t.Marked c.getAt (c.notice.key py)) {x : Exn}
    (hrefused : db.insert (NotificationDispatcher.newNotification py c.notice .email) = some x) :
    (c.run py self db t).result = .error x ∧
      (c.run py self db t).final = t.mark c.setAt (c.notice.key py) := by
  have hleads : Prog.Leads (Server.perform db c) (c.program py self) t
      fun r t' => r = .error x ∧ t' = t.mark c.setAt (c.notice.key py) := by
    rw [leads_program]
    refine ⟨fun hmarked => absurd hmarked h, fun _ => ?_⟩
    unfold NotificationDispatcher.proceed Notice.channels channelsFor
    rw [Prog.leads_bind, Prog.leads_await, Server.perform_set]
    simp only
    rw [Prog.leads_bind, NotificationDispatcher.notifyAll, Prog.leads_bind,
      NotificationDispatcher.notify, Prog.leads_bind, Prog.leads_await]
    simp only [Server.perform, hrefused]
    exact ⟨trivial, trivial⟩
  exact hleads

end Run

/-- A call that carries texts and finds no marker returns `True` and adds a notification and an
attempt for each required channel, in their order, settled by the outcome of the send on that
channel alone. A call for the same recipient and alert within 24 hours returns `False` and changes
nothing. -/
theorem dispatch_settles (py : PyLib) (self : NotificationDispatcher) (db : Database) (c : Call)
    (t : Server) (hdb : db.TakesTexts) (htexts : c.Texts py) (hcaught : c.Caught)
    (hunmarked : ¬ t.Marked c.getAt (c.notice.key py)) :
    ∃ records t', (c.run py self db t).result = .ok true ∧
      (c.run py self db t).final = t' ∧
      t'.notifications.rows = t.notifications.rows ++ records.map Prod.fst ∧
      t'.attempts = t.attempts ++ records.map Prod.snd ∧
      List.Forall₂ (Recorded c) c.notice.channels records ∧
      (∀ (c' : Call) (ch₀ : Channel), c'.payload = c.payload → c'.getAt = c.getAt → c'.Caught →
        c'.Texts py →
        (∀ ch, ch ≠ ch₀ → c'.outcome ch = c.outcome ch ∧ c'.utcnow ch = c.utcnow ch) →
        ∃ records',
          (c'.run py self db t).final.notifications.rows
            = t.notifications.rows ++ records'.map Prod.fst ∧
          (c'.run py self db t).final.attempts = t.attempts ++ records'.map Prod.snd ∧
          List.Forall₂ (fun p p' => p.1.channel ≠ ch₀ → p' = p) records records') ∧
      ∀ c' : Call, c'.notice.recipientId = c.notice.recipientId → c'.notice.alertId = c.notice.alertId →
        c'.getAt ≤ c.setAt + 86400 →
        (c'.run py self db t').result = .ok false ∧ (c'.run py self db t').final = t' := by
  obtain ⟨hresult, hredis, hrows, hattempts⟩ :=
    run_settles self hunmarked hcaught (htexts.accepted hdb)
  refine ⟨_, _, hresult, rfl, hrows, hattempts, c.recorded_records py _ _, ?_, ?_⟩
  · intro c' ch₀ hpayload hgetAt hcaught' htexts' hothers
    have hnotice : c'.notice = c.notice := congrArg Notice.ofFields hpayload
    have hunmarked' : ¬ t.Marked c'.getAt (c'.notice.key py) := by
      rw [hgetAt, hnotice]
      exact hunmarked
    obtain ⟨-, -, hrows', hattempts'⟩ :=
      run_settles self hunmarked' hcaught' (htexts'.accepted hdb)
    refine ⟨_, hrows', hattempts', ?_⟩
    rw [hnotice]
    exact c.records_congr py hpayload hothers _ _
  · intro c' hrecipient halert htime
    apply run_marked
    have hkey : c'.notice.key py = c.notice.key py := by
      rw [Notice.key, Notice.key, hrecipient, halert]
    have hmarked : (t.mark c.setAt (c.notice.key py)).Marked c'.getAt (c.notice.key py) :=
      Server.marked_mark.mpr htime
    rw [hkey]
    unfold Server.Marked at hmarked ⊢
    rw [hredis]
    exact hmarked

/-- A critical alert: the mail is sent, the text message raises, Slack does not answer. -/
def criticalCall : Call where
  payload := [("recipient_id", .str "r-1"), ("alert_id", .str "a-1"), ("severity", .str "CRITICAL")]
  getAt := 0
  setAt := 0
  utcnow := fun _ => 1
  outcome
    | .email => .ok true
    | .sms => .error ⟨.other "ConnectError", "connection refused"⟩
    | .slack => .ok false
    | .webhook => .ok true

theorem caught_criticalCall : criticalCall.Caught := by
  intro ch x h
  cases ch with
  | sms =>
      cases h
      rfl
  | _ => cases h

theorem texts_criticalCall : criticalCall.Texts CompactJson.compactJson where
  recipientId := by decide +kernel
  alertId := by decide +kernel
  subject := by decide +kernel
  error := by
    intro ch e h
    cases ch with
    | sms =>
        cases h
        decide +kernel
    | _ => cases h

theorem dispatch_settles_criticalCall :
    ∃ records t',
      (criticalCall.run CompactJson.compactJson defaultDispatcher strictDatabase .empty).result
        = .ok true ∧
      (criticalCall.run CompactJson.compactJson defaultDispatcher strictDatabase .empty).final = t' ∧
      t'.notifications.rows = records.map Prod.fst ∧ t'.attempts = records.map Prod.snd ∧
      List.Forall₂ (Recorded criticalCall) [.email, .sms, .slack, .webhook] records := by
  obtain ⟨records, t', hresult, hfinal, hrows, hattempts, hrecords, -⟩ :=
    dispatch_settles CompactJson.compactJson defaultDispatcher strictDatabase criticalCall .empty
      takesTexts_strictDatabase texts_criticalCall caught_criticalCall (not_marked_empty _ _)
  exact ⟨records, t', hresult, hfinal, hrows, hattempts, hrecords⟩

/-- A call for a recipient with a number. -/
def numberedCall : Call where
  payload := [("recipient_id", .int 42), ("alert_id", .str "a-1")]
  getAt := 0
  setAt := 0
  utcnow := fun _ => 1
  outcome := fun _ => .ok true

/-- The database refuses the number, and the call raises with its marker set: the same call is then
suppressed, and nobody is ever notified. -/
theorem numbered_unsettled :
    strictDatabase.TakesTexts ∧ numberedCall.Caught ∧
      ¬ Server.empty.Marked numberedCall.getAt (numberedCall.notice.key CompactJson.compactJson) ∧
      (let x := numberedCall.run CompactJson.compactJson defaultDispatcher strictDatabase .empty
      x.result ≠ .ok true ∧ x.final.notifications.rows = [] ∧
        (numberedCall.run CompactJson.compactJson defaultDispatcher strictDatabase x.final).result
          = .ok false) := by
  have hunmarked : ¬ Server.empty.Marked numberedCall.getAt
      (numberedCall.notice.key CompactJson.compactJson) := not_marked_empty _ _
  have hrefused : strictDatabase.insert (NotificationDispatcher.newNotification
      CompactJson.compactJson numberedCall.notice .email)
        = some ⟨.other "DBAPIError", "invalid input for query argument"⟩ := by
    unfold strictDatabase
    dsimp only
    rw [if_neg]
    intro hids
    exact hids.1
  obtain ⟨hresult, hfinal⟩ := run_refused defaultDispatcher hunmarked hrefused
  refine ⟨takesTexts_strictDatabase, nofun, hunmarked, ?_, ?_, ?_⟩
  · rw [hresult]
    nofun
  · rw [hfinal]
    rfl
  · rw [hfinal]
    refine (run_marked ?_).1
    exact Server.marked_mark.mpr (by decide +kernel)

end FraudDetection.Notifications
