import Mathlib.Algebra.Order.Field.Rat
import FraudDetection.Async.Trace
import FraudDetection.Store.Keyspace
import FraudDetection.Python.CompactJson

/-!
# The notification dispatcher

`NotificationDispatcher.dispatch` looks for a marker of the recipient and the alert in Redis, sets
it, and then goes through the channels that the severity requires: for each of them it commits a
pending notification, sends, and commits what became of the send.

`run_marked` and `run_unmarked` say what a call does where it finds the marker and where it does
not. The loop over the channels does not touch Redis (`asks_notifyAll`).
-/

namespace FraudDetection.Notifications

open Async Python Store

/-! ## Channels and messages -/

inductive Channel where
  | email
  | sms
  | slack
  | webhook
  deriving DecidableEq, Repr

/-- `channels` -/
def channelsFor (severity : Json) : List Channel :=
  .email ::
    match severity with
    | .str "CRITICAL" => [.sms, .slack, .webhook]
    | .str "HIGH" => [.slack, .webhook]
    | .str "MEDIUM" => [.webhook]
    -- `LOW` has no branch, nor has any other severity: the e-mail only
    | _ => []

/-- The arguments of a channel's `send`. -/
inductive Message where
  | email (recipient subject htmlBody : String)
  | sms (phoneNumber message : String)
  | slack (webhookUrl : String) (blocks : Json)
  | webhook (url : String) (payload : Json) (secret : String)

/-- The channel a message is sent on. -/
def Message.channel : Message → Channel
  | email _ _ _ => .email
  | sms _ _ => .sms
  | slack _ _ => .slack
  | webhook _ _ _ => .webhook

/-- `EMAIL_TEMPLATE.format(…)` -/
def emailTemplate (severity alertId transactionId amount merchant riskScore : String) : String :=
  "\n<html>\n<body>\n    <h2>Fraud Alert: " ++ severity ++
  "</h2>\n    <p>We detected suspicious activity on your account.</p>\n" ++
  "    <p><strong>Alert ID:</strong> " ++ alertId ++ "</p>\n" ++
  "    <p><strong>Transaction ID:</strong> " ++ transactionId ++ "</p>\n" ++
  "    <p><strong>Amount:</strong> " ++ amount ++ "</p>\n" ++
  "    <p><strong>Merchant:</strong> " ++ merchant ++ "</p>\n" ++
  "    <p><strong>Risk Score:</strong> " ++ riskScore ++ "</p>\n" ++
  "    <br/>\n    <p>Please review this transaction immediately.</p>\n</body>\n</html>\n"

/-- `SMS_TEMPLATE.format(…)` -/
def smsTemplate (transactionId amount merchant : String) : String :=
  "FRAUD ALERT: Suspicious transaction " ++ transactionId ++ " for " ++ amount ++ " at " ++ merchant ++
  ". Reply YES if valid, NO if unauthorized."

/-- A text object of Slack. -/
def slackText (type text : String) : Json := .dict [("type", .str type), ("text", .str text)]

/-- `get_slack_blocks` -/
def getSlackBlocks (alertId severity amount merchant riskScore : String) : Json :=
  .list [
    .dict [("type", .str "header"),
      ("text", slackText "plain_text" ("🚨 Fraud Alert (" ++ severity ++ ")"))],
    .dict [("type", .str "section"),
      ("fields", .list [
        slackText "mrkdwn" ("*Alert ID:*\n" ++ alertId),
        slackText "mrkdwn" ("*Risk Score:*\n" ++ riskScore)])],
    .dict [("type", .str "section"),
      ("fields", .list [
        slackText "mrkdwn" ("*Amount:*\n" ++ amount),
        slackText "mrkdwn" ("*Merchant:*\n" ++ merchant)])]]

/-! ## The dispatcher -/

inductive NotificationStatus where
  | pending
  | sent
  | failed
  deriving DecidableEq, Repr

inductive AttemptStatus where
  | pending
  | success
  | failed
  deriving DecidableEq, Repr

/-- The columns a new notification is given, besides its status `PENDING` and its fixed body. -/
structure NewNotification where
  alertId : Json
  recipientId : Json
  channel : Channel
  subject : String

/-- What the second commit of a channel writes to the notification and to its attempt, the first and
only one. The error goes to both. -/
structure Settlement where
  status : NotificationStatus
  sentAt : Option ℚ
  error : Option String
  attempt : AttemptStatus

/-- `if success: … else: …` -/
def Settlement.ofSuccess (sentAt : ℚ) : Bool → Settlement
  | true => ⟨.sent, some sentAt, none, .success⟩
  | false => ⟨.failed, none, none, .failed⟩

/-- `except Exception as e` -/
def Settlement.ofException (e : Exn) : Settlement := ⟨.failed, none, some e.text, .failed⟩

/-- What a call awaits: the commands to Redis, the commit of a new notification, its refresh, a
send, and the commit of what became of it. -/
inductive Op where
  | get (key : String)
  | set (key value : String) (ex : ℕ)
  | insert (notification : NewNotification)
  | refresh (notificationId : ℕ)
  | send (message : Message)
  | settle (notificationId : ℕ) (settlement : Settlement)

/-- The replies. A new notification has the id that its default has drawn; ids are numbered in the
order in which they are drawn. -/
abbrev Ret : Op → Type
  | .get _ => Option String
  | .set _ _ _ => Unit
  | .insert _ => ℕ
  | .refresh _ => Unit
  | .send _ => Bool
  | .settle _ _ => Unit

/-- `f"notify:dedup:{recipient_id}:{alert_id}"` -/
def dedupKey (py : PyLib) (recipientId alertId : Json) : String :=
  "notify:dedup:" ++ py.str recipientId ++ ":" ++ py.str alertId

/-- What the loop over the channels uses of a payload. -/
structure Notice where
  recipientId : Json
  alertId : Json
  severity : Json
  transactionId : Json
  amount : Json
  merchant : Json
  riskScore : Json
  payload : Json

/-- What a dispatcher is made with: the URL of the Slack webhook in its settings. -/
structure NotificationDispatcher where
  slackWebhookUrl : String

namespace NotificationDispatcher

variable (py : PyLib) (self : NotificationDispatcher) (n : Notice)

/-- `f"Fraud Alert: {severity}"` -/
def subject : String := "Fraud Alert: " ++ py.str n.severity

/-- The arguments of the send on a channel. -/
def message : Channel → Message
  | .email => .email "customer@example.com" (subject py n)
      (emailTemplate (py.str n.severity) (py.str n.alertId) (py.str n.transactionId)
        (py.str n.amount) (py.str n.merchant) (py.str n.riskScore))
  | .sms => .sms "+1234567890"
      (smsTemplate (py.str n.transactionId) (py.str n.amount) (py.str n.merchant))
  | .slack => .slack self.slackWebhookUrl
      (getSlackBlocks (py.str n.alertId) (py.str n.severity) (py.str n.amount) (py.str n.merchant)
        (py.str n.riskScore))
  | .webhook => .webhook "https://example.com/webhook" n.payload "secret"

theorem channel_message (ch : Channel) : (message py self n ch).channel = ch := by
  cases ch <;> rfl

/-- The notification of a channel. -/
def newNotification (ch : Channel) : NewNotification where
  alertId := n.alertId
  recipientId := n.recipientId
  channel := ch
  subject := subject py n

variable (utcnow : Channel → ℚ)

/-- The `try` statement: the send on a channel, and what is to be recorded about it. -/
def trySend (ch : Channel) : Prog Ret Exn Settlement :=
  (do
    let success ← Prog.await (Op.send (message py self n ch))
    return Settlement.ofSuccess (utcnow ch) success : Prog Ret Exn Settlement).tryExcept
      Exn.isException fun e => pure (Settlement.ofException e)

/-- The body of the loop over the channels. -/
def notify (ch : Channel) : Prog Ret Exn Unit := do
  let notificationId ← Prog.await (Op.insert (newNotification py n ch))
  Prog.await (Op.refresh notificationId)
  let settlement ← trySend py self n utcnow ch
  Prog.await (Op.settle notificationId settlement)

/-- The loop over the channels. -/
def notifyAll : List Channel → Prog Ret Exn Unit
  | [] => pure ()
  | ch :: channels => do
      notify py self n utcnow ch
      notifyAll channels

/-- `dispatch`. After a send on the channel `ch` the clock reads `utcnow ch`. -/
def dispatch (payload : Json) : Prog Ret Exn Bool := do
  let recipientId ← Prog.lift (payload.get "recipient_id" .null)
  let alertId ← Prog.lift (payload.get "alert_id" .null)
  let severity ← Prog.lift (payload.get "severity" (.str "LOW"))
  let isDuplicate ← Prog.await (Op.get (dedupKey py recipientId alertId))
  if (isDuplicate.getD "") ≠ "" then
    return false
  else
    -- the marker is set before anything is stored or sent
    Prog.await (Op.set (dedupKey py recipientId alertId) "1" 86400)
    let transactionId ← Prog.lift (payload.get "transaction_id" (.str "Unknown"))
    let amount ← Prog.lift (payload.get "amount" (.str "Unknown"))
    let merchant ← Prog.lift (payload.get "merchant" (.str "Unknown"))
    let riskScore ← Prog.lift (payload.get "risk_score" (.str "Unknown"))
    notifyAll py self
      ⟨recipientId, alertId, severity, transactionId, amount, merchant, riskScore, payload⟩ utcnow
      (channelsFor severity)
    return true

end NotificationDispatcher

/-- What `dispatch` reads in a dict. -/
def Notice.ofFields (fields : List (String × Json)) : Notice where
  recipientId := (fields.lookup "recipient_id").getD .null
  alertId := (fields.lookup "alert_id").getD .null
  severity := (fields.lookup "severity").getD (.str "LOW")
  transactionId := (fields.lookup "transaction_id").getD (.str "Unknown")
  amount := (fields.lookup "amount").getD (.str "Unknown")
  merchant := (fields.lookup "merchant").getD (.str "Unknown")
  riskScore := (fields.lookup "risk_score").getD (.str "Unknown")
  payload := .dict fields

/-- The marker of a notice. -/
def Notice.key (py : PyLib) (n : Notice) : String := dedupKey py n.recipientId n.alertId

/-- The channels a notice requires. -/
def Notice.channels (n : Notice) : List Channel := channelsFor n.severity

namespace NotificationDispatcher

/-- The part of `dispatch` behind the duplicate check. -/
def proceed (py : PyLib) (self : NotificationDispatcher) (n : Notice) (utcnow : Channel → ℚ) :
    Prog Ret Exn Bool := do
  Prog.await (Op.set (n.key py) "1" 86400)
  notifyAll py self n utcnow n.channels
  return true

/-- On a dict `dispatch` is the duplicate check in front of the rest. -/
theorem dispatch_dict (py : PyLib) (self : NotificationDispatcher) (utcnow : Channel → ℚ)
    (fields : List (String × Json)) :
    dispatch py self utcnow (.dict fields) = (do
      let isDuplicate ← Prog.await (Op.get ((Notice.ofFields fields).key py))
      if (isDuplicate.getD "") ≠ "" then
        return false
      else
        proceed py self (Notice.ofFields fields) utcnow) := by
  unfold dispatch proceed
  simp only [Json.get_dict, Prog.lift_ok, pure_bind]
  rfl

end NotificationDispatcher

/-! ## Redis and the database -/

/-- A row of the table `notifications`. -/
structure Notification where
  id : ℕ
  alertId : Json
  recipientId : Json
  channel : Channel
  status : NotificationStatus
  subject : String
  body : String
  sentAt : Option ℚ
  errorMessage : Option String

/-- A row of the table `delivery_attempts`. -/
structure DeliveryAttempt where
  notificationId : ℕ
  attemptNumber : ℕ
  status : AttemptStatus
  errorDetail : Option String

/-- The row of a new notification. -/
def NewNotification.row (new : NewNotification) (id : ℕ) : Notification where
  id := id
  alertId := new.alertId
  recipientId := new.recipientId
  channel := new.channel
  status := .pending
  subject := new.subject
  body := "Alert content"
  sentAt := none
  errorMessage := none

/-- The notification after the second commit of its channel. -/
def Notification.settled (n : Notification) (settlement : Settlement) : Notification :=
  { n with
    status := settlement.status
    sentAt := settlement.sentAt
    errorMessage := settlement.error }

/-- The attempt that the second commit inserts. -/
def Settlement.row (settlement : Settlement) (notificationId : ℕ) : DeliveryAttempt where
  notificationId := notificationId
  attemptNumber := 1
  status := settlement.attempt
  errorDetail := settlement.error

/-- The notifications in the order of their inserts. The ids that have been drawn are those below
`drawn`, so an id drawn from then on is new. -/
structure NotificationTable where
  rows : List Notification
  drawn : ℕ
  id_lt : ∀ n ∈ rows, n.id < drawn

namespace NotificationTable

/-- The empty table. -/
def empty : NotificationTable := ⟨[], 0, nofun⟩

/-- Insert a row under the id that is drawn next. -/
def insert (t : NotificationTable) (new : NewNotification) : NotificationTable where
  rows := t.rows ++ [new.row t.drawn]
  drawn := t.drawn + 1
  id_lt := by
    intro n hn
    rcases List.mem_append.mp hn with hold | hnew
    · exact Nat.lt_succ_of_lt (t.id_lt n hold)
    · rw [List.mem_singleton.mp hnew]
      exact Nat.lt_succ_self t.drawn

/-- Update the row with an id. -/
def settle (t : NotificationTable) (id : ℕ) (settlement : Settlement) : NotificationTable where
  rows := t.rows.map fun n => if n.id = id then n.settled settlement else n
  drawn := t.drawn
  id_lt := by
    intro n hn
    obtain ⟨m, hm, rfl⟩ := List.mem_map.mp hn
    split
    · exact t.id_lt m hm
    · exact t.id_lt m hm

/-- There is a row with the id. -/
def has (t : NotificationTable) (id : ℕ) : Bool := t.rows.any fun n => n.id = id

@[simp] theorem rows_insert (t : NotificationTable) (new : NewNotification) :
    (t.insert new).rows = t.rows ++ [new.row t.drawn] := rfl

@[simp] theorem drawn_insert (t : NotificationTable) (new : NewNotification) :
    (t.insert new).drawn = t.drawn + 1 := rfl

@[simp] theorem drawn_settle (t : NotificationTable) (id : ℕ) (settlement : Settlement) :
    (t.settle id settlement).drawn = t.drawn := rfl

@[simp] theorem has_insert (t : NotificationTable) (new : NewNotification) :
    (t.insert new).has t.drawn = true := by
  simp [has, NewNotification.row]

/-- Settling the newest row leaves the others as they are. -/
theorem rows_settle_insert (t : NotificationTable) (new : NewNotification) (settlement : Settlement) :
    ((t.insert new).settle t.drawn settlement).rows
      = t.rows ++ [(new.row t.drawn).settled settlement] := by
  have hold : t.rows.map (fun n => if n.id = t.drawn then n.settled settlement else n)
      = t.rows.map fun n => n := by
    apply List.map_congr_left
    intro n hn
    -- the ids of the older rows have been drawn before
    exact if_neg (Nat.ne_of_lt (t.id_lt n hn))
  have hnew : (new.row t.drawn).id = t.drawn := rfl
  show (t.rows ++ [new.row t.drawn]).map _ = _
  rw [List.map_append, hold, List.map_id', List.map_singleton, if_pos hnew]

end NotificationTable

/-- What the dispatchers share: Redis, and the two tables. -/
structure Server where
  redis : Keyspace String String ℚ
  notifications : NotificationTable
  attempts : List DeliveryAttempt

/-- A server without keys and rows. -/
def Server.empty : Server := ⟨fun _ => none, .empty, []⟩

/-- A call of `dispatch`: its payload, the times at which Redis carries out its commands, the clock
after each send, and the outcome of each send. -/
structure Call where
  payload : List (String × Json)
  getAt : ℚ
  setAt : ℚ
  utcnow : Channel → ℚ
  outcome : Channel → Except Exn Bool

/-- The notice of a call. -/
def Call.notice (c : Call) : Notice := .ofFields c.payload

/-- Which rows the database refuses, and with what exception: new notifications, and what the second
commit of a channel writes. -/
structure Database where
  insert : NewNotification → Option Exn
  settle : Settlement → Option Exn

/-- A text that a column takes up to a number of bytes. PostgreSQL stores no NUL character. -/
def Storable (limit : ℕ) (text : String) : Prop :=
  Char.ofNat 0 ∉ text.toList ∧ text.utf8ByteSize ≤ limit

instance (limit : ℕ) : DecidablePred (Storable limit) :=
  fun _ => inferInstanceAs (Decidable (_ ∧ _))

/-- Texts of this many bytes fit into a column. -/
def columnLimit : ℕ := 2 ^ 29

/-- Texts of this many bytes fit into the row of an index, a third of a page less its header. -/
def indexLimit : ℕ := 2692

/-- A value for one of the two ids: `String` columns that may be null and have an index. -/
def StorableId : Json → Prop
  | .null => True
  | .str text => Storable indexLimit text
  | _ => False

instance : DecidablePred StorableId
  | .null => inferInstanceAs (Decidable True)
  | .str text => inferInstanceAs (Decidable (Storable indexLimit text))
  | .bool _ | .int _ | .float _ | .list _ | .dict _ => inferInstanceAs (Decidable False)

/-- What PostgreSQL documents: it takes texts and nulls for columns of texts. -/
structure Database.TakesTexts (db : Database) : Prop where
  insert : ∀ new : NewNotification, StorableId new.recipientId → StorableId new.alertId →
    Storable columnLimit new.subject → db.insert new = none
  settle : ∀ settlement : Settlement, (∀ e ∈ settlement.error, Storable columnLimit e) →
    db.settle settlement = none

/-- What an operation of a call does. A commit that the database refuses writes nothing. -/
def Server.perform (db : Database) (c : Call) :
    (op : Op) → Server → Except Exn (Ret op) × Server
  | .get key, t => (.ok ((t.redis.find? c.getAt key).map Entry.value), t)
  | .set key value ex, t =>
      (.ok (), { t with redis := t.redis.set key value (some (c.setAt + ex)) })
  | .insert new, t =>
      match db.insert new with
      | some x => (.error x, t)
      | none => (.ok t.notifications.drawn, { t with notifications := t.notifications.insert new })
  | .refresh id, t =>
      if t.notifications.has id then (.ok (), t)
      else (.error ⟨.other "InvalidRequestError", "Could not refresh instance"⟩, t)
  | .send message, t => (c.outcome message.channel, t)
  | .settle id settlement, t =>
      if t.notifications.has id then
        match db.settle settlement with
        | some x => (.error x, t)
        | none => (.ok (), { t with
            notifications := t.notifications.settle id settlement
            -- one commit for both tables: the attempt is added in it
            attempts := t.attempts ++ [settlement.row id] })
      else (.error ⟨.other "StaleDataError", "expected to update 1 row(s); 0 were matched"⟩, t)

/-! ## The duplicate check -/

section Check

variable {py : PyLib} {self : NotificationDispatcher} {db : Database}
  {c : Call} {t : Server}

/-- A call of `dispatch` on the server. -/
def Call.program (py : PyLib) (self : NotificationDispatcher) (c : Call) : Prog Ret Exn Bool :=
  self.dispatch py c.utcnow (.dict c.payload)

/-- The marker of a key is visible at a time. -/
def Server.Marked (t : Server) (now : ℚ) (key : String) : Prop :=
  ∃ e, t.redis.find? now key = some e ∧ e.value ≠ ""

/-- The server after `SET key "1" EX 86400` at a time. -/
def Server.mark (t : Server) (now : ℚ) (key : String) : Server :=
  { t with redis := t.redis.set key "1" (some (now + 86400)) }

theorem Server.perform_set (key : String) :
    t.perform db c (.set key "1" 86400) = (.ok (), t.mark c.setAt key) := by
  simp only [perform, mark, Nat.cast_ofNat]

/-- A marker is visible for 24 hours. -/
theorem Server.marked_mark {now now' : ℚ} {key : String} :
    (t.mark now key).Marked now' key ↔ now' ≤ now + 86400 := by
  have hkey : (t.mark now key).redis key = some ⟨"1", some (now + 86400)⟩ :=
    Keyspace.set_self ..
  constructor
  · rintro ⟨e, he, -⟩
    obtain rfl : (⟨"1", some (now + 86400)⟩ : Entry String ℚ) = e :=
      Option.some.inj (hkey.symm.trans (Keyspace.eq_some_of_find? he))
    exact Keyspace.le_of_find? he _ rfl
  · intro hle
    refine ⟨_, Keyspace.find?_of_live hkey ?_, (by decide : "1" ≠ "")⟩
    intro d hd
    cases hd
    exact hle

/-- What a call does is decided by the marker it finds. -/
theorem leads_program {P : Except Exn Bool → Server → Prop} :
    Prog.Leads (Server.perform db c) (c.program py self) t P ↔
      (t.Marked c.getAt (c.notice.key py) → P (.ok false) t) ∧
      (¬ t.Marked c.getAt (c.notice.key py) →
        Prog.Leads (Server.perform db c) (self.proceed py c.notice c.utcnow) t P) := by
  unfold Call.program
  rw [NotificationDispatcher.dispatch_dict, Prog.leads_bind, Prog.leads_await]
  simp only [Server.perform]
  unfold Server.Marked
  rw [← Call.notice]
  cases hfind : t.redis.find? c.getAt (c.notice.key py) with
  | none => simp
  | some e => by_cases he : e.value = "" <;> simp [he]

end Check

/-! ## Runs of a call -/

/-- A run of a call on the server. -/
def Call.run (py : PyLib) (self : NotificationDispatcher) (db : Database) (c : Call) (t : Server) :
    Execution Server Ret Exn Bool :=
  (c.program py self).run (Server.perform db c) t

/-- The Redis key of an operation. -/
def Op.redisKey : Op → Option String
  | .get key => some key
  | .set key _ _ => some key
  | _ => none

section Run

variable {py : PyLib} {self : NotificationDispatcher} {db : Database}
  {c : Call} {t : Server}

/-- The loop over the channels sends no commands to Redis. -/
theorem asks_notifyAll (py : PyLib) (self : NotificationDispatcher) (n : Notice)
    (utcnow : Channel → ℚ) (channels : List Channel) :
    (NotificationDispatcher.notifyAll py self n utcnow channels).Asks
      fun op => op.redisKey = none := by
  induction channels with
  | nil => trivial
  | cons ch channels ih =>
      have hawait : ∀ op : Op, op.redisKey = none →
          (Prog.await op : Prog Ret Exn (Ret op)).Asks fun op => op.redisKey = none :=
        fun op h => Prog.asks_await h
      have hsend : (NotificationDispatcher.trySend py self n utcnow ch).Asks
          fun op => op.redisKey = none := by
        refine Prog.Asks.tryExcept ?_ fun _ => trivial
        exact (hawait (.send (NotificationDispatcher.message py self n ch)) rfl).bind fun _ => trivial
      refine Prog.Asks.bind ?_ fun _ => ih
      refine (hawait _ rfl).bind fun id => (hawait (.refresh id) rfl).bind fun _ => ?_
      exact hsend.bind fun settlement => hawait (.settle id settlement) rfl

theorem Server.redis_perform {op : Op} (h : op.redisKey = none) :
    (t.perform db c op).2.redis = t.redis := by
  cases op with
  | get key => cases h
  | set key value ex => cases h
  | insert new =>
      simp only [perform]
      cases db.insert new <;> rfl
  | refresh id =>
      simp only [perform]
      split <;> rfl
  | send message => rfl
  | settle id settlement =>
      simp only [perform]
      split
      · cases db.settle settlement <;> rfl
      · rfl

/-- A call that finds the marker returns `False` and leaves the server as it is. -/
theorem run_marked (h : t.Marked c.getAt (c.notice.key py)) :
    (c.run py self db t).result = .ok false ∧ (c.run py self db t).final = t := by
  have hleads : Prog.Leads (Server.perform db c) (c.program py self) t
      fun r t' => r = .ok false ∧ t' = t := by
    rw [leads_program]
    exact ⟨fun _ => ⟨rfl, rfl⟩, fun hno => absurd h hno⟩
  exact hleads

/-- A call that does not find it sets it, and does not return `False`, however the rest of it
goes. -/
theorem run_unmarked (h : ¬ t.Marked c.getAt (c.notice.key py)) :
    (c.run py self db t).result ≠ .ok false ∧
      (c.run py self db t).final.redis = (t.mark c.setAt (c.notice.key py)).redis := by
  have hleads : Prog.Leads (Server.perform db c) (c.program py self) t
      fun r t' => r ≠ .ok false ∧ t'.redis = (t.mark c.setAt (c.notice.key py)).redis := by
    rw [leads_program]
    refine ⟨fun hmarked => absurd hmarked h, fun _ => ?_⟩
    have hframe := Prog.final_of_steps (f := Server.perform db c)
      (p := NotificationDispatcher.notifyAll py self c.notice c.utcnow c.notice.channels)
      (s := t.mark c.setAt (c.notice.key py)) (fun s : Server => s.redis) (by
        intro st hst
        exact Server.redis_perform ((asks_notifyAll py self c.notice c.utcnow c.notice.channels).run
          _ _ st.event (List.mem_map_of_mem hst)))
    unfold NotificationDispatcher.proceed
    rw [Prog.leads_bind, Prog.leads_await, Server.perform_set]
    simp only
    rw [Prog.leads_bind, Prog.Leads]
    cases (Prog.run (Server.perform db c)
        (NotificationDispatcher.notifyAll py self c.notice c.utcnow c.notice.channels)
        (t.mark c.setAt (c.notice.key py))).result with
    | ok _ =>
        refine ⟨?_, hframe⟩
        intro htrue
        cases htrue
    -- the loop has raised, and the marker stays
    | error x =>
        refine ⟨?_, hframe⟩
        intro hraised
        cases hraised
  exact hleads

theorem not_marked_empty (now : ℚ) (key : String) : ¬ Server.empty.Marked now key := by
  rintro ⟨entry, hfind, -⟩
  cases hfind

end Run

/-- A dispatcher with the default settings. -/
def defaultDispatcher : NotificationDispatcher :=
  ⟨"https://hooks.slack.com/services/dummy/dummy"⟩

/-- A database that takes nothing but texts and nulls. -/
def strictDatabase : Database where
  insert new :=
    if StorableId new.recipientId ∧ StorableId new.alertId ∧ Storable columnLimit new.subject then none
    else some ⟨.other "DBAPIError", "invalid input for query argument"⟩
  settle settlement :=
    if ∀ e ∈ settlement.error, Storable columnLimit e then none
    else some ⟨.other "DBAPIError", "invalid byte sequence for encoding \"UTF8\": 0x00"⟩

theorem takesTexts_strictDatabase : strictDatabase.TakesTexts where
  insert _ hrecipient halert hsubject := if_pos ⟨hrecipient, halert, hsubject⟩
  settle _ herror := if_pos herror

end FraudDetection.Notifications
