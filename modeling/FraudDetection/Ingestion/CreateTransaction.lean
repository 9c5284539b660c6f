import Mathlib.Data.List.Induction
import FraudDetection.Async.Program
import FraudDetection.Ingestion.Payload
import FraudDetection.Kafka.Envelope

/-!
# The ingestion of transactions

`create_transaction` inserts a row and publishes an event. An error of the database is logged and
forgotten, and the event is published whatever became of the row.

`leads_handle` says what one request leaves: a row if the database takes it, and an event in any
case. `served` extends this to a sequence of requests, in which the rows keep the ids they were
first stored with.
-/

namespace FraudDetection.Ingestion

open Async Python Kafka

/-! ## Operations -/

/-- The columns that the `INSERT` writes. -/
structure TransactionRow where
  id : String
  externalId : String
  transactionType : String
  amount : ℚ
  currency : String
  accountId : String
  cardHash : String
  merchantId : String
  merchantName : String
  merchantCategory : String
  deviceFingerprint : Option String
  ipAddress : Option String
  geoLatitude : Option ℚ
  geoLongitude : Option ℚ
  channel : String
  transactionTime : Datetime
  ingestedAt : Datetime

/-- The awaited calls: those on the database session, and the publish of the background task. -/
inductive Op where
  | execute (row : TransactionRow)
  | commit
  | rollback
  | close
  | publish (topic key : String) (event : EventEnvelope)

abbrev Ret (_ : Op) : Type := Unit

/-- A coroutine of the transaction service. -/
abbrev Coroutine := Prog Ret Exn

/-! ## A request -/

/-- The arguments of a background task. -/
structure PublishTask where
  topic : String
  key : String
  event : EventEnvelope

/-- `TransactionResponse`, less the fields that stay unset. -/
structure TransactionResponse where
  id : String
  transactionId : String
  cardNumber : String
  merchantId : String
  merchantName : String
  merchantCategory : String
  amount : ℚ
  currency : String
  timestamp : Datetime
  channel : String
  fraudDecision : String
  createdAt : Datetime

/-- A request, with what the service makes for it: two ids, the time, and the hash of the card. -/
structure Arrival where
  payload : TransactionPayload
  internalId : String
  eventId : String
  ingestedAt : Datetime
  cardHash : String

namespace Arrival

variable (a : Arrival)

/-- `params` -/
def row : TransactionRow where
  id := a.internalId
  externalId := a.payload.transactionId
  transactionType := "purchase"
  amount := a.payload.amount
  currency := a.payload.currency
  accountId := a.payload.customerId
  cardHash := a.cardHash
  merchantId := a.payload.merchantId
  merchantName := a.payload.merchantName
  merchantCategory := a.payload.merchantCategory
  deviceFingerprint := a.payload.deviceFingerprint
  ipAddress := a.payload.ipAddress
  geoLatitude := a.payload.locationLat
  geoLongitude := a.payload.locationLon
  channel := a.payload.channel
  transactionTime := a.payload.timestamp
  ingestedAt := a.ingestedAt

/-- The event for the transaction. -/
def event : EventEnvelope where
  eventType := .str "transaction.created"
  sourceService := .str "transaction-service"
  payload := a.payload.modelDump
  eventId := .str a.eventId
  correlationId := .null
  timestamp := .str a.ingestedAt.isoformat

/-- The response, with status 202. -/
def response : TransactionResponse where
  id := a.internalId
  transactionId := a.payload.transactionId
  cardNumber := a.payload.cardNumber
  merchantId := a.payload.merchantId
  merchantName := a.payload.merchantName
  merchantCategory := a.payload.merchantCategory
  amount := a.payload.amount
  currency := a.payload.currency
  timestamp := a.payload.timestamp
  channel := a.payload.channel
  fraudDecision := "pending"
  createdAt := a.ingestedAt

end Arrival

/-- `async with db.get_session()` -/
def withSession (body : Coroutine Unit) : Coroutine Unit :=
  Prog.tryFinally
    (Prog.tryExcept
      (do
        body
        Prog.await Op.commit)
      Exn.isException fun x => do
        Prog.await Op.rollback
        Prog.raise x)
    (Prog.await Op.close)

/-- The insert, if there is a database. A failure is logged. -/
def persist (isInitialised : Bool) (row : TransactionRow) : Coroutine Unit :=
  if isInitialised then
    Prog.tryExcept
      (withSession do
        Prog.await (Op.execute row)
        Prog.await Op.commit)
      Exn.isException fun _ => pure ()
  else pure ()

/-- The task that publishes the event, if Kafka is configured. -/
def publishTasks (kafka : Bool) (a : Arrival) : List PublishTask :=
  if kafka then [⟨"transactions", a.payload.customerId, a.event⟩] else []

/-- `create_transaction`, with its background tasks. -/
def createTransaction (isInitialised kafka : Bool) (a : Arrival) :
    Coroutine (TransactionResponse × List PublishTask) := do
  persist isInitialised a.row
  pure (a.response, publishTasks kafka a)

/-- The background tasks, one after the other. -/
def runTasks : List PublishTask → Coroutine Unit
  | [] => pure ()
  | task :: tasks => do
      Prog.await (Op.publish task.topic task.key task.event)
      runTasks tasks

/-- A request: the response is sent, then the background tasks run. Kafka is configured. -/
def handle (isInitialised : Bool) (a : Arrival) : Coroutine TransactionResponse := do
  let (response, tasks) ← createTransaction isInitialised true a
  runTasks tasks
  pure response

/-! ## The database and Kafka -/

/-- The rows of the table, those of the open transaction, and the published events. -/
structure World where
  rows : List TransactionRow
  pending : List TransactionRow
  events : List EventEnvelope

/-- Which of the calls of a session fail. A commit that fails may have stored the rows. -/
structure Faults where
  execute : Bool := false
  commit : Option Bool := none
  rollback : Bool := false
  close : Bool := false

/-- An error of the database driver. -/
def databaseError : Exn := ⟨.other "DBAPIError", "the database call failed"⟩

/-- An error if there is a fault. -/
def failIf (fault : Bool) : Except Exn Unit := if fault then .error databaseError else .ok ()

/-- The table holds a row with the id. -/
def held (rows : List TransactionRow) (id : String) : Bool := rows.any fun r => r.externalId = id

/-- Answer an operation. The column `external_id` is unique, and Kafka accepts every publish. -/
def answer (faults : Faults) : (op : Op) → World → Except Exn (Ret op) × World
  | .execute row, w =>
      if faults.execute || held w.rows row.externalId then
        (.error databaseError, w)
      else (.ok (), { w with pending := w.pending ++ [row] })
  | .commit, w =>
      -- without an open transaction there is nothing to commit
      if w.pending.isEmpty then (.ok (), w)
      else match faults.commit with
        | none => (.ok (), { w with rows := w.rows ++ w.pending, pending := [] })
        | some true =>
            (.error databaseError, { w with rows := w.rows ++ w.pending, pending := [] })
        | some false => (.error databaseError, { w with pending := [] })
  | .rollback, w => (failIf faults.rollback, { w with pending := [] })
  | .close, w => (failIf faults.close, { w with pending := [] })
  | .publish _ _ event, w => (.ok (), { w with events := w.events ++ [event] })

/-- A request that arrives at a service with or without a database. -/
structure Submission extends Arrival where
  isInitialised : Bool
  faults : Faults

/-- The database takes the row of a request, unless it has the id already. -/
def Submission.accepted (s : Submission) : Bool :=
  s.isInitialised && !s.faults.execute && s.faults.commit != some false

/-- The ids of the stored transactions. -/
def World.ids (w : World) : List String := w.rows.map TransactionRow.externalId

/-- The world after a sequence of requests. -/
def serve (requests : List Submission) : World :=
  requests.foldl (fun w s => ((handle s.isInitialised s.toArrival).run (answer s.faults) w).final)
    ⟨[], [], []⟩

/-! ## What a request leaves -/

section Handle

variable {faults : Faults}

/-- An outcome that `except Exception` catches, if it is an error. -/
def Catchable (r : Except Exn Unit) : Prop := ∀ x, r = .error x → x.isException = true

theorem catchable_ok : Catchable (.ok ()) := by
  intro x hx
  cases hx

theorem catchable_databaseError : Catchable (.error databaseError) := by
  intro x hx
  cases hx
  rfl

/-- Closing a session without an open transaction changes nothing. -/
theorem leads_finally_close {p : Coroutine Unit} {w w' : World}
    (hp : Prog.Leads (answer faults) p w fun r t => Catchable r ∧ t = w')
    (hclosed : w'.pending = []) :
    Prog.Leads (answer faults) (Prog.tryFinally p (Prog.await Op.close)) w fun r t =>
      Catchable r ∧ t = w' := by
  have hempty : (⟨w'.rows, [], w'.events⟩ : World) = w' := by
    rw [← hclosed]
  rw [Prog.leads_tryFinally]
  refine hp.mono ?_
  rintro r t ⟨hr, rfl⟩
  rw [Prog.leads_await]
  simp only [answer, failIf, hempty]
  by_cases hfault : faults.close = true
  · rw [if_pos hfault]
    exact ⟨catchable_databaseError, trivial⟩
  · rw [if_neg hfault]
    exact ⟨hr, trivial⟩

/-- A session whose body leaves no open transaction leaves what its body does, and raises something
that is caught at most. -/
theorem leads_withSession {body : Coroutine Unit} {w w' : World}
    (hbody : Prog.Leads (answer faults) body w fun r t => Catchable r ∧ t = w')
    (hclosed : w'.pending = []) :
    Prog.Leads (answer faults) (withSession body) w fun r t => Catchable r ∧ t = w' := by
  have hempty : (⟨w'.rows, [], w'.events⟩ : World) = w' := by
    rw [← hclosed]
  unfold withSession
  refine leads_finally_close ?_ hclosed
  rw [Prog.leads_tryExcept, Prog.leads_bind]
  refine hbody.mono ?_
  rintro r t ⟨hr, rfl⟩
  cases r with
  | ok u =>
      -- the second commit has nothing to commit
      rw [Prog.leads_await]
      simp only [answer, hclosed, List.isEmpty_nil, if_true]
      exact ⟨catchable_ok, trivial⟩
  | error x =>
      simp only [hr x rfl, if_true]
      rw [Prog.leads_bind, Prog.leads_await]
      simp only [answer, failIf, hempty]
      by_cases hfault : faults.rollback = true
      · rw [if_pos hfault]
        exact ⟨catchable_databaseError, trivial⟩
      · rw [if_neg hfault]
        exact ⟨hr, rfl⟩

/-- The insert and its commit. -/
theorem leads_insert (row : TransactionRow) (rows : List TransactionRow)
    (events : List EventEnvelope) :
    Prog.Leads (answer faults)
      (do
        Prog.await (Op.execute row)
        Prog.await Op.commit) ⟨rows, [], events⟩ fun r w => Catchable r ∧
        w = ⟨if !faults.execute && faults.commit != some false && !held rows row.externalId then
          rows ++ [row] else rows, [], events⟩ := by
  rw [Prog.leads_bind, Prog.leads_await]
  simp only [answer]
  by_cases hrefused : (faults.execute || held rows row.externalId) = true
  · have hnot : (!faults.execute && faults.commit != some false &&
        !held rows row.externalId) = false := by
      rcases (Bool.or_eq_true _ _).mp hrefused with h | h <;> simp [h]
    rw [if_pos hrefused, hnot]
    exact ⟨catchable_databaseError, rfl⟩
  · rw [Bool.not_eq_true, Bool.or_eq_false_iff] at hrefused
    simp only [hrefused.1, hrefused.2, Bool.or_self, Bool.false_eq_true, if_false]
    rw [Prog.leads_await]
    cases hcommit : faults.commit with
    | none =>
        simp only [answer, hcommit]
        exact ⟨catchable_ok, rfl⟩
    | some stored =>
        cases stored with
        | true =>
            simp only [answer, hcommit]
            exact ⟨catchable_databaseError, rfl⟩
        | false =>
            simp only [answer, hcommit]
            exact ⟨catchable_databaseError, rfl⟩

/-- A request is answered, leaves its row if the database takes it, and publishes its event. -/
theorem leads_handle (s : Submission) (rows : List TransactionRow) (events : List EventEnvelope) :
    Prog.Leads (answer s.faults) (handle s.isInitialised s.toArrival) ⟨rows, [], events⟩ fun r w =>
      r = .ok s.response ∧
        w = ⟨if s.accepted && !held rows s.payload.transactionId then rows ++ [s.row] else rows, [],
          events ++ [s.event]⟩ := by
  have hpersist : Prog.Leads (answer s.faults) (persist s.isInitialised s.row) ⟨rows, [], events⟩
      fun r w => r = .ok () ∧
        w = ⟨if s.accepted && !held rows s.payload.transactionId then rows ++ [s.row] else rows, [],
          events⟩ := by
    unfold persist Submission.accepted
    by_cases hready : s.isInitialised = true
    · rw [if_pos hready, hready, Bool.true_and, Prog.leads_tryExcept]
      refine (leads_withSession (leads_insert s.row rows events) rfl).mono ?_
      rintro r w ⟨hr, rfl⟩
      cases r with
      | ok u => exact ⟨rfl, rfl⟩
      | error x =>
          simp only [hr x rfl, if_true]
          exact ⟨rfl, rfl⟩
    · rw [if_neg hready]
      rw [Bool.not_eq_true] at hready
      rw [hready]
      exact ⟨rfl, rfl⟩
  unfold handle createTransaction
  rw [bind_assoc, Prog.leads_bind_of_ok (answer s.faults) hpersist]
  simp only [pure_bind, publishTasks, if_true, runTasks]
  rw [Prog.leads_bind, Prog.leads_bind, Prog.leads_await]
  exact ⟨rfl, rfl⟩

end Handle

/-! ## What a sequence of requests leaves -/

section Serve

variable {requests : List Submission} {id : String}

theorem held_iff {rows : List TransactionRow} :
    held rows id = true ↔ id ∈ rows.map TransactionRow.externalId := by
  simp [held, List.mem_map]

/-- What a sequence of requests leaves: one event for each request, and a row for each id that the
database has taken. -/
structure Served (requests : List Submission) (w : World) : Prop where
  pending : w.pending = []
  events : w.events = requests.map fun s => s.event
  nodup : w.ids.Nodup
  mem_ids : ∀ id, id ∈ w.ids ↔ ∃ s ∈ requests, s.payload.transactionId = id ∧ s.accepted = true

theorem serve_concat (requests : List Submission) (s : Submission) :
    serve (requests ++ [s]) =
      ((handle s.isInitialised s.toArrival).run (answer s.faults) (serve requests)).final := by
  rw [serve, List.foldl_append]
  rfl

/-- One more request. -/
theorem Served.handle {w : World} (h : Served requests w) (s : Submission) :
    Served (requests ++ [s])
      ((Ingestion.handle s.isInitialised s.toArrival).run (answer s.faults) w).final := by
  obtain ⟨rows, pending, events⟩ := w
  obtain ⟨hpending, hevents, hnodup, hids⟩ := h
  obtain rfl : pending = [] := hpending
  rw [(leads_handle s rows events).2]
  have hexists : ∀ id, (∃ r ∈ requests ++ [s], r.payload.transactionId = id ∧ r.accepted = true) ↔
      (∃ r ∈ requests, r.payload.transactionId = id ∧ r.accepted = true) ∨
        s.payload.transactionId = id ∧ s.accepted = true := by
    intro id
    simp [or_and_right, exists_or]
  refine ⟨rfl, ?_, ?_, ?_⟩
  · rw [List.map_append]
    exact congrArg (· ++ [s.event]) hevents
  · by_cases htaken : (s.accepted && !held rows s.payload.transactionId) = true
    · simp only [World.ids, if_pos htaken, List.map_append]
      rw [Bool.and_eq_true, Bool.not_eq_true', ← Bool.not_eq_true, held_iff] at htaken
      refine List.nodup_append.mpr ⟨hnodup, by simp, ?_⟩
      rintro x hx y hy rfl
      rw [List.mem_singleton.mp hy] at hx
      exact htaken.2 hx
    · simp only [World.ids, if_neg htaken]
      exact hnodup
  · intro id
    rw [hexists, ← hids id]
    by_cases haccepted : s.accepted = true
    · by_cases hheld : held rows s.payload.transactionId = true
      · -- the id is there already
        simp only [World.ids, haccepted, hheld, Bool.not_true, Bool.and_false, Bool.false_eq_true,
          if_false, and_true]
        constructor
        · exact Or.inl
        · rintro (hmem | rfl)
          · exact hmem
          · exact held_iff.mp hheld
      · simp only [World.ids, haccepted, hheld, Bool.not_false, Bool.and_true, if_true, and_true,
          List.map_append, List.mem_append]
        exact or_congr_right (List.mem_singleton.trans eq_comm)
    · simp only [World.ids, haccepted, Bool.false_and, Bool.false_eq_true, if_false, and_false,
        or_false]

/-- Every sequence of requests. -/
theorem served (requests : List Submission) : Served requests (serve requests) := by
  induction requests using List.reverseRecOn with
  | nil => exact ⟨rfl, rfl, List.nodup_nil, by simp [serve, World.ids]⟩
  | append_singleton requests s ih =>
      rw [serve_concat]
      exact ih.handle s

end Serve

/-! ## Stored and published -/

/-- The event announces the creation of a transaction with the id. -/
def announces (id : String) (event : EventEnvelope) : Bool :=
  match event.eventType, event.payload.get "transaction_id" .null with
  | .str "transaction.created", .ok (.str t) => t = id
  | _, _ => false

theorem announces_event (s : Submission) (id : String) :
    announces id s.event = decide (s.payload.transactionId = id) := rfl

/-- Two requests that make up a count of one are the same. -/
theorem eq_of_countP_eq_one {p : Submission → Bool} {requests : List Submission}
    (h : requests.countP p = 1) {r s : Submission} (hr : r ∈ requests) (hs : s ∈ requests)
    (hpr : p r = true) (hps : p s = true) : r = s := by
  rw [List.countP_eq_length_filter, List.length_eq_one_iff] at h
  obtain ⟨only, honly⟩ := h
  have hunique : ∀ x ∈ requests, p x = true → x = only := by
    intro x hx hpx
    have hmem : x ∈ requests.filter p := List.mem_filter.mpr ⟨hx, hpx⟩
    rw [honly] at hmem
    exact List.mem_singleton.mp hmem
  rw [hunique r hr hpr, hunique s hs hps]

/-- As many events are published for an id as rows are stored with it exactly when it is submitted
once at most and the database takes the row. -/
theorem published_eq_stored_iff (requests : List Submission) (id : String) :
    (serve requests).events.countP (announces id) = (if id ∈ (serve requests).ids then 1 else 0) ↔
      requests.countP (fun s => s.payload.transactionId = id) ≤ 1 ∧
        ∀ s ∈ requests, s.payload.transactionId = id → s.accepted = true := by
  obtain ⟨-, hevents, -, hids⟩ := served requests
  have hcount : (serve requests).events.countP (announces id)
      = requests.countP fun s => s.payload.transactionId = id := by
    rw [hevents, List.countP_map]
    apply List.countP_congr
    intro s _
    rw [Function.comp_apply, announces_event]
  rw [hcount, if_congr (hids id) rfl rfl]
  by_cases hstored : ∃ s ∈ requests, s.payload.transactionId = id ∧ s.accepted = true
  · obtain ⟨s, hs, hid, haccepted⟩ := hstored
    rw [if_pos ⟨s, hs, hid, haccepted⟩]
    have hpos : 0 < requests.countP fun s => s.payload.transactionId = id :=
      List.countP_pos_iff.mpr ⟨s, hs, by simpa using hid⟩
    constructor
    · intro hone
      refine ⟨hone.le, ?_⟩
      intro r hr hrid
      -- the request that was stored is the only one
      obtain rfl : r = s :=
        eq_of_countP_eq_one hone hr hs (by simpa using hrid) (by simpa using hid)
      exact haccepted
    · rintro ⟨hle, -⟩
      omega
  · rw [if_neg hstored]
    constructor
    · intro hzero
      refine ⟨hzero.le.trans zero_le_one, ?_⟩
      intro s hs hid
      have hno := List.countP_eq_zero.mp hzero s hs
      rw [decide_eq_true_eq] at hno
      exact absurd hid hno
    · rintro ⟨-, hall⟩
      rw [List.countP_eq_zero]
      intro s hs hid
      rw [decide_eq_true_eq] at hid
      exact hstored ⟨s, hs, hid, hall s hs hid⟩

/-! ### A retry -/

/-- A payment of $25 that arrives at the service. -/
def retriedPayment (eventId : String) (faults : Faults) : Submission where
  payload := samplePayload "t-1" "alice" "m-1" 25 twentyFive_pos
  internalId := eventId
  eventId := eventId
  ingestedAt := ⟨1767225601, 0, "2026-01-01T00:00:01+00:00"⟩
  cardHash := "h-1"
  isInitialised := true
  faults := faults

/-- A client that retries its request has two events for one row, and an insert that fails has an
event without a row. -/
theorem retry_published_twice :
    let retried := serve [retriedPayment "e-1" {}, retriedPayment "e-2" {}]
    let failed := serve [retriedPayment "e-1" { execute := true }]
    (retried.ids = ["t-1"] ∧ retried.events.countP (announces "t-1") = 2) ∧
      failed.ids = [] ∧ failed.events.countP (announces "t-1") = 1 := by
  decide +kernel

end FraudDetection.Ingestion
