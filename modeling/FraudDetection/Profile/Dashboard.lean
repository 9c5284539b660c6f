import Mathlib.Data.List.Pairwise
import FraudDetection.Profile.LiveStream

/-!
# The consumer behind the dashboard streams

The profile service reads three topics and puts their messages into two queues. What raises in the
loop ends it for good, and a message that meets a full queue is dropped.

A queue sees its own messages and its own clients only (`stream_runEvents`). `Logged` compares the
reads of all its clients with what has been notified: they take messages out in order, each of them
once.
-/

namespace FraudDetection.Profile

open Async Python

variable {κ : Type}

/-! ## The code -/

/-- The topics of the consumer. -/
structure ProfileSettings where
  transactionEnrichedTopic : String := "transaction.enriched"
  fraudScoredTopic : String := "fraud.scored"
  alertCreatedTopic : String := "alert.created"

/-- The queues. -/
inductive Feed where
  | transactions
  | alerts
  deriving DecidableEq

/-- A message of a topic, with what the deserialiser makes of its value. -/
structure Received where
  topic : String
  value : Except Exn Json

/-- Which queue a payload goes to, and as what. -/
def ProfileSettings.route (settings : ProfileSettings) (topic : String) (payload : Json) :
    Option (Feed × Json) :=
  if topic = settings.transactionEnrichedTopic then
    some (.transactions, .dict [("type", .str "transaction"), ("data", payload)])
  else if topic = settings.fraudScoredTopic then
    some (.transactions, .dict [("type", .str "score"), ("data", payload)])
  else if topic = settings.alertCreatedTopic then
    some (.alerts, .dict [("type", .str "alert"), ("data", payload)])
  else none

/-- The body of the loop in `ConsumerService.consume`, up to the queue. -/
def ProfileSettings.handle (settings : ProfileSettings) (r : Received) :
    Except Exn (Option (Feed × Json)) := do
  let value ← r.value
  if value.truthy then
    let payload ← value.get "payload" (.dict [])
    return settings.route r.topic payload
  else return none

/-- Whether the consumer is still in its loop, and the queues with their readers. -/
structure Dashboard (κ : Type) where
  consuming : Bool
  stream : Feed → LiveStream κ

/-- What a client of a stream does, or what happens to it. -/
inductive ClientEvent (κ : Type) where
  | connect (c : κ)
  | disconnect (c : κ)
  | check (c : κ)
  | read (c : κ)
  | timeout (c : κ)
  | cancel (c : κ)

def ClientEvent.event : ClientEvent κ → StreamEvent κ
  | .connect c => .connect c
  | .disconnect c => .disconnect c
  | .check c => .check c
  | .read c => .read c
  | .timeout c => .timeout c
  | .cancel c => .cancel c

/-- The consumer gets a message, a client of a stream goes on, or the consumer is cancelled. -/
inductive DashboardEvent (κ : Type) where
  | received (r : Received)
  | client (feed : Feed) (event : ClientEvent κ)
  | stop

section Code

variable [DecidableEq κ] (settings : ProfileSettings)

/-- The dashboard with a stream that has gone on. -/
def Dashboard.set (d : Dashboard κ) (feed : Feed) (s : LiveStream κ) : Dashboard κ :=
  { d with stream := Function.update d.stream feed s }

/-- The dashboard after an event. Whatever the body of the loop raises ends the loop. -/
def Dashboard.step (d : Dashboard κ) : DashboardEvent κ → Dashboard κ
  | .received r =>
      if d.consuming then
        match settings.handle r with
        | .error _ => { d with consuming := false }
        | .ok none => d
        | .ok (some (feed, message)) => d.set feed ((d.stream feed).notify message)
      else d
  | .client feed event => d.set feed ((d.stream feed).step event.event)
  | .stop => { d with consuming := false }

/-- The service has started, and nobody is connected. -/
def Dashboard.empty : Dashboard κ := ⟨true, fun _ => .empty⟩

end Code

/-! ## What happens to one stream -/

section Projection

variable (settings : ProfileSettings) (feed : Feed)

/-- The message for a queue that a message of a topic becomes. -/
def ProfileSettings.messageFor (r : Received) : Option Json :=
  match settings.handle r with
  | .ok (some (feed', message)) => if feed' = feed then some message else none
  | _ => none

/-- The loop ends at a message. -/
def ProfileSettings.raises (r : Received) : Bool :=
  match settings.handle r with
  | .error _ => true
  | .ok _ => false

/-- The messages that the loop has gone through. -/
def consumed : Bool → List (DashboardEvent κ) → List Received
  | _, [] => []
  | consuming, .received r :: events =>
      if consuming then
        if settings.raises r then consumed false events else r :: consumed true events
      else consumed false events
  | consuming, .client _ _ :: events => consumed consuming events
  | _, .stop :: events => consumed false events

/-- What happens to a stream. -/
def streamEvents : Bool → List (DashboardEvent κ) → List (StreamEvent κ)
  | _, [] => []
  | consuming, .received r :: events =>
      if consuming then
        if settings.raises r then streamEvents false events
        else (settings.messageFor feed r).toList.map .notify ++ streamEvents true events
      else streamEvents false events
  | consuming, .client feed' event :: events =>
      (if feed' = feed then [event.event] else []) ++ streamEvents consuming events
  | _, .stop :: events => streamEvents false events

end Projection

/-! ## What is read -/

/-- The message that an event hands to a client. -/
def readBy (s : LiveStream κ) : StreamEvent κ → List (κ × Message)
  | .read c =>
      match s.clients c, s.queue with
      | some client, m :: _ => if client.waiting then [(c, m)] else []
      | _, _ => []
  | _ => []

/-- The messages that clients get in a history, with who gets them. -/
def reads [DecidableEq κ] : LiveStream κ → List (StreamEvent κ) → List (κ × Message)
  | _, [] => []
  | s, event :: events => readBy s event ++ reads (s.step event) events

/-- A message that is notified finds room. -/
def HasRoom (s : LiveStream κ) : StreamEvent κ → Prop
  | .notify _ => s.queue.length < maxsize
  | _ => True

/-- The messages a client has been sent. -/
def Client.messages (client : Client) : List Message := client.frames.filterMap Frame.message?

/-- The messages of one reader. -/
def readsOf [DecidableEq κ] (c : κ) (read : List (κ × Message)) : List Message :=
  (read.filter fun x => x.1 = c).map Prod.snd

/-- What has been read and what is pending has been notified, in this order; the queue is not over
its size; and a client has been sent its own reads since it connected. -/
structure Logged [DecidableEq κ] (read : List (κ × Message)) (s : LiveStream κ) : Prop where
  order : (read.map Prod.snd ++ s.queue).Sublist s.notified
  numbered : s.notified.map Message.number = List.range s.notified.length
  room : s.queue.length ≤ maxsize
  sent : ∀ c client, s.clients c = some client → client.messages <:+ readsOf c read

section Steps

variable [DecidableEq κ] {s : LiveStream κ} {read : List (κ × Message)} {c : κ} {o : Option Client}

theorem Logged.set (h : Logged read s)
    (ho : ∀ client, o = some client → client.messages <:+ readsOf c read) : Logged read (s.set c o) where
  order := h.order
  numbered := h.numbered
  room := h.room
  sent := by
    intro d client hd
    rcases set_cases hd with ⟨rfl, hchanged⟩ | ⟨-, hd⟩
    · exact ho client hchanged
    · exact h.sent d client hd

theorem Logged.notify (h : Logged read s) (payload : Json) : Logged read (s.notify payload) where
  order := by
    unfold LiveStream.notify
    dsimp only
    split
    · exact h.order.trans (List.sublist_append_left _ _)
    · rw [← List.append_assoc]
      exact h.order.append_right _
  numbered := by
    have hlength : (s.notify payload).notified.length = s.notified.length + 1 := List.length_append
    rw [hlength, List.range_succ, ← h.numbered]
    exact List.map_append
  room := by
    have hroom := h.room
    unfold LiveStream.notify
    dsimp only
    split
    · exact hroom
    · rw [List.length_append, List.length_singleton]
      omega
  sent := h.sent

/-- A client that gets nothing has been sent what it had. -/
theorem messages_ping (client : Client) (waiting : Bool) :
    Client.messages { client with waiting := waiting, frames := client.frames ++ [Frame.ping] }
      = client.messages := by
  unfold Client.messages
  rw [List.filterMap_append]
  exact List.append_nil _

theorem Logged.got (h : Logged read s) {client : Client} {m : Message} {rest : List Message}
    (hc : s.clients c = some client) (hqueue : s.queue = m :: rest) :
    Logged (read ++ [(c, m)]) (s.got c client m rest) where
  order := by
    have horder := h.order
    rw [hqueue] at horder
    rw [List.map_append, List.append_assoc]
    exact horder
  numbered := h.numbered
  room := by
    have hroom := h.room
    rw [hqueue, List.length_cons] at hroom
    show rest.length ≤ maxsize
    omega
  sent := by
    intro d client' hd
    have hreads : readsOf d (read ++ [(c, m)]) = readsOf d read ++ readsOf d [(c, m)] := by
      unfold readsOf
      rw [List.filter_append, List.map_append]
    rw [hreads]
    rcases set_cases hd with ⟨rfl, hchanged⟩ | ⟨hdc, hd⟩
    · cases hchanged
      have hown : readsOf d [(d, m)] = [m] := by simp [readsOf]
      have hmessages : Client.messages
          { client with waiting := false, frames := client.frames ++ [Frame.message m] }
            = client.messages ++ [m] := by
        unfold Client.messages
        rw [List.filterMap_append]
        rfl
      rw [hown, hmessages]
      exact (List.suffix_append_self_iff).mpr (h.sent d client hc)
    · have hother : readsOf d [(c, m)] = [] := by simp [readsOf, Ne.symm hdc]
      rw [hother, List.append_nil]
      exact h.sent d client' hd

/-- A read hands the first pending message to a client that waits, or does nothing. -/
theorem read_cases (s : LiveStream κ) (c : κ) :
    (∃ client m rest, s.clients c = some client ∧ s.queue = m :: rest ∧
      readBy s (.read c) = [(c, m)] ∧ s.read c = s.got c client m rest) ∨
    (readBy s (.read c) = [] ∧ s.read c = s) := by
  cases hc : s.clients c with
  | none => exact Or.inr ⟨by simp [readBy, hc], by simp [LiveStream.read, hc]⟩
  | some client =>
    cases hqueue : s.queue with
    | nil => exact Or.inr ⟨by simp [readBy, hc, hqueue], by simp [LiveStream.read, hc, hqueue]⟩
    | cons m rest =>
      by_cases hwaiting : client.waiting = true
      · refine Or.inl ⟨client, m, rest, rfl, rfl, ?_, ?_⟩
        · simp [readBy, hc, hqueue, hwaiting]
        · simp [LiveStream.read, LiveStream.got, hc, hqueue, hwaiting]
      · refine Or.inr ⟨?_, ?_⟩
        · simp [readBy, hc, hqueue, hwaiting]
        · simp [LiveStream.read, hc, hqueue, hwaiting]

/-- What an event reads is added to what has been read. -/
theorem Logged.step (h : Logged read s) (event : StreamEvent κ) :
    Logged (read ++ readBy s event) (s.step event) := by
  -- only a read reads
  have hquiet : ∀ {s' : LiveStream κ}, Logged read s' → Logged (read ++ []) s' := by
    intro s' h'
    rw [List.append_nil]
    exact h'
  have hself : ∀ c, Logged read (s.set c (s.clients c)) := fun c => h.set (h.sent c)
  cases event with
  | notify payload => exact hquiet (h.notify payload)
  | connect c =>
    refine hquiet (h.set ?_)
    rintro client ⟨⟩
    exact List.nil_suffix
  | disconnect c =>
    refine hquiet (h.set ?_)
    intro client hclient
    obtain ⟨old, hold, rfl⟩ := Option.map_eq_some_iff.mp hclient
    exact h.sent c old hold
  | check c =>
    refine hquiet ?_
    show Logged read (s.check c)
    unfold LiveStream.check
    split
    · exact h
    · rename_i client hc
      split
      · exact h
      · split
        · refine h.set ?_
          rintro client' ⟨⟩
          exact h.sent c client hc
        · exact h.set (by rintro client' ⟨⟩)
  | read c =>
    show Logged (read ++ readBy s (.read c)) (s.read c)
    rcases read_cases s c with ⟨client, m, rest, hc, hqueue, hread, hafter⟩ | ⟨hread, hafter⟩
    · rw [hread, hafter]
      exact h.got hc hqueue
    · rw [hread, hafter]
      exact hquiet h
  | timeout c =>
    refine hquiet ?_
    show Logged read (s.timeout c)
    unfold LiveStream.timeout
    split
    · exact h
    · rename_i client hc
      split
      · refine h.set ?_
        rintro client' ⟨⟩
        rw [messages_ping]
        exact h.sent c client hc
      · exact h
  | cancel c => exact hquiet (h.set (by rintro client ⟨⟩))

theorem Logged.run (h : Logged read s) (events : List (StreamEvent κ)) :
    Logged (read ++ reads s events) (runEvents LiveStream.step s events) := by
  induction events generalizing s read with
  | nil =>
    rw [reads, List.append_nil]
    exact h
  | cons event events ih =>
    rw [reads, ← List.append_assoc]
    exact ih (h.step event)

theorem logged_empty : Logged [] (LiveStream.empty : LiveStream κ) where
  order := List.Sublist.refl _
  numbered := rfl
  room := Nat.zero_le _
  sent := by rintro c client ⟨⟩

/-- Where every message finds room, nothing is lost. -/
theorem complete_step (h : read.map Prod.snd ++ s.queue = s.notified) {event : StreamEvent κ}
    (hroom : HasRoom s event) :
    (read ++ readBy s event).map Prod.snd ++ (s.step event).queue = (s.step event).notified := by
  have hquiet : ∀ {s' : LiveStream κ}, s'.queue = s.queue → s'.notified = s.notified →
      (read ++ []).map Prod.snd ++ s'.queue = s'.notified := by
    intro s' hqueue hnotified
    rw [List.append_nil, hqueue, hnotified]
    exact h
  cases event with
  | notify payload =>
    show (read ++ []).map Prod.snd ++ (s.notify payload).queue = (s.notify payload).notified
    have hlow : ¬ maxsize ≤ s.queue.length := not_le.mpr hroom
    unfold LiveStream.notify
    dsimp only
    rw [if_neg hlow, List.append_nil, ← List.append_assoc, h]
  | connect c => exact hquiet rfl rfl
  | disconnect c => exact hquiet rfl rfl
  | check c =>
    obtain ⟨o, hcheck, -⟩ := check_eq s c
    show (read ++ []).map Prod.snd ++ (s.check c).queue = (s.check c).notified
    rw [hcheck]
    exact hquiet rfl rfl
  | read c =>
    show (read ++ readBy s (.read c)).map Prod.snd ++ (s.read c).queue = (s.read c).notified
    rcases read_cases s c with ⟨client, m, rest, -, hqueue, hread, hafter⟩ | ⟨hread, hafter⟩
    · rw [hqueue] at h
      rw [hread, hafter, List.map_append, List.append_assoc]
      exact h
    · rw [hread, hafter]
      exact hquiet rfl rfl
  | timeout c =>
    obtain ⟨o, htimeout, -⟩ := timeout_eq s c
    show (read ++ []).map Prod.snd ++ (s.timeout c).queue = (s.timeout c).notified
    rw [htimeout]
    exact hquiet rfl rfl
  | cancel c => exact hquiet rfl rfl

theorem complete_run {events : List (StreamEvent κ)} (h : read.map Prod.snd ++ s.queue = s.notified)
    (hroom : Throughout LiveStream.step HasRoom s events) :
    (read ++ reads s events).map Prod.snd ++ (runEvents LiveStream.step s events).queue =
      (runEvents LiveStream.step s events).notified := by
  induction events generalizing s read with
  | nil =>
    rw [reads, List.append_nil]
    exact h
  | cons event events ih =>
    rw [reads, ← List.append_assoc]
    exact ih (complete_step h hroom.1) hroom.2

end Steps

/-! ## The whole service -/

section Service

variable [DecidableEq κ] {settings : ProfileSettings} {feed : Feed}

/-- A client notifies nothing. -/
theorem notified_client (s : LiveStream κ) (event : ClientEvent κ) :
    (s.step event.event).notified = s.notified := by
  cases event with
  | connect c => rfl
  | disconnect c => rfl
  | check c =>
    obtain ⟨o, hcheck, -⟩ := check_eq s c
    show (s.check c).notified = s.notified
    rw [hcheck]
    rfl
  | read c =>
    show (s.read c).notified = s.notified
    rcases read_cases s c with ⟨client, m, rest, -, -, -, hafter⟩ | ⟨-, hafter⟩
    · rw [hafter]
      rfl
    · rw [hafter]
  | timeout c =>
    obtain ⟨o, htimeout, -⟩ := timeout_eq s c
    show (s.timeout c).notified = s.notified
    rw [htimeout]
    rfl
  | cancel c => rfl

omit [DecidableEq κ] in
theorem stream_set (d : Dashboard κ) (feed' : Feed) (s : LiveStream κ) :
    (d.set feed' s).stream feed = if feed' = feed then s else d.stream feed := by
  unfold Dashboard.set
  dsimp only
  split
  · rename_i h
    subst h
    exact Function.update_self ..
  · rename_i h
    exact Function.update_of_ne (Ne.symm h) ..

/-- A stream goes through its own events only. -/
theorem stream_runEvents (d : Dashboard κ) (events : List (DashboardEvent κ)) :
    (runEvents (Dashboard.step settings) d events).stream feed =
      runEvents LiveStream.step (d.stream feed) (streamEvents settings feed d.consuming events) := by
  induction events generalizing d with
  | nil => rfl
  | cons event events ih =>
    show (runEvents (Dashboard.step settings) (d.step settings event) events).stream feed = _
    rw [ih]
    cases event with
    | received r =>
      rw [streamEvents]
      unfold Dashboard.step ProfileSettings.raises ProfileSettings.messageFor
      dsimp only
      by_cases hconsuming : d.consuming = true
      · rw [if_pos hconsuming, if_pos hconsuming]
        cases settings.handle r with
        | error x => rfl
        | ok routed =>
          cases routed with
          | none =>
            dsimp only
            rw [hconsuming]
            rfl
          | some routed =>
            obtain ⟨feed', message⟩ := routed
            dsimp only
            rw [stream_set, if_neg Bool.false_ne_true]
            have hafter : (d.set feed' ((d.stream feed').notify message)).consuming = true := hconsuming
            rw [hafter]
            by_cases hfeed : feed' = feed
            · rw [if_pos hfeed, if_pos hfeed, hfeed]
              rfl
            · rw [if_neg hfeed, if_neg hfeed]
              rfl
      · rw [if_neg hconsuming, if_neg hconsuming, eq_false_of_ne_true hconsuming]
    | client feed' event =>
      rw [streamEvents]
      show runEvents _ ((d.set feed' _).stream feed) _ = _
      rw [stream_set]
      by_cases hfeed : feed' = feed
      · rw [if_pos hfeed, if_pos hfeed, hfeed]
        rfl
      · rw [if_neg hfeed, if_neg hfeed]
        rfl
    | stop => rfl

/-- What a stream is notified of is what the consumer makes of its messages. -/
theorem payloads_notified (s : LiveStream κ) (consuming : Bool) (events : List (DashboardEvent κ)) :
    (runEvents LiveStream.step s (streamEvents settings feed consuming events)).notified.map
        Message.payload =
      s.notified.map Message.payload ++
        (consumed settings consuming events).filterMap (settings.messageFor feed) := by
  induction events generalizing s consuming with
  | nil => exact (List.append_nil _).symm
  | cons event events ih =>
    cases event with
    | received r =>
      rw [streamEvents, consumed]
      split
      · split
        · exact ih s false
        · rw [List.filterMap_cons]
          cases settings.messageFor feed r with
          | none => exact ih s true
          | some message =>
            refine (ih (s.notify message) true).trans ?_
            show (s.notified ++ [_]).map Message.payload ++ _ = _
            rw [List.map_append, List.append_assoc]
            rfl
      · exact ih s false
    | client feed' event =>
      rw [streamEvents, consumed]
      split
      · refine (ih (s.step event.event) consuming).trans ?_
        rw [notified_client]
      · exact ih s consuming
    | stop => exact ih s false

end Service

/-- In every history of the service the clients of a queue take out, each in their turn, what the
consumer has put in, in the order of the topic: no message goes to two of them or to one of them
twice, and each client has been sent its own reads. At most 100 messages are pending, and nothing is
lost as long as every message finds fewer of them. -/
theorem reads_in_order [DecidableEq κ] (settings : ProfileSettings) (feed : Feed)
    (history : List (DashboardEvent κ)) :
    let s := (runEvents (Dashboard.step settings) .empty history).stream feed
    let read := reads .empty (streamEvents settings feed true history)
    s.notified.map Message.payload =
        (consumed settings true history).filterMap (settings.messageFor feed) ∧
      (read.map Prod.snd ++ s.queue).Sublist s.notified ∧
      ((read.map Prod.snd ++ s.queue).map Message.number).Pairwise (· < ·) ∧
      s.queue.length ≤ maxsize ∧
      (∀ c client, s.clients c = some client → client.messages <:+ readsOf c read) ∧
      (Throughout LiveStream.step HasRoom .empty (streamEvents settings feed true history) →
        read.map Prod.snd ++ s.queue = s.notified) := by
  intro s read
  have hs : s = runEvents LiveStream.step .empty (streamEvents settings feed true history) :=
    stream_runEvents Dashboard.empty history
  have hlogged : Logged read s := by
    rw [hs]
    exact logged_empty.run _
  refine ⟨?_, hlogged.order, ?_, hlogged.room, hlogged.sent, ?_⟩
  · rw [hs, payloads_notified]
    rfl
  · have hnumbers := hlogged.order.map Message.number
    rw [hlogged.numbered] at hnumbers
    exact List.Pairwise.sublist hnumbers List.pairwise_lt_range
  · intro hroom
    rw [hs]
    exact @complete_run _ _ _ [] _ rfl hroom

end FraudDetection.Profile
