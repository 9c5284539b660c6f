import FraudDetection.Gateway.Broadcast

/-!
# The loop behind the live feed

`consume_evaluated_transactions` starts a consumer, broadcasts the messages that it yields one after
the other, and stops it. Every await of the loop can return, raise or be cancelled, and connections
come and go meanwhile.

A connection is owed the message of the broadcast in progress as long as its turn is ahead. A step
either leaves what a connection has received and is owed as it was, with a new message at the end,
or it drops what the connection is owed. So the order of the messages is kept, and the dropped ones
are exactly those that `missed` says.
-/

namespace FraudDetection.Gateway

open Async Store

variable {κ : Type} [DecidableEq κ]

/-! ## The loop -/

/-- What has led to the stop of the consumer, if it was not the end of its messages. -/
inductive StopCause where
  | cancelledError
  | exception

/-- Where `consume_evaluated_transactions` waits: for the start of the consumer, its next message,
the send of a broadcast, the stop of the consumer, or the time until the next attempt. -/
inductive LoopState where
  | start
  | message
  | send
  | stop (raised : Option StopCause)
  | sleep
  | ended

/-- How the loop goes on once the consumer is stopped. -/
def LoopState.afterStop : Option StopCause → LoopState
  | none => .start
  | some .cancelledError => .ended
  | some .exception => .sleep

/-- Where a cancellation leads to. Only a consumer that is started is stopped on the way out. -/
def LoopState.cancelled : LoopState → LoopState
  | .message | .send => .stop (some .cancelledError)
  | _ => .ended

/-- The connection manager, the loop, the connections ever accepted, and the messages that the
consumers have yielded. -/
structure LiveFeed (κ : Type) where
  feed : Feed κ
  loop : LoopState
  accepted : List κ
  yielded : List String

/-- What can happen at the await of the loop, and what the endpoints of connections do. -/
inductive LiveEvent (κ : Type) where
  | started
  | startFailed
  | message (value : String)
  | exhausted
  | pollFailed
  | sent
  | sendFailed
  | stopped
  | stopFailed
  | woke
  | cancelled
  | connect (websocket : κ)
  | disconnect (websocket : κ)

/-- The loop waits for the next send of its broadcast, or for a message after the last one. -/
def LiveFeed.resume (s : LiveFeed κ) (feed : Feed κ) : LiveFeed κ :=
  { s with
    feed
    loop := match feed.broadcast with
      | none => .message
      | some _ => .send }

/-- The gateway after an event. A cancelled broadcast removes no connection, and a stop that raises
replaces the cancellation it was for. -/
def LiveFeed.step (s : LiveFeed κ) : LiveEvent κ → LiveFeed κ
  | .started => { s with loop := .message }
  | .startFailed => { s with loop := .sleep }
  | .message value =>
      LiveFeed.resume { s with yielded := s.yielded ++ [value] } (s.feed.step (.broadcast value))
  | .exhausted => { s with loop := .stop none }
  | .pollFailed => { s with loop := .stop (some .exception) }
  | .sent => s.resume (s.feed.step .sent)
  | .sendFailed => s.resume (s.feed.step .failed)
  | .stopped =>
      match s.loop with
      | .stop raised => { s with loop := .afterStop raised }
      | _ => s
  | .stopFailed => { s with loop := .sleep }
  | .woke => { s with loop := .start }
  | .cancelled =>
      { s with
        feed := { s.feed with broadcast := none }
        loop := s.loop.cancelled }
  | .connect websocket =>
      { s with
        feed := s.feed.step (.connect websocket)
        accepted := websocket :: s.accepted }
  | .disconnect websocket => { s with feed := s.feed.step (.disconnect websocket) }

/-- The event is one of the await that the loop is at. A connection is accepted once. -/
def LiveFeed.Enabled (s : LiveFeed κ) : LiveEvent κ → Prop
  | .started | .startFailed => s.loop = .start
  | .message _ | .exhausted | .pollFailed => s.loop = .message
  | .sent | .sendFailed => s.loop = .send
  | .stopped | .stopFailed => ∃ raised, s.loop = .stop raised
  | .woke => s.loop = .sleep
  | .cancelled => s.loop ≠ .ended
  | .connect websocket => websocket ∉ s.accepted
  | .disconnect _ => True

/-- The gateway as it starts. -/
def idleGateway : LiveFeed κ := ⟨emptyFeed, .start, [], []⟩

/-- The gateway after any history. -/
def LiveFeed.Reachable (s : LiveFeed κ) : Prop :=
  ∃ history, Throughout LiveFeed.step LiveFeed.Enabled idleGateway history ∧
    s = runEvents LiveFeed.step idleGateway history

/-! ## What a connection is owed -/

/-- The message whose broadcast has not passed the connection. -/
def Feed.owed (s : Feed κ) (c : κ) : List String :=
  match s.broadcast with
  | none => []
  | some b =>
      if b.connection = c ∨ c ∈ s.activeConnections.drop b.index then [b.message] else []

/-- The message that an event yields. -/
def LiveEvent.yields : LiveEvent κ → List String
  | .message value => [value]
  | _ => []

/-- The message that an event takes from a connection: its own send raises, the broadcast is
cancelled, or a connection before the iterator is removed while it is the next one. -/
def missed (c : κ) (s : LiveFeed κ) : LiveEvent κ → List String
  | .sendFailed =>
      match s.feed.broadcast with
      | none => []
      | some b => if b.connection = c then [b.message] else []
  | .cancelled => s.feed.owed c
  | .disconnect d =>
      match s.feed.broadcast with
      | none => []
      | some b =>
          if s.feed.activeConnections.idxOf d < b.index ∧
              s.feed.activeConnections[b.index]? = some c then [b.message] else []
  | _ => []

/-- The messages that a run takes from a connection. -/
def missedIn (c : κ) : LiveFeed κ → List (LiveEvent κ) → List String
  | _, [] => []
  | s, event :: events => missed c s event ++ missedIn c (s.step event) events

section Owed

variable {s : Feed κ} {c d : κ} {message : String} {index : ℕ} {disconnected : List κ}
  {b : Broadcast κ}

theorem owed_of_idle (h : s.broadcast = none) : s.owed c = [] := by
  simp only [Feed.owed, h]

theorem owed_of_ahead (h : s.broadcast = some b)
    (hahead : b.connection = c ∨ c ∈ s.activeConnections.drop b.index) : s.owed c = [b.message] := by
  simp only [Feed.owed, h, if_pos hahead]

theorem owed_of_passed (h : s.broadcast = some b) (hturn : b.connection ≠ c)
    (hpassed : c ∉ s.activeConnections.drop b.index) : s.owed c = [] := by
  simp only [Feed.owed, h, if_neg (not_or.mpr ⟨hturn, hpassed⟩)]

/-- A broadcast that goes on owes its message to the connections that its iterator has not
passed. -/
theorem owed_next : (s.next message index disconnected).owed c
    = if c ∈ s.activeConnections.drop index then [message] else [] := by
  unfold Feed.next
  split
  · rename_i d hd
    simp only [Feed.owed, drop_of_getElem? hd, List.mem_cons, eq_comm]
  · rename_i hend
    rw [List.drop_eq_nil_of_le (List.getElem?_eq_none_iff.mp hend)]
    simp [Feed.owed]

theorem owed_next_of_ahead (h : c ∈ s.activeConnections.drop index) :
    (s.next message index disconnected).owed c = [message] := by
  rw [owed_next, if_pos h]

theorem owed_next_of_passed (h : c ∉ s.activeConnections.drop index) :
    (s.next message index disconnected).owed c = [] := by
  rw [owed_next, if_neg h]

theorem owed_next_sublist : ((s.next message index disconnected).owed c).Sublist [message] := by
  rw [owed_next]
  split
  · exact List.Sublist.refl _
  · exact List.nil_sublist _

theorem owed_sublist (h : s.broadcast = some b) : (s.owed c).Sublist [b.message] := by
  simp only [Feed.owed, h]
  split
  · exact List.Sublist.refl _
  · exact List.nil_sublist _

theorem texts_next : (s.next message index disconnected).texts = s.texts := by
  unfold Feed.next
  split <;> rfl

theorem texts_sent_self (h : s.broadcast = some b) :
    (s.step .sent).texts b.connection = s.texts b.connection ++ [b.message] := by
  rw [step_sent h, texts_next]
  exact Function.update_self ..

theorem texts_sent_of_ne (h : s.broadcast = some b) (hc : b.connection ≠ c) :
    (s.step .sent).texts c = s.texts c := by
  rw [step_sent h, texts_next]
  exact Function.update_of_ne hc.symm ..

theorem owed_sent_self (h : s.broadcast = some b)
    (hpassed : b.connection ∉ s.activeConnections.drop b.index) :
    (s.step .sent).owed b.connection = [] := by
  rw [step_sent h]
  exact @owed_next_of_passed κ _ (s.receive b.connection b.message) _ _ _ _ hpassed

/-- The end of a send leaves what the other connections are owed. -/
theorem owed_sent_of_ne (h : s.broadcast = some b) (hc : b.connection ≠ c) :
    (s.step .sent).owed c = s.owed c := by
  rw [step_sent h]
  by_cases hahead : c ∈ s.activeConnections.drop b.index
  · rw [owed_of_ahead h (Or.inr hahead)]
    exact @owed_next_of_ahead κ _ (s.receive b.connection b.message) _ _ _ _ hahead
  · rw [owed_of_passed h hc hahead]
    exact @owed_next_of_passed κ _ (s.receive b.connection b.message) _ _ _ _ hahead

theorem texts_failed (h : s.broadcast = some b) : (s.step .failed).texts = s.texts := by
  rw [step_failed h, texts_next]

theorem owed_failed_self (h : s.broadcast = some b)
    (hpassed : b.connection ∉ s.activeConnections.drop b.index) :
    (s.step .failed).owed b.connection = [] := by
  rw [step_failed h, owed_next_of_passed hpassed]

theorem owed_failed_of_ne (h : s.broadcast = some b) (hc : b.connection ≠ c) :
    (s.step .failed).owed c = s.owed c := by
  rw [step_failed h]
  by_cases hahead : c ∈ s.activeConnections.drop b.index
  · rw [owed_of_ahead h (Or.inr hahead), owed_next_of_ahead hahead]
  · rw [owed_of_passed h hc hahead, owed_next_of_passed hahead]

/-- A connection that comes leaves what the others are owed. -/
theorem owed_connect (h : c ≠ d) : (s.step (.connect d)).owed c = s.owed c := by
  cases hb : s.broadcast with
  | none =>
    rw [owed_of_idle hb]
    exact owed_of_idle hb
  | some b =>
    have hmem : c ∈ (s.activeConnections ++ [d]).drop b.index ↔
        c ∈ s.activeConnections.drop b.index := by
      rw [List.drop_append, List.mem_append, or_iff_left]
      intro hlast
      exact h (List.mem_singleton.mp (List.mem_of_mem_drop hlast))
    by_cases hahead : b.connection = c ∨ c ∈ s.activeConnections.drop b.index
    · rw [owed_of_ahead hb hahead]
      exact @owed_of_ahead κ _ (s.step (.connect d)) c b hb (hahead.imp_right hmem.mpr)
    · obtain ⟨hturn, hpassed⟩ := not_or.mp hahead
      rw [owed_of_passed hb hturn hpassed]
      exact @owed_of_passed κ _ (s.step (.connect d)) c b hb hturn fun hc => hpassed (hmem.mp hc)

theorem disconnect_sublist (l : List κ) (d : κ) : (disconnect l d).Sublist l := by
  rw [disconnect_eq]
  exact List.erase_sublist

theorem owed_disconnect_sublist : ((s.step (.disconnect d)).owed c).Sublist (s.owed c) := by
  cases hb : s.broadcast with
  | none =>
    rw [@owed_of_idle κ _ (s.step (.disconnect d)) c hb]
    exact List.nil_sublist _
  | some b =>
    by_cases hahead : b.connection = c ∨ c ∈ s.activeConnections.drop b.index
    · rw [owed_of_ahead hb hahead]
      exact @owed_sublist κ _ (s.step (.disconnect d)) c b hb
    · obtain ⟨hturn, hpassed⟩ := not_or.mp hahead
      have hrest : c ∉ (disconnect s.activeConnections d).drop b.index := fun hc =>
        hpassed (((disconnect_sublist s.activeConnections d).drop b.index).subset hc)
      rw [@owed_of_passed κ _ (s.step (.disconnect d)) c b hb hturn hrest]
      exact List.nil_sublist _

theorem mem_of_mem_next (h : c ∈ (s.next message index disconnected).activeConnections) :
    c ∈ s.activeConnections := by
  unfold Feed.next at h
  split at h
  · exact h
  · clear * - h
    change c ∈ disconnected.foldl disconnect s.activeConnections at h
    induction disconnected generalizing s with
    | nil => exact h
    | cons d ds ih =>
      have hmem := ih (s := { s with activeConnections := disconnect s.activeConnections d }) h
      exact (disconnect_sublist _ d).subset hmem

end Owed

/-! ## The order of the messages -/

/-- What every step keeps: the list of connections has no duplicates, none is active or served
before it is accepted, the loop is at a send exactly during a broadcast, the iterator is past the
connection that is sent to, and no connection gets the messages out of order. -/
structure LiveFeed.Ordered (s : LiveFeed κ) : Prop where
  nodup : s.feed.activeConnections.Nodup
  known : ∀ c ∈ s.feed.activeConnections, c ∈ s.accepted
  silent : ∀ c, c ∉ s.accepted → s.feed.texts c = []
  sending : s.loop = .send ↔ s.feed.broadcast ≠ none
  turn : ∀ b, s.feed.broadcast = some b → b.connection ∈ s.accepted ∧
    b.connection ∉ s.feed.activeConnections.drop b.index ∧ b.message ∈ s.yielded
  inOrder : ∀ c, (s.feed.texts c ++ s.feed.owed c).Sublist s.yielded

section Order

variable {s : LiveFeed κ} {c d : κ} {event : LiveEvent κ}

omit [DecidableEq κ] in
theorem resume_loop (s : LiveFeed κ) (feed : Feed κ) :
    (s.resume feed).loop = .send ↔ feed.broadcast ≠ none := by
  simp only [LiveFeed.resume]
  cases feed.broadcast with
  | none => simp
  | some b => simp

/-- The invariant where the loop of a broadcast goes on. -/
theorem ordered_next {message : String} {index : ℕ} {disconnected : List κ}
    (hnodup : s.feed.activeConnections.Nodup)
    (hknown : ∀ c ∈ s.feed.activeConnections, c ∈ s.accepted)
    (hsilent : ∀ c, c ∉ s.accepted → s.feed.texts c = []) (hmessage : message ∈ s.yielded)
    (horder : ∀ c, ((s.feed.next message index disconnected).texts c ++
      (s.feed.next message index disconnected).owed c).Sublist s.yielded) :
    (s.resume (s.feed.next message index disconnected)).Ordered where
  nodup := nodup_next hnodup message index disconnected
  known c hc := hknown c (mem_of_mem_next hc)
  silent c hc := (congrFun texts_next c).trans (hsilent c hc)
  sending := resume_loop s _
  turn b hb := by
    change (s.feed.next message index disconnected).broadcast = some b at hb
    unfold Feed.next at hb
    split at hb
    · rename_i d hd
      cases hb
      have hactive : (s.feed.next message index disconnected).activeConnections
          = s.feed.activeConnections := by
        unfold Feed.next
        rw [hd]
      refine ⟨hknown d (List.mem_of_getElem? hd), ?_, hmessage⟩
      change d ∉ (s.feed.next message index disconnected).activeConnections.drop (index + 1)
      rw [hactive]
      exact not_mem_drop_succ hnodup hd
    · cases hb
  inOrder := horder

theorem ordered_message {value : String} (h : s.Ordered) (hidle : s.feed.broadcast = none) :
    (s.step (.message value)).Ordered := by
  refine @ordered_next κ _ { s with yielded := s.yielded ++ [value] } value 0 [] h.nodup h.known
    h.silent (List.mem_append_right _ (List.mem_singleton_self value)) ?_
  intro c
  have hbefore := h.inOrder c
  rw [owed_of_idle hidle, List.append_nil] at hbefore
  change ((s.feed.next value 0 []).texts c ++ (s.feed.next value 0 []).owed c).Sublist
    (s.yielded ++ [value])
  rw [texts_next]
  exact hbefore.append owed_next_sublist

theorem ordered_sent {b : Broadcast κ} (h : s.Ordered) (hb : s.feed.broadcast = some b) :
    (s.step .sent).Ordered := by
  obtain ⟨hknown, hpassed, hmessage⟩ := h.turn b hb
  change (s.resume (s.feed.step .sent)).Ordered
  rw [step_sent hb]
  refine @ordered_next κ _ { s with feed := s.feed.receive b.connection b.message } b.message b.index
    b.disconnected h.nodup h.known ?_ hmessage ?_
  · intro c hc
    have hne : c ≠ b.connection := by
      rintro rfl
      exact hc hknown
    exact (Function.update_of_ne hne ..).trans (h.silent c hc)
  · intro c
    have hbefore := h.inOrder c
    change (((s.feed.receive b.connection b.message).next b.message b.index b.disconnected).texts c ++
      ((s.feed.receive b.connection b.message).next b.message b.index b.disconnected).owed c).Sublist
        s.yielded
    rw [← step_sent hb]
    by_cases hc : b.connection = c
    · subst hc
      rwa [texts_sent_self hb, owed_sent_self hb hpassed, List.append_nil,
        ← owed_of_ahead hb (Or.inl rfl)]
    · rwa [texts_sent_of_ne hb hc, owed_sent_of_ne hb hc]

theorem ordered_sendFailed {b : Broadcast κ} (h : s.Ordered) (hb : s.feed.broadcast = some b) :
    (s.step .sendFailed).Ordered := by
  obtain ⟨-, hpassed, hmessage⟩ := h.turn b hb
  change (s.resume (s.feed.step .failed)).Ordered
  rw [step_failed hb]
  refine ordered_next h.nodup h.known h.silent hmessage ?_
  intro c
  have hbefore := h.inOrder c
  rw [← step_failed hb, texts_failed hb]
  by_cases hc : b.connection = c
  · subst hc
    rw [owed_failed_self hb hpassed, List.append_nil]
    exact (List.sublist_append_left _ _).trans hbefore
  · rwa [owed_failed_of_ne hb hc]

theorem ordered_connect (h : s.Ordered) (hfresh : c ∉ s.accepted) :
    (s.step (.connect c)).Ordered where
  nodup := nodup_step h.nodup fun hmem => hfresh (h.known c hmem)
  known d hd := by
    rcases List.mem_append.mp hd with hd | hd
    · exact List.mem_cons_of_mem _ (h.known d hd)
    · rw [List.mem_singleton.mp hd]
      exact List.mem_cons_self
  silent d hd := h.silent d fun hmem => hd (List.mem_cons_of_mem _ hmem)
  sending := h.sending
  turn b hb := by
    obtain ⟨hknown, hpassed, hmessage⟩ := h.turn b hb
    refine ⟨List.mem_cons_of_mem _ hknown, ?_, hmessage⟩
    have hne : b.connection ≠ c := by
      rintro rfl
      exact hfresh hknown
    change b.connection ∉ (s.feed.activeConnections ++ [c]).drop b.index
    rw [List.drop_append, List.mem_append]
    -- the new connection is at the end of the list, behind the iterator's connection
    rintro (hmem | hmem)
    · exact hpassed hmem
    · exact hne (List.mem_singleton.mp (List.mem_of_mem_drop hmem))
  inOrder d := by
    have hbefore := h.inOrder d
    by_cases hd : d = c
    · subst hd
      change (s.feed.texts d ++ (s.feed.step (.connect d)).owed d).Sublist s.yielded
      rw [h.silent d hfresh, List.nil_append]
      cases hb : s.feed.broadcast with
      | none =>
        rw [@owed_of_idle κ _ (s.feed.step (.connect d)) d hb]
        exact List.nil_sublist _
      -- accepted during a broadcast, it may still get that message
      | some b =>
        exact (@owed_sublist κ _ (s.feed.step (.connect d)) d b hb).trans
          (List.singleton_sublist.mpr (h.turn b hb).2.2)
    · change (s.feed.texts d ++ (s.feed.step (.connect c)).owed d).Sublist s.yielded
      rwa [owed_connect hd]

theorem ordered_disconnect (h : s.Ordered) : (s.step (.disconnect c)).Ordered where
  nodup := @nodup_step κ _ s.feed (.disconnect c) h.nodup trivial
  known d hd := h.known d ((disconnect_sublist _ c).subset hd)
  silent := h.silent
  sending := h.sending
  turn b hb := by
    obtain ⟨hknown, hpassed, hmessage⟩ := h.turn b hb
    refine ⟨hknown, ?_, hmessage⟩
    intro hmem
    exact hpassed ((disconnect_sublist _ _).drop b.index |>.subset hmem)
  inOrder d := (List.Sublist.append_left owed_disconnect_sublist _).trans (h.inOrder d)

theorem ordered_cancelled (h : s.Ordered) : (s.step .cancelled).Ordered where
  nodup := h.nodup
  known := h.known
  silent := h.silent
  sending := by
    change s.loop.cancelled = .send ↔ (none : Option (Broadcast κ)) ≠ none
    cases s.loop <;> simp [LoopState.cancelled]
  turn := nofun
  inOrder c := by
    change (s.feed.texts c ++ []).Sublist s.yielded
    rw [List.append_nil]
    exact (List.sublist_append_left _ _).trans (h.inOrder c)

/-- The loop goes from one await to another one, and neither is a send. -/
theorem ordered_loop {loop : LoopState} (h : s.Ordered) (hidle : s.loop ≠ .send)
    (hloop : loop ≠ .send) : LiveFeed.Ordered { s with loop } :=
  { h with sending := iff_of_false hloop fun hb => hidle (h.sending.mpr hb) }

theorem ordered_step (h : s.Ordered) (hok : s.Enabled event) : (s.step event).Ordered := by
  cases event with
  | started | startFailed | exhausted | pollFailed | woke =>
    refine ordered_loop h ?_ nofun
    rw [show s.loop = _ from hok]
    nofun
  | stopFailed =>
    obtain ⟨raised, hloop⟩ := hok
    refine ordered_loop h ?_ nofun
    rw [hloop]
    nofun
  | stopped =>
    obtain ⟨raised, hloop⟩ := hok
    change LiveFeed.Ordered (match s.loop with
      | .stop raised => { s with loop := .afterStop raised }
      | _ => s)
    rw [hloop]
    refine ordered_loop h (by rw [hloop]; nofun) ?_
    rcases raised with _ | _ | _ <;> nofun
  | message value =>
    refine ordered_message h ?_
    by_contra hbusy
    exact absurd ((h.sending.mpr hbusy).symm.trans hok) nofun
  | sent =>
    obtain ⟨b, hb⟩ := Option.ne_none_iff_exists'.mp (h.sending.mp hok)
    exact ordered_sent h hb
  | sendFailed =>
    obtain ⟨b, hb⟩ := Option.ne_none_iff_exists'.mp (h.sending.mp hok)
    exact ordered_sendFailed h hb
  | cancelled => exact ordered_cancelled h
  | connect c => exact ordered_connect h hok
  | disconnect c => exact ordered_disconnect h

theorem ordered_idleGateway : (idleGateway : LiveFeed κ).Ordered :=
  ⟨List.nodup_nil, nofun, fun _ _ => rfl, iff_of_false nofun fun h => h rfl, nofun,
    fun _ => List.Sublist.refl _⟩

theorem LiveFeed.Reachable.ordered (h : s.Reachable) : s.Ordered := by
  obtain ⟨history, hhistory, rfl⟩ := h
  exact Throughout.invariant (fun t event => ordered_step) hhistory ordered_idleGateway

end Order

/-! ## The stay of a connection -/

/-- An event while a connection is active. -/
def Stays (c : κ) (s : LiveFeed κ) (event : LiveEvent κ) : Prop :=
  s.Enabled event ∧ c ∈ s.feed.activeConnections

/-- A step keeps the messages of a connection and adds the one that it yields, or takes from the
connection what it is owed. -/
def Settles (c : κ) (s : LiveFeed κ) (event : LiveEvent κ) : Prop :=
  (missed c s event = [] ∧
    (s.step event).feed.texts c ++ (s.step event).feed.owed c
      = s.feed.texts c ++ s.feed.owed c ++ event.yields) ∨
  (event.yields = [] ∧ missed c s event = s.feed.owed c ∧
    (s.step event).feed.texts c = s.feed.texts c ∧ (s.step event).feed.owed c = [])

section Stay

variable {s : LiveFeed κ} {c d : κ} {event : LiveEvent κ} {events : List (LiveEvent κ)}

theorem settles_of_feed (hmissed : missed c s event = []) (hyields : event.yields = [])
    (hfeed : (s.step event).feed = s.feed) : Settles c s event := by
  refine Or.inl ⟨hmissed, ?_⟩
  rw [hfeed, hyields, List.append_nil]

theorem feed_stopped (s : LiveFeed κ) : (s.step .stopped).feed = s.feed := by
  simp only [LiveFeed.step]
  split <;> rfl

theorem settles_message {value : String} (hidle : s.feed.broadcast = none)
    (hc : c ∈ s.feed.activeConnections) : Settles c s (.message value) := by
  refine Or.inl ⟨rfl, ?_⟩
  change (s.feed.next value 0 []).texts c ++ (s.feed.next value 0 []).owed c = _
  have howed : (s.feed.next value 0 []).owed c = [value] := owed_next_of_ahead hc
  rw [texts_next, howed, owed_of_idle hidle, List.append_nil]
  rfl

theorem settles_sent {b : Broadcast κ} (h : s.Ordered) (hb : s.feed.broadcast = some b) :
    Settles c s .sent := by
  obtain ⟨-, hpassed, -⟩ := h.turn b hb
  refine Or.inl ⟨rfl, ?_⟩
  change (s.feed.step .sent).texts c ++ (s.feed.step .sent).owed c
    = s.feed.texts c ++ s.feed.owed c ++ []
  rw [List.append_nil]
  by_cases hc : b.connection = c
  · subst hc
    rw [texts_sent_self hb, owed_sent_self hb hpassed, owed_of_ahead hb (Or.inl rfl), List.append_nil]
  · rw [texts_sent_of_ne hb hc, owed_sent_of_ne hb hc]

theorem settles_sendFailed {b : Broadcast κ} (h : s.Ordered) (hb : s.feed.broadcast = some b) :
    Settles c s .sendFailed := by
  obtain ⟨-, hpassed, -⟩ := h.turn b hb
  by_cases hc : b.connection = c
  · subst hc
    -- the send to `c` itself has failed, and is not repeated
    refine Or.inr ⟨rfl, ?_, congrFun (texts_failed hb) _, owed_failed_self hb hpassed⟩
    simp only [missed, hb, if_pos, owed_of_ahead hb (Or.inl rfl)]
  · refine Or.inl ⟨by simp only [missed, hb, if_neg hc], ?_⟩
    change (s.feed.step .failed).texts c ++ (s.feed.step .failed).owed c
      = s.feed.texts c ++ s.feed.owed c ++ []
    rw [texts_failed hb, owed_failed_of_ne hb hc, List.append_nil]

theorem settles_connect (hne : c ≠ d) : Settles c s (.connect d) := by
  refine Or.inl ⟨rfl, ?_⟩
  change s.feed.texts c ++ (s.feed.step (.connect d)).owed c = s.feed.texts c ++ s.feed.owed c ++ []
  rw [owed_connect hne, List.append_nil]

theorem settles_disconnect (h : s.Ordered) (hne : c ≠ d) : Settles c s (.disconnect d) := by
  cases hb : s.feed.broadcast with
  | none =>
    refine Or.inl ⟨by simp only [missed, hb], ?_⟩
    change s.feed.texts c ++ (s.feed.step (.disconnect d)).owed c
      = s.feed.texts c ++ s.feed.owed c ++ []
    rw [owed_of_idle hb, @owed_of_idle κ _ (s.feed.step (.disconnect d)) c hb, List.append_nil,
      List.append_nil]
  | some b =>
    have hrest : c ∈ (disconnect s.feed.activeConnections d).drop b.index ↔
        c ∈ s.feed.activeConnections.drop b.index ∧
          ¬ (s.feed.activeConnections.idxOf d < b.index ∧
            s.feed.activeConnections[b.index]? = some c) := by
      rw [disconnect_eq]
      exact mem_drop_erase h.nodup hne
    by_cases hover : s.feed.activeConnections.idxOf d < b.index ∧
        s.feed.activeConnections[b.index]? = some c
    · -- the iterator steps over `c`
      have hnext : c ∈ s.feed.activeConnections.drop b.index := by
        rw [drop_of_getElem? hover.2]
        exact List.mem_cons_self
      have hturn : b.connection ≠ c := by
        rintro rfl
        exact (h.turn b hb).2.1 hnext
      refine Or.inr ⟨rfl, ?_, rfl, ?_⟩
      · simp only [missed, hb, if_pos hover, owed_of_ahead hb (Or.inr hnext)]
      · exact @owed_of_passed κ _ (s.feed.step (.disconnect d)) c b hb hturn
          fun hmem => (hrest.mp hmem).2 hover
    · refine Or.inl ⟨by simp only [missed, hb, if_neg hover], ?_⟩
      change s.feed.texts c ++ (s.feed.step (.disconnect d)).owed c
        = s.feed.texts c ++ s.feed.owed c ++ []
      rw [List.append_nil]
      by_cases hahead : b.connection = c ∨ c ∈ s.feed.activeConnections.drop b.index
      · rw [owed_of_ahead hb hahead]
        congr 1
        exact @owed_of_ahead κ _ (s.feed.step (.disconnect d)) c b hb
          (hahead.imp_right fun hmem => hrest.mpr ⟨hmem, hover⟩)
      · obtain ⟨hturn, hpassed⟩ := not_or.mp hahead
        rw [owed_of_passed hb hturn hpassed]
        congr 1
        exact @owed_of_passed κ _ (s.feed.step (.disconnect d)) c b hb hturn
          fun hmem => hpassed (hrest.mp hmem).1

theorem settles_step (h : s.Ordered) (hstay : Stays c s event)
    (hc' : c ∈ (s.step event).feed.activeConnections) : Settles c s event := by
  obtain ⟨hok, hc⟩ := hstay
  cases event with
  | started | startFailed | exhausted | pollFailed | stopFailed | woke =>
    exact settles_of_feed rfl rfl rfl
  | stopped => exact settles_of_feed rfl rfl (feed_stopped s)
  | message value =>
    refine settles_message ?_ hc
    by_contra hbusy
    exact absurd ((h.sending.mpr hbusy).symm.trans hok) nofun
  | sent =>
    obtain ⟨b, hb⟩ := Option.ne_none_iff_exists'.mp (h.sending.mp hok)
    exact settles_sent h hb
  | sendFailed =>
    obtain ⟨b, hb⟩ := Option.ne_none_iff_exists'.mp (h.sending.mp hok)
    exact settles_sendFailed h hb
  | cancelled => exact Or.inr ⟨rfl, rfl, rfl, rfl⟩
  | connect d =>
    refine settles_connect ?_
    rintro rfl
    exact hok (h.known c hc)
  | disconnect d => exact settles_disconnect h (ne_of_mem_disconnect h.nodup hc').symm

theorem mem_of_stays (h : Throughout LiveFeed.step (Stays c) s events)
    (hend : c ∈ (runEvents LiveFeed.step s events).feed.activeConnections) :
    c ∈ s.feed.activeConnections := by
  cases events with
  | nil => exact hend
  | cons event events => exact h.1.2

/-- The messages that a run yields. -/
def yieldedIn (events : List (LiveEvent κ)) : List String := events.flatMap LiveEvent.yields

/-- As long as a connection is active, it receives the messages in their order, and each of them is
received, missed, or on its way. -/
theorem stay_run (h : s.Ordered) (hstay : Throughout LiveFeed.step (Stays c) s events)
    (hend : c ∈ (runEvents LiveFeed.step s events).feed.activeConnections) :
    ((runEvents LiveFeed.step s events).feed.texts c ++
        (runEvents LiveFeed.step s events).feed.owed c).Sublist
      (s.feed.texts c ++ s.feed.owed c ++ yieldedIn events) ∧
    ((runEvents LiveFeed.step s events).feed.texts c ++
        (runEvents LiveFeed.step s events).feed.owed c ++ missedIn c s events).Perm
      (s.feed.texts c ++ s.feed.owed c ++ yieldedIn events) := by
  induction events generalizing s with
  | nil => exact ⟨(List.append_nil _).symm ▸ List.Sublist.refl _, List.Perm.refl _⟩
  | cons event events ih =>
    obtain ⟨hfirst, hrest⟩ := hstay
    obtain ⟨horder, hperm⟩ := ih (ordered_step h hfirst.1) hrest hend
    have hstep := settles_step h hfirst (mem_of_stays hrest hend)
    have hyields : yieldedIn (event :: events) = event.yields ++ yieldedIn events :=
      List.flatMap_cons
    have hrun : runEvents LiveFeed.step s (event :: events)
        = runEvents LiveFeed.step (s.step event) events := rfl
    have hdropped : missedIn c s (event :: events)
        = missed c s event ++ missedIn c (s.step event) events := rfl
    rw [hyields, hrun, hdropped]
    rcases hstep with ⟨hmissed, hkept⟩ | ⟨hsilent, hmissed, htexts, howed⟩
    · rw [hkept] at horder hperm
      rw [hmissed, List.nil_append, ← List.append_assoc]
      exact ⟨horder, hperm⟩
    · rw [htexts, howed, List.append_nil] at horder hperm
      rw [hmissed, hsilent, List.nil_append]
      -- what was owed is missed: it moves from one list to the other
      constructor
      · exact horder.trans ((List.sublist_append_left _ _).append (List.Sublist.refl _))
      · rw [List.perm_iff_count] at hperm ⊢
        intro text
        have hcount := hperm text
        simp only [List.count_append] at hcount ⊢
        omega

end Stay

/-- From the moment a connection is accepted, and for as long as it is active, it receives the
messages in their order, beginning with the one whose broadcast is in progress; and each of them is
received, missed, or on its way. -/
theorem stay_accounted (s : LiveFeed κ) (hs : s.Reachable) (c : κ) (hfresh : c ∉ s.accepted)
    (events : List (LiveEvent κ))
    (hstay : Throughout LiveFeed.step (Stays c) (s.step (.connect c)) events)
    (hend : c ∈ (runEvents LiveFeed.step (s.step (.connect c)) events).feed.activeConnections) :
    let t := runEvents LiveFeed.step (s.step (.connect c)) events
    let due := (s.step (.connect c)).feed.owed c ++ yieldedIn events
    (t.feed.texts c ++ t.feed.owed c).Sublist due ∧
      (t.feed.texts c ++ t.feed.owed c ++ missedIn c (s.step (.connect c)) events).Perm due := by
  have hempty : (s.step (.connect c)).feed.texts c = [] := hs.ordered.silent c hfresh
  have hrun := stay_run (ordered_connect hs.ordered hfresh) hstay hend
  rwa [hempty, List.nil_append] at hrun

/-- The gateway once the consumer is started and connection 0 is accepted. -/
def listening : LiveFeed ℕ := runEvents LiveFeed.step idleGateway [.started, .connect 0]

theorem listening_reachable : listening.Reachable :=
  ⟨[.started, .connect 0], ⟨rfl, (by decide : (0 : ℕ) ∉ []), trivial⟩, rfl⟩

/-- Connection 1 misses the first message, since connection 0 leaves while it is the next one, and
receives the second one. -/
theorem stay_accounted_overtaken :
    ["m2"].Sublist ["m1", "m2"] ∧ ["m2", "m1"].Perm ["m1", "m2"] :=
  stay_accounted listening listening_reachable 1 (by decide)
    [.message "m1", .disconnect 0, .sent, .message "m2", .sent]
    ⟨⟨rfl, by decide⟩, ⟨trivial, by decide⟩, ⟨rfl, by decide⟩, ⟨rfl, by decide⟩, ⟨rfl, by decide⟩,
      trivial⟩
    (by decide)

/-! ## Shutdown -/

/-- The loop is on its way out, or out. -/
def LoopState.Leaving (loop : LoopState) : Prop :=
  loop = .stop (some .cancelledError) ∨ loop = .ended

section Shutdown

variable {s : LiveFeed κ} {event : LiveEvent κ}

theorem leaving_cancelled (loop : LoopState) : loop.cancelled.Leaving := by
  cases loop with
  | message | send => exact Or.inl rfl
  | start | stop raised | sleep | ended => exact Or.inr rfl

/-- A loop that leaves can be thrown back by a stop that raises, and by nothing else. -/
theorem leaving_step (h : s.loop.Leaving) (hok : s.Enabled event) (hstop : event ≠ .stopFailed) :
    (s.step event).loop.Leaving ∧ (s.step event).feed.texts = s.feed.texts ∧
      (s.step event).yielded = s.yielded := by
  have hnot : ∀ loop, s.loop = loop → loop ≠ .stop (some .cancelledError) → loop ≠ .ended → False := by
    rintro _ rfl hstop hended
    exact h.elim hstop hended
  cases event with
  | started | startFailed | message value | exhausted | pollFailed | sent | sendFailed | woke =>
    exact (hnot _ hok nofun nofun).elim
  | stopFailed => exact absurd rfl hstop
  | stopped =>
    obtain ⟨raised, hloop⟩ := hok
    have hraised : raised = some .cancelledError := by
      rcases h with h | h
      · exact LoopState.stop.inj (hloop.symm.trans h)
      · exact absurd (hloop.symm.trans h) nofun
    subst hraised
    have hstep : s.step .stopped = { s with loop := .ended } := by
      simp only [LiveFeed.step, hloop]
      rfl
    rw [hstep]
    exact ⟨Or.inr rfl, rfl, rfl⟩
  | cancelled => exact ⟨leaving_cancelled s.loop, rfl, rfl⟩
  | connect c => exact ⟨h, rfl, rfl⟩
  | disconnect c => exact ⟨h, rfl, rfl⟩

end Shutdown

/-- After a cancellation no message is taken and no text is sent, in any continuation in which the
consumer's stop does not raise: the loop has ended, or waits for that stop. -/
theorem cancellation_is_final (s : LiveFeed κ) (events : List (LiveEvent κ))
    (hok : Throughout LiveFeed.step LiveFeed.Enabled (s.step .cancelled) events)
    (hstop : .stopFailed ∉ events) :
    let t := runEvents LiveFeed.step (s.step .cancelled) events
    t.loop.Leaving ∧ t.feed.texts = s.feed.texts ∧ t.yielded = s.yielded := by
  have hstart : (s.step .cancelled).loop.Leaving := leaving_cancelled s.loop
  change _ ∧ _ = (s.step .cancelled).feed.texts ∧ _ = (s.step .cancelled).yielded
  generalize s.step .cancelled = u at hok hstart
  induction events generalizing u with
  | nil => exact ⟨hstart, rfl, rfl⟩
  | cons event events ih =>
    obtain ⟨hfirst, hrest⟩ := hok
    obtain ⟨hne, hnone⟩ := not_or.mp (mt List.mem_cons.mpr hstop)
    obtain ⟨hleaving, htexts, hyielded⟩ := leaving_step hstart hfirst (Ne.symm hne)
    have hrun := ih hnone (u.step event) hrest hleaving
    rwa [htexts, hyielded] at hrun

theorem cancellation_is_final_listening :
    (runEvents LiveFeed.step (listening.step .cancelled) [.connect 1, .stopped]).yielded = [] :=
  (cancellation_is_final listening [.connect 1, .stopped]
    ⟨(by decide : (1 : ℕ) ∉ [0]), ⟨_, rfl⟩, trivial⟩ (by simp)).2.2

/-- A stop that raises takes the cancellation with it: the loop sleeps and starts again. -/
theorem cancellation_lost (s : LiveFeed κ) (hloop : s.loop = .message ∨ s.loop = .send) :
    (runEvents LiveFeed.step s [.cancelled, .stopFailed, .woke]).loop = .start ∧
      Throughout LiveFeed.step LiveFeed.Enabled s [.cancelled, .stopFailed, .woke] := by
  have hstop : (s.step .cancelled).loop = .stop (some .cancelledError) := by
    change s.loop.cancelled = _
    rcases hloop with h | h <;> rw [h] <;> rfl
  refine ⟨rfl, ?_, ⟨_, hstop⟩, rfl, trivial⟩
  rcases hloop with h | h <;> exact fun hended => absurd (h.symm.trans hended) nofun

end FraudDetection.Gateway
