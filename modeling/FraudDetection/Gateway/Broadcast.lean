import Mathlib.Logic.Function.Basic
import FraudDetection.Async.Trace
import FraudDetection.Store.Iteration

/-!
# The live feed

`ConnectionManager.broadcast` iterates over the list of active connections and awaits a send for
each. While it waits, other tasks add their connection to the list or remove it.

A connection waits for its turn as long as the iterator has not passed it, and `Waiting` holds until
it has received the message. It is passed without a turn when a connection before the iterator is
removed while its own is the next one, and by nothing else.
-/

namespace FraudDetection.Gateway

open Async Store

variable {κ : Type} [DecidableEq κ]

/-! ## The connection manager -/

/-- `ConnectionManager.connect`, after the handshake -/
def connect (activeConnections : List κ) (websocket : κ) : List κ := activeConnections ++ [websocket]

/-- `ConnectionManager.disconnect` -/
def disconnect (activeConnections : List κ) (websocket : κ) : List κ :=
  if websocket ∈ activeConnections then activeConnections.erase websocket else activeConnections

/-- A broadcast that awaits a send: the index of its iterator, the connection it sends to, and those
whose send has raised. -/
structure Broadcast (κ : Type) where
  message : String
  index : ℕ
  connection : κ
  disconnected : List κ

/-- The connections, the texts that each of them has received, and the broadcast in progress. -/
structure Feed (κ : Type) where
  activeConnections : List κ
  texts : κ → List String
  broadcast : Option (Broadcast κ)

/-- A connection receives a text. -/
def Feed.receive (s : Feed κ) (c : κ) (message : String) : Feed κ :=
  { s with texts := Function.update s.texts c (s.texts c ++ [message]) }

/-- The loop of `broadcast` goes on to its next send. At its end, the connections whose send has
raised are removed. -/
def Feed.next (s : Feed κ) (message : String) (index : ℕ) (disconnected : List κ) : Feed κ :=
  match s.activeConnections[index]? with
  | some connection =>
      { s with broadcast := some ⟨message, index + 1, connection, disconnected⟩ }
  | none =>
      { s with
        activeConnections := disconnected.foldl disconnect s.activeConnections
        broadcast := none }

/-- What can happen: a broadcast starts, the awaited send succeeds or raises, and the endpoint of a
connection adds or removes it. -/
inductive FeedEvent (κ : Type) where
  | broadcast (message : String)
  | sent
  | failed
  | connect (websocket : κ)
  | disconnect (websocket : κ)

/-- The feed after an event. -/
def Feed.step (s : Feed κ) : FeedEvent κ → Feed κ
  | .broadcast message => s.next message 0 []
  | .sent =>
      match s.broadcast with
      | none => s
      | some b => (s.receive b.connection b.message).next b.message b.index b.disconnected
  | .failed =>
      match s.broadcast with
      | none => s
      | some b => s.next b.message b.index (b.disconnected ++ [b.connection])
  | .connect websocket => { s with activeConnections := connect s.activeConnections websocket }
  | .disconnect websocket =>
      { s with activeConnections := disconnect s.activeConnections websocket }

/-- Messages are broadcast one after the other, and an endpoint adds its connection once. -/
def Feed.Enabled (s : Feed κ) : FeedEvent κ → Prop
  | .broadcast _ => s.broadcast = none
  | .sent => s.broadcast ≠ none
  | .failed => s.broadcast ≠ none
  | .connect websocket => websocket ∉ s.activeConnections
  | .disconnect _ => True

/-- No connection yet. -/
def emptyFeed : Feed κ := ⟨[], fun _ => [], none⟩

/-- The feed after any history of the gateway. -/
def Feed.Reachable (s : Feed κ) : Prop :=
  ∃ history, Throughout Feed.step Feed.Enabled emptyFeed history ∧
    s = runEvents Feed.step emptyFeed history

/-- An event during a broadcast. -/
def During (s : Feed κ) (event : FeedEvent κ) : Prop := s.broadcast ≠ none ∧ s.Enabled event

/-- The events between the start of a broadcast and its end. -/
structure Completes (s : Feed κ) (message : String) (events : List (FeedEvent κ)) : Prop where
  idle : s.broadcast = none
  during : Throughout Feed.step During (s.step (.broadcast message)) events
  ended : (runEvents Feed.step (s.step (.broadcast message)) events).broadcast = none

/-- The connection whose send is awaited. -/
def Feed.pending (s : Feed κ) : Option κ := s.broadcast.map fun b => b.connection

/-- A connection is active at an event, which is no failure to send to it. -/
def Served (c : κ) (s : Feed κ) (event : FeedEvent κ) : Prop :=
  c ∈ s.activeConnections ∧ (event = .failed → s.pending ≠ some c)

/-- A connection is active throughout a broadcast, and no send to it raises. -/
structure Live (s : Feed κ) (message : String) (events : List (FeedEvent κ)) (c : κ) : Prop where
  start : c ∈ s.activeConnections
  served : Throughout Feed.step (Served c) (s.step (.broadcast message)) events
  ended : c ∈ (runEvents Feed.step (s.step (.broadcast message)) events).activeConnections

/-- A connection before the iterator is removed while `c` is the next one. -/
def Overtaken (c : κ) (s : Feed κ) (event : FeedEvent κ) : Prop :=
  ∃ b d, s.broadcast = some b ∧ event = .disconnect d ∧
    s.activeConnections.idxOf d < b.index ∧ s.activeConnections.idxOf c = b.index

/-! ## The list of connections -/

section Connections

variable {s : Feed κ} {c d : κ} {l : List κ}

theorem disconnect_eq (l : List κ) (d : κ) : disconnect l d = l.erase d := by
  unfold disconnect
  split
  · rfl
  · rw [List.erase_of_not_mem ‹_›]

theorem step_sent {b : Broadcast κ} (h : s.broadcast = some b) :
    s.step .sent
      = (s.receive b.connection b.message).next b.message b.index b.disconnected := by
  simp only [Feed.step, h]

theorem step_failed {b : Broadcast κ} (h : s.broadcast = some b) :
    s.step .failed = s.next b.message b.index (b.disconnected ++ [b.connection]) := by
  simp only [Feed.step, h]

theorem nodup_disconnects (h : l.Nodup) (ds : List κ) : (ds.foldl disconnect l).Nodup := by
  induction ds generalizing l with
  | nil => exact h
  | cons d ds ih =>
    apply ih
    rw [disconnect_eq]
    exact h.erase d

theorem nodup_next (h : s.activeConnections.Nodup) (message : String) (index : ℕ)
    (disconnected : List κ) : (s.next message index disconnected).activeConnections.Nodup := by
  unfold Feed.next
  split
  · exact h
  · exact nodup_disconnects h disconnected

/-- No connection is in the list twice. -/
theorem nodup_step {event : FeedEvent κ} (h : s.activeConnections.Nodup) (hok : s.Enabled event) :
    (s.step event).activeConnections.Nodup := by
  cases event with
  | broadcast message => exact nodup_next h message 0 []
  | sent =>
    obtain ⟨b, hb⟩ := Option.ne_none_iff_exists'.mp hok
    rw [step_sent hb]
    exact nodup_next (s := s.receive b.connection b.message) h _ _ _
  | failed =>
    obtain ⟨b, hb⟩ := Option.ne_none_iff_exists'.mp hok
    rw [step_failed hb]
    exact nodup_next h _ _ _
  | connect websocket =>
    refine List.Nodup.append h (List.nodup_singleton websocket) ?_
    exact List.disjoint_singleton.mpr hok
  | disconnect websocket =>
    change (disconnect s.activeConnections websocket).Nodup
    rw [disconnect_eq]
    exact h.erase websocket

theorem run_connects (l cs : List κ) (h : (l ++ cs).Nodup) :
    Throughout Feed.step Feed.Enabled ⟨l, fun _ => [], none⟩ (cs.map .connect) ∧
      runEvents Feed.step ⟨l, fun _ => [], none⟩ (cs.map .connect)
        = ⟨l ++ cs, fun _ => [], none⟩ := by
  induction cs generalizing l with
  | nil => exact ⟨trivial, by rw [List.append_nil]; rfl⟩
  | cons c cs ih =>
    have hfresh : c ∉ l := fun hmem => List.disjoint_of_nodup_append h hmem List.mem_cons_self
    rw [List.append_cons] at h ⊢
    obtain ⟨hok, hrun⟩ := ih (l ++ [c]) h
    exact ⟨⟨hfresh, hok⟩, hrun⟩

/-- Every list of different connections can be that of the active ones. -/
theorem reachable_of_nodup {cs : List κ} (h : cs.Nodup) :
    Feed.Reachable ⟨cs, fun _ => [], none⟩ := by
  obtain ⟨hok, hrun⟩ := run_connects [] cs h
  exact ⟨_, hok, hrun.symm⟩

theorem Feed.Reachable.nodup (h : s.Reachable) : s.activeConnections.Nodup := by
  obtain ⟨history, hhistory, rfl⟩ := h
  refine Throughout.invariant (J := fun t : Feed κ => t.activeConnections.Nodup) ?_ hhistory
    List.nodup_nil
  intro t event ht hok
  exact nodup_step ht hok

end Connections

/-! ## One connection -/

/-- The broadcast goes on, and the connection has not had its turn, or has it now. -/
def Waiting (c : κ) (message : String) (before : List String) (s : Feed κ) : Prop :=
  s.texts c = before ∧ ∃ b, s.broadcast = some b ∧ b.message = message ∧
    (b.connection = c → s.activeConnections.idxOf c < b.index) ∧
    (b.connection ≠ c → b.index ≤ s.activeConnections.idxOf c)

/-- The connection has had its turn, or has missed it. -/
def Passed (c : κ) (texts : List String) (s : Feed κ) : Prop :=
  s.texts c = texts ∧ ∀ b, s.broadcast = some b →
    b.connection ≠ c ∧ s.activeConnections.idxOf c < b.index

section Turns

variable {s : Feed κ} {c d : κ} {message : String} {index : ℕ} {disconnected : List κ}
  {before texts : List String} {b : Broadcast κ}

/-- The iterator gets to an element that it has not passed. -/
theorem waiting_next (hnodup : s.activeConnections.Nodup) (hc : c ∈ s.activeConnections)
    (htexts : s.texts c = before) (h : index ≤ s.activeConnections.idxOf c) :
    Waiting c message before (s.next message index disconnected) := by
  obtain ⟨d, hd⟩ := exists_getElem?_of_le_idxOf hc h
  have hplace := idxOf_of_getElem? hnodup hd
  unfold Feed.next
  rw [hd]
  refine ⟨htexts, _, rfl, rfl, ?_, ?_⟩
  · rintro rfl
    exact Nat.lt_succ_of_le (Nat.le_of_eq hplace)
  · intro hne
    have hother : index ≠ s.activeConnections.idxOf c := by
      intro heq
      rw [heq, List.getElem?_idxOf hc] at hd
      exact hne (Option.some.inj hd).symm
    exact Nat.lt_of_le_of_ne h hother

/-- The iterator does not come back to an element. -/
theorem passed_next (hnodup : s.activeConnections.Nodup) (htexts : s.texts c = texts)
    (h : s.activeConnections.idxOf c < index) :
    Passed c texts (s.next message index disconnected) := by
  unfold Feed.next
  split
  · rename_i d hd
    have hplace := idxOf_of_getElem? hnodup hd
    refine ⟨htexts, ?_⟩
    rintro b ⟨⟩
    constructor
    · rintro rfl
      dsimp only at h
      omega
    · exact Nat.lt_succ_of_lt h
  · exact ⟨htexts, nofun⟩

/-- Another connection comes or goes: the turn of `c` stays ahead, unless it is overtaken. -/
theorem waiting_disconnect (h : Waiting c message before s) (hd : d ≠ c)
    (hno : ¬ Overtaken c s (.disconnect d)) : Waiting c message before (s.step (.disconnect d)) := by
  obtain ⟨htexts, b, hb, hmessage, hturn, hahead⟩ := h
  refine ⟨htexts, b, hb, hmessage, ?_, ?_⟩
  · intro heq
    change (disconnect s.activeConnections d).idxOf c < b.index
    rw [disconnect_eq]
    exact Nat.lt_of_le_of_lt (idxOf_erase_le hd.symm) (hturn heq)
  · intro hne
    change b.index ≤ (disconnect s.activeConnections d).idxOf c
    rw [disconnect_eq]
    have hplace := hahead hne
    rcases Nat.lt_or_ge (s.activeConnections.idxOf d) (s.activeConnections.idxOf c) with hlt | hge
    · have hmoved := idxOf_erase_of_lt hlt
      have hnext : s.activeConnections.idxOf d < b.index → s.activeConnections.idxOf c ≠ b.index :=
        fun hpassed hnext => hno ⟨b, d, hb, rfl, hpassed, hnext⟩
      omega
    · rw [idxOf_erase_of_le hd.symm hge]
      exact hplace

theorem waiting_connect (h : Waiting c message before s) (hc : c ∈ s.activeConnections) :
    Waiting c message before (s.step (.connect d)) := by
  have hplace : (connect s.activeConnections d).idxOf c = s.activeConnections.idxOf c :=
    List.idxOf_append_of_mem hc
  obtain ⟨htexts, b, hb, hmessage, hturn, hahead⟩ := h
  refine ⟨htexts, b, hb, hmessage, ?_, ?_⟩
  · change b.connection = c → (connect s.activeConnections d).idxOf c < b.index
    rw [hplace]
    exact hturn
  · change b.connection ≠ c → b.index ≤ (connect s.activeConnections d).idxOf c
    rw [hplace]
    exact hahead

theorem passed_disconnect (h : Passed c texts s) (hd : d ≠ c) :
    Passed c texts (s.step (.disconnect d)) := by
  refine ⟨h.1, ?_⟩
  intro b hb
  obtain ⟨hne, hlt⟩ := h.2 b hb
  refine ⟨hne, ?_⟩
  change (disconnect s.activeConnections d).idxOf c < b.index
  rw [disconnect_eq]
  exact Nat.lt_of_le_of_lt (idxOf_erase_le hd.symm) hlt

theorem passed_connect (h : Passed c texts s) (hc : c ∈ s.activeConnections) :
    Passed c texts (s.step (.connect d)) := by
  have hplace : (connect s.activeConnections d).idxOf c = s.activeConnections.idxOf c :=
    List.idxOf_append_of_mem hc
  refine ⟨h.1, ?_⟩
  intro b hb
  obtain ⟨hne, hlt⟩ := h.2 b hb
  refine ⟨hne, ?_⟩
  change (connect s.activeConnections d).idxOf c < b.index
  rw [hplace]
  exact hlt

/-- A connection that is overtaken has missed its turn. -/
theorem passed_of_overtaken (h : Waiting c message before s)
    (hover : Overtaken c s (.disconnect d)) : Passed c before (s.step (.disconnect d)) := by
  obtain ⟨htexts, b, hb, -, hturn, -⟩ := h
  obtain ⟨b', d', hb', heq, hpassed, hnext⟩ := hover
  cases heq
  obtain rfl : b = b' := Option.some.inj (hb.symm.trans hb')
  refine ⟨htexts, ?_⟩
  intro b' hb''
  obtain rfl : b = b' := Option.some.inj (hb.symm.trans hb'')
  constructor
  · intro heq
    have hlt := hturn heq
    omega
  · change (disconnect s.activeConnections d).idxOf c < b.index
    rw [disconnect_eq]
    have hmoved := idxOf_erase_of_lt (hnext.symm ▸ hpassed)
    omega

end Turns

/-! ## One broadcast -/

section Run

variable {s : Feed κ} {c : κ} {message : String} {before texts : List String}
  {event : FeedEvent κ} {events : List (FeedEvent κ)}

theorem ne_of_mem_disconnect {d : κ} (hnodup : s.activeConnections.Nodup)
    (hc : c ∈ (s.step (.disconnect d)).activeConnections) : d ≠ c := by
  change c ∈ disconnect s.activeConnections d at hc
  rw [disconnect_eq, hnodup.mem_erase_iff] at hc
  exact hc.1.symm

/-- Nothing but the removal of a connection overtakes another one. -/
theorem not_overtaken (h : ∀ d, event ≠ .disconnect d) : ¬ Overtaken c s event := by
  rintro ⟨b, d, -, heq, -⟩
  exact h d heq

theorem passed_step (hnodup : s.activeConnections.Nodup) (hduring : During s event)
    (hc : c ∈ s.activeConnections) (hc' : c ∈ (s.step event).activeConnections)
    (h : Passed c texts s) : Passed c texts (s.step event) := by
  obtain ⟨b, hb⟩ := Option.ne_none_iff_exists'.mp hduring.1
  obtain ⟨hne, hlt⟩ := h.2 b hb
  cases event with
  | broadcast message => exact absurd hduring.2 hduring.1
  | sent =>
    rw [step_sent hb]
    refine passed_next (s := s.receive b.connection b.message) hnodup ?_ hlt
    exact (Function.update_of_ne hne.symm ..).trans h.1
  | failed =>
    rw [step_failed hb]
    exact passed_next hnodup h.1 hlt
  | connect d => exact passed_connect h hc
  | disconnect d => exact passed_disconnect h (ne_of_mem_disconnect hnodup hc')

/-- A connection goes on to wait, receives the message, or is overtaken. -/
theorem waiting_step (hnodup : s.activeConnections.Nodup) (hduring : During s event)
    (hserved : Served c s event) (hc' : c ∈ (s.step event).activeConnections)
    (h : Waiting c message before s) :
    (Overtaken c s event ∧ Passed c before (s.step event)) ∨
    (¬ Overtaken c s event ∧ (Waiting c message before (s.step event) ∨
      Passed c (before ++ [message]) (s.step event))) := by
  have hwaiting := h
  obtain ⟨htexts, b, hb, rfl, hturn, hahead⟩ := h
  cases event with
  | broadcast message => exact absurd hduring.2 hduring.1
  | sent =>
    refine Or.inr ⟨not_overtaken nofun, ?_⟩
    rw [step_sent hb]
    by_cases heq : b.connection = c
    · subst heq
      refine Or.inr (passed_next (s := s.receive b.connection b.message) hnodup ?_ (hturn rfl))
      rw [← htexts]
      exact Function.update_self ..
    · refine Or.inl (waiting_next (s := s.receive b.connection b.message) hnodup hserved.1 ?_
        (hahead heq))
      exact (Function.update_of_ne (Ne.symm heq) ..).trans htexts
  | failed =>
    have hne : b.connection ≠ c := by
      intro heq
      apply hserved.2 rfl
      rw [Feed.pending, hb, ← heq]
      rfl
    refine Or.inr ⟨not_overtaken nofun, ?_⟩
    rw [step_failed hb]
    exact Or.inl (waiting_next hnodup hserved.1 htexts (hahead hne))
  | connect d =>
    exact Or.inr ⟨not_overtaken nofun, Or.inl (waiting_connect hwaiting hserved.1)⟩
  | disconnect d =>
    by_cases hover : Overtaken c s (.disconnect d)
    · exact Or.inl ⟨hover, passed_of_overtaken hwaiting hover⟩
    · have hne := ne_of_mem_disconnect hnodup hc'
      exact Or.inr ⟨hover, Or.inl (waiting_disconnect hwaiting hne hover)⟩

theorem mem_of_served (h : Throughout Feed.step (Served c) s events)
    (hend : c ∈ (runEvents Feed.step s events).activeConnections) : c ∈ s.activeConnections := by
  cases events with
  | nil => exact hend
  | cons event events => exact h.1.1

/-- After its turn a connection receives nothing, and is not overtaken. -/
theorem passed_run (hnodup : s.activeConnections.Nodup)
    (hduring : Throughout Feed.step During s events)
    (hserved : Throughout Feed.step (Served c) s events)
    (hend : c ∈ (runEvents Feed.step s events).activeConnections) (h : Passed c texts s) :
    (runEvents Feed.step s events).texts c = texts ∧
      Throughout Feed.step (fun t event => ¬ Overtaken c t event) s events := by
  induction events generalizing s with
  | nil => exact ⟨h.1, trivial⟩
  | cons event events ih =>
    obtain ⟨hfirst, hrest⟩ := hduring
    obtain ⟨hcfirst, hcrest⟩ := hserved
    have hc' := mem_of_served hcrest hend
    obtain ⟨htexts, hno⟩ := ih (nodup_step hnodup hfirst.2) hrest hcrest hend
      (passed_step hnodup hfirst hcfirst.1 hc' h)
    refine ⟨htexts, ?_, hno⟩
    rintro ⟨b, d, hb, -, -, hnext⟩
    have hlt := (h.2 b hb).2
    omega

/-- A connection that waits receives the message exactly when it is never overtaken. -/
theorem waiting_run (hnodup : s.activeConnections.Nodup)
    (hduring : Throughout Feed.step During s events)
    (hserved : Throughout Feed.step (Served c) s events)
    (hend : c ∈ (runEvents Feed.step s events).activeConnections)
    (hidle : (runEvents Feed.step s events).broadcast = none) (h : Waiting c message before s) :
    (runEvents Feed.step s events).texts c = before ++ [message] ↔
      Throughout Feed.step (fun t event => ¬ Overtaken c t event) s events := by
  induction events generalizing s with
  | nil =>
    obtain ⟨-, b, hb, -⟩ := h
    exact absurd (hidle.symm.trans hb) nofun
  | cons event events ih =>
    obtain ⟨hfirst, hrest⟩ := hduring
    obtain ⟨hcfirst, hcrest⟩ := hserved
    have hc' := mem_of_served hcrest hend
    have hnodup' := nodup_step hnodup hfirst.2
    rcases waiting_step hnodup hfirst hcfirst hc' h with
      ⟨hover, hpassed⟩ | ⟨hno, hwaiting | hpassed⟩
    · have htexts := (passed_run hnodup' hrest hcrest hend hpassed).1
      refine iff_of_false ?_ fun hnever => hnever.1 hover
      intro hall
      have hlength := congrArg List.length (htexts.symm.trans hall)
      simp at hlength
    · exact (ih hnodup' hrest hcrest hend hidle hwaiting).trans (and_iff_right hno).symm
    · obtain ⟨htexts, hnever⟩ := passed_run hnodup' hrest hcrest hend hpassed
      exact iff_of_true htexts ⟨hno, hnever⟩

end Run

/-! ## Broadcasts -/

/-- Every live connection receives the message exactly once. -/
def ReachesLive (s : Feed κ) (message : String) (events : List (FeedEvent κ)) : Prop :=
  ∀ c, Live s message events c →
    (runEvents Feed.step (s.step (.broadcast message)) events).texts c = s.texts c ++ [message]

/-- In every broadcast of every run, every live connection receives the message exactly once if and
only if none of them is overtaken. -/
theorem broadcast_reaches_live_iff (s : Feed κ) (hs : s.Reachable) (message : String)
    (events : List (FeedEvent κ)) (h : Completes s message events) :
    ReachesLive s message events ↔
      ∀ c, Live s message events c →
        Throughout Feed.step (fun t event => ¬ Overtaken c t event)
          (s.step (.broadcast message)) events := by
  refine forall₂_congr ?_
  intro c hlive
  have hnodup := hs.nodup
  exact waiting_run (nodup_next hnodup message 0 []) h.during hlive.served hlive.ended h.ended
    (waiting_next hnodup hlive.start rfl (Nat.zero_le _))

/-! ### Two connections -/

/-- Connections 0 and 1 are active. -/
def twoConnections : Feed ℕ := ⟨[0, 1], fun _ => [], none⟩

theorem twoConnections_reachable : twoConnections.Reachable := reachable_of_nodup (by decide)

/-- The second connection leaves while the message is sent to it, and a third one comes: the first
one, which stays, has received it. -/
theorem broadcast_reaches_live_iff_first :
    ReachesLive twoConnections "m" [.sent, .connect 2, .disconnect 1, .sent] := by
  refine (broadcast_reaches_live_iff twoConnections twoConnections_reachable "m" _ ?_).mpr ?_
  · exact ⟨rfl, ⟨⟨nofun, nofun⟩, ⟨nofun, (by decide : (2 : ℕ) ∉ [0, 1])⟩, ⟨nofun, trivial⟩,
      ⟨nofun, nofun⟩, trivial⟩, rfl⟩
  · intro c hlive
    have hleft : c ≠ 1 := by
      rintro rfl
      exact absurd hlive.ended (by decide)
    have hstart : c ∈ [0, 1] := hlive.start
    obtain rfl : c = 0 := by simpa [hleft] using hstart
    refine ⟨not_overtaken nofun, not_overtaken nofun, ?_, not_overtaken nofun, trivial⟩
    rintro ⟨b, d, ⟨⟩, -, -, hnext⟩
    exact absurd hnext (by decide)

/-- The first connection leaves while the message is sent to it: the second one, now the first,
never receives it. -/
theorem left_behind : ¬ ∀ s : Feed ℕ, s.Reachable → ∀ message events,
    Completes s message events → ReachesLive s message events := by
  intro hclaim
  have hcompletes : Completes twoConnections "m" [.disconnect 0, .sent] :=
    ⟨rfl, ⟨⟨nofun, trivial⟩, ⟨nofun, nofun⟩, trivial⟩, rfl⟩
  have hlive : Live twoConnections "m" [.disconnect 0, .sent] 1 :=
    ⟨by decide, ⟨⟨by decide, nofun⟩, ⟨by decide, nofun⟩, trivial⟩, by decide⟩
  have htexts := hclaim _ twoConnections_reachable _ _ hcompletes 1 hlive
  exact absurd htexts (by decide)

end FraudDetection.Gateway
