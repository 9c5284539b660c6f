import Mathlib.Logic.Function.Basic
import FraudDetection.Async.Trace
import FraudDetection.Python.Value

/-!
# The dashboard streams

The profile service puts every message of a stream into one queue, and the generator of each
connected client takes its messages from there.

What a client has been sent and what is pending make up what has been notified since it connected
(`EachSees`). A read by another client takes a message out of it, and no other event does.
-/

namespace FraudDetection.Profile

open Async Python

variable {κ : Type}

/-! ## The queue and its readers -/

/-- `asyncio.Queue(maxsize=100)` -/
def maxsize : ℕ := 100

/-- A payload, and how many messages were notified before it. -/
structure Message where
  number : ℕ
  payload : Json

/-- What a generator yields. -/
inductive Frame where
  | message (m : Message)
  | ping

/-- The value whose JSON text is sent. -/
def Frame.value : Frame → Json
  | message m => m.payload
  | ping => .dict [("type", .str "ping")]

/-- The message of a frame. -/
def Frame.message? : Frame → Option Message
  | message m => some m
  | ping => none

/-- A client: how many messages were notified before it connected, whether it still is, whether its
generator waits for the queue or is about to ask if it is disconnected, and what it has yielded. -/
structure Client where
  since : ℕ
  connected : Bool
  waiting : Bool
  frames : List Frame

/-- A stream: the queue, the messages that have been notified, and the clients whose generator
runs. -/
structure LiveStream (κ : Type) where
  queue : List Message
  notified : List Message
  clients : κ → Option Client

/-- What can happen: a message is notified, a client connects or disconnects, its generator is told
whether it is disconnected, gets a message, times out after 15 seconds, or is cancelled. -/
inductive StreamEvent (κ : Type) where
  | notify (payload : Json)
  | connect (c : κ)
  | disconnect (c : κ)
  | check (c : κ)
  | read (c : κ)
  | timeout (c : κ)
  | cancel (c : κ)

namespace LiveStream

/-- `notify_transaction` and `notify_alert` -/
def notify (s : LiveStream κ) (payload : Json) : LiveStream κ :=
  { s with
    queue := if maxsize ≤ s.queue.length then s.queue else s.queue ++ [⟨s.notified.length, payload⟩]
    notified := s.notified ++ [⟨s.notified.length, payload⟩] }

/-- The stream with the generator of a client in another state, or ended. -/
def set [DecidableEq κ] (s : LiveStream κ) (c : κ) (o : Option Client) : LiveStream κ :=
  { s with clients := Function.update s.clients c o }

section Generator

variable [DecidableEq κ] (s : LiveStream κ) (c : κ)

/-- `request.is_disconnected()` answers the generator of a client. -/
def check : LiveStream κ :=
  match s.clients c with
  | none => s
  | some client =>
      if client.waiting then s
      else if client.connected then s.set c (some { client with waiting := true })
      else s.set c none

/-- `queue.get()` hands the generator a message. -/
def read : LiveStream κ :=
  match s.clients c, s.queue with
  | some client, m :: rest =>
      if client.waiting then
        { s with queue := rest }.set c
          (some { client with waiting := false, frames := client.frames ++ [Frame.message m] })
      else s
  | _, _ => s

/-- `asyncio.TimeoutError` -/
def timeout : LiveStream κ :=
  match s.clients c with
  | none => s
  | some client =>
      if client.waiting then
        s.set c (some { client with waiting := false, frames := client.frames ++ [Frame.ping] })
      else s

/-- The stream after an event. -/
def step : StreamEvent κ → LiveStream κ
  | .notify payload => s.notify payload
  | .connect c => s.set c (some ⟨s.notified.length, true, false, []⟩)
  | .disconnect c => s.set c ((s.clients c).map fun client => { client with connected := false })
  | .check c => s.check c
  | .read c => s.read c
  | .timeout c => s.timeout c
  | .cancel c => s.set c none

end Generator

/-- Fewer than 100 messages are pending when one is notified, a client is new when it connects, and
only generators of clients that are gone are cancelled. -/
def Enabled (s : LiveStream κ) : StreamEvent κ → Prop
  | .notify _ => s.queue.length < maxsize
  | .connect c => s.clients c = none
  | .cancel c => ∀ client, s.clients c = some client → client.connected = false
  | _ => True

/-- Nobody is connected yet. -/
def empty : LiveStream κ := ⟨[], [], fun _ => none⟩

end LiveStream

/-- The messages that a client has been sent of those notified since it connected. -/
def Client.seen (client : Client) : List Message :=
  (client.frames.filterMap Frame.message?).filter fun m => client.since ≤ m.number

/-- The messages that are pending of those notified since a client connected. -/
def LiveStream.pending (s : LiveStream κ) (client : Client) : List Message :=
  s.queue.filter fun m => client.since ≤ m.number

/-- Every connected client has been sent, in order and once each, the messages notified since it
connected, up to those that are pending. -/
def EachSees (s : LiveStream κ) : Prop :=
  ∀ c client, s.clients c = some client → client.connected = true →
    client.seen ++ s.pending client = s.notified.drop client.since

/-- A client gets no message that was notified while another one was connected that still is. -/
def Exclusive (s : LiveStream κ) : StreamEvent κ → Prop
  | .read c => ∀ client m, s.clients c = some client → client.waiting = true →
      s.queue.head? = some m → ∀ d other, d ≠ c → s.clients d = some other →
        other.connected = true → m.number < other.since
  | _ => True

/-! ## Steps -/

/-- What is pending was notified before now, and the clients connected before now. -/
structure Past (s : LiveStream κ) : Prop where
  queue : ∀ m ∈ s.queue, m.number < s.notified.length
  since : ∀ c client, s.clients c = some client → client.since ≤ s.notified.length

section Steps

variable {s : LiveStream κ}

theorem EachSees.notify (h : EachSees s) (hpast : Past s) (payload : Json)
    (hroom : s.queue.length < maxsize) : EachSees (s.notify payload) := by
  intro c client hc hconnected
  have hsince : client.since ≤ s.notified.length := hpast.since c client hc
  have hdrop : (s.notify payload).notified.drop client.since
      = s.notified.drop client.since ++ [⟨s.notified.length, payload⟩] :=
    List.drop_append_of_le_length hsince
  have hpending : (s.notify payload).pending client
      = s.pending client ++ [⟨s.notified.length, payload⟩] := by
    unfold LiveStream.pending LiveStream.notify
    rw [if_neg (by omega), List.filter_append]
    simp [hsince]
  rw [hpending, ← List.append_assoc, h c client hc hconnected]
  exact hdrop.symm

theorem Past.notify (h : Past s) (payload : Json) : Past (s.notify payload) where
  queue := by
    intro m hm
    have hlength : (s.notify payload).notified.length = s.notified.length + 1 := by
      simp [LiveStream.notify]
    rw [hlength]
    unfold LiveStream.notify at hm
    dsimp only at hm
    split at hm
    · have hold := h.queue m hm
      omega
    · rcases List.mem_append.mp hm with hold | hnew
      · have hbefore := h.queue m hold
        omega
      · rw [List.mem_singleton.mp hnew]
        exact Nat.lt_succ_self _
  since := by
    intro c client hc
    have hbefore := h.since c client hc
    simp only [LiveStream.notify, List.length_append, List.length_singleton]
    omega

variable [DecidableEq κ] {c d : κ} {o : Option Client} {client : Client} {m : Message}

/-- The state of a client after another one, or the same, changed its own. -/
theorem set_cases (h : (s.set c o).clients d = some client) :
    (d = c ∧ o = some client) ∨ (d ≠ c ∧ s.clients d = some client) := by
  unfold LiveStream.set at h
  by_cases hd : d = c
  · subst hd
    exact Or.inl ⟨rfl, by simpa using h⟩
  · exact Or.inr ⟨hd, by simpa [hd] using h⟩

theorem EachSees.set (h : EachSees s)
    (ho : ∀ client, o = some client → client.connected = true →
      client.seen ++ s.pending client = s.notified.drop client.since) : EachSees (s.set c o) := by
  intro d client hd hconnected
  rcases set_cases hd with ⟨-, hchanged⟩ | ⟨-, hd⟩
  · exact ho client hchanged hconnected
  · exact h d client hd hconnected

theorem Past.set (h : Past s) (ho : ∀ client, o = some client → client.since ≤ s.notified.length) :
    Past (s.set c o) where
  queue := h.queue
  since := by
    intro d client hd
    rcases set_cases hd with ⟨-, hchanged⟩ | ⟨-, hd⟩
    · exact ho client hchanged
    · exact h.since d client hd

/-- A frame adds its message to what a client has been sent, if it was notified in time. -/
theorem seen_append (client : Client) (waiting : Bool) (frame : Frame) :
    Client.seen { client with waiting := waiting, frames := client.frames ++ [frame] }
      = client.seen ++ (frame.message?.toList.filter fun m => client.since ≤ m.number) := by
  unfold Client.seen
  rw [List.filterMap_append, List.filter_append]
  cases frame <;> rfl

/-- The stream after the generator of a client got a message. -/
def LiveStream.got (s : LiveStream κ) (c : κ) (client : Client) (m : Message)
    (rest : List Message) : LiveStream κ :=
  { s with queue := rest }.set c
    (some { client with waiting := false, frames := client.frames ++ [Frame.message m] })

omit [DecidableEq κ] in
theorem pending_cons {rest : List Message} (hqueue : s.queue = m :: rest) (client : Client) :
    s.pending client
      = ([m].filter fun m => client.since ≤ m.number)
        ++ rest.filter fun m => client.since ≤ m.number := by
  unfold LiveStream.pending
  rw [hqueue, ← List.filter_append, List.singleton_append]

/-- A read leaves every client with its messages, if no other one misses the message. -/
theorem EachSees.got_iff (h : EachSees s) {rest : List Message} (hc : s.clients c = some client)
    (hqueue : s.queue = m :: rest) :
    EachSees (s.got c client m rest) ↔
      ∀ d other, d ≠ c → s.clients d = some other → other.connected = true →
        m.number < other.since := by
  constructor
  · intro hafter d other hd hother hconnected
    by_contra hlate
    have hbefore := h d other hother hconnected
    have hother' : (s.got c client m rest).clients d = some other := by
      rw [← hother]
      exact Function.update_of_ne hd ..
    have hmissed := hafter d other hother' hconnected
    have hpending : s.pending other = m :: (s.got c client m rest).pending other := by
      rw [pending_cons hqueue, List.filter_cons_of_pos (by simpa using hlate)]
      rfl
    have hlengths : (other.seen ++ s.pending other).length
        = (other.seen ++ (s.got c client m rest).pending other).length := by
      rw [hbefore, hmissed]
      rfl
    rw [hpending, List.length_append, List.length_append, List.length_cons] at hlengths
    omega
  · intro hothers d other hother hconnected
    rcases set_cases hother with ⟨rfl, hchanged⟩ | ⟨hd, hkept⟩
    · cases hchanged
      have hbefore := h d client hc hconnected
      rw [pending_cons hqueue, ← List.append_assoc] at hbefore
      rw [seen_append]
      exact hbefore
    · have hbefore := h d other hkept hconnected
      have hearly := hothers d other hd hkept hconnected
      rw [pending_cons hqueue, List.filter_cons_of_neg (by simpa using hearly)] at hbefore
      exact hbefore

theorem Past.got (h : Past s) {rest : List Message} (hc : s.clients c = some client)
    (hqueue : s.queue = m :: rest) : Past (s.got c client m rest) where
  queue := by
    intro m' hm'
    apply h.queue m'
    rw [hqueue]
    exact List.mem_cons_of_mem m hm'
  since := by
    intro d other hother
    rcases set_cases hother with ⟨-, hchanged⟩ | ⟨-, hkept⟩
    · cases hchanged
      exact h.since c client hc
    · exact h.since d other hkept

/-- The client that a generator goes on for is a new one, or has been sent the same messages. -/
def Continues (s : LiveStream κ) (c : κ) (client : Client) : Prop :=
  (client.since = s.notified.length ∧ client.seen = []) ∨
    ∃ old, s.clients c = some old ∧ (client.connected = true → old.connected = true) ∧
      client.since = old.since ∧ client.seen = old.seen

/-- An event that does nothing. -/
theorem set_self (s : LiveStream κ) (c : κ) :
    s = s.set c (s.clients c) ∧ ∀ client, s.clients c = some client → Continues s c client := by
  refine ⟨?_, fun client hc => Or.inr ⟨client, hc, id, rfl, rfl⟩⟩
  unfold LiveStream.set
  rw [Function.update_eq_self]

theorem check_eq (s : LiveStream κ) (c : κ) :
    ∃ o, s.check c = s.set c o ∧ ∀ client, o = some client → Continues s c client := by
  unfold LiveStream.check
  split
  · exact ⟨_, set_self s c⟩
  · rename_i client hc
    split
    · exact ⟨_, set_self s c⟩
    · split
      · refine ⟨_, rfl, ?_⟩
        intro client' hclient
        cases hclient
        exact Or.inr ⟨client, hc, id, rfl, rfl⟩
      · exact ⟨none, rfl, nofun⟩

theorem timeout_eq (s : LiveStream κ) (c : κ) :
    ∃ o, s.timeout c = s.set c o ∧ ∀ client, o = some client → Continues s c client := by
  unfold LiveStream.timeout
  split
  · exact ⟨_, set_self s c⟩
  · rename_i client hc
    split
    · refine ⟨_, rfl, ?_⟩
      intro client' hclient
      cases hclient
      refine Or.inr ⟨client, hc, id, rfl, ?_⟩
      rw [seen_append]
      exact List.append_nil _
    · exact ⟨_, set_self s c⟩

/-- A generator gets a message where it waits for one and there is one. -/
theorem read_eq (s : LiveStream κ) (c : κ) :
    (∃ client m rest, s.clients c = some client ∧ client.waiting = true ∧ s.queue = m :: rest ∧
      s.read c = s.got c client m rest) ∨ (Exclusive s (.read c) ∧ s.read c = s) := by
  unfold LiveStream.read
  split
  · rename_i client m rest hc hqueue
    split
    · rename_i hwaiting
      exact Or.inl ⟨client, m, rest, hc, hwaiting, hqueue, rfl⟩
    · rename_i hidle
      refine Or.inr ⟨?_, rfl⟩
      intro client' _ hc' hwaiting
      rw [hc] at hc'
      cases hc'
      exact absurd hwaiting hidle
  · rename_i hnone
    refine Or.inr ⟨?_, rfl⟩
    intro client m hc _ hhead
    obtain ⟨rest, hqueue⟩ := List.head?_eq_some_iff.mp hhead
    exact absurd hqueue (hnone client m rest hc)

/-- What an event can do: notify a message, hand one to a client, or neither. -/
theorem step_cases (s : LiveStream κ) (event : StreamEvent κ) :
    (∃ payload, event = .notify payload ∧ s.step event = s.notify payload) ∨
    (∃ c client m rest, event = .read c ∧ s.clients c = some client ∧ client.waiting = true ∧
      s.queue = m :: rest ∧ s.step event = s.got c client m rest) ∨
    (Exclusive s event ∧
      ∃ c o, s.step event = s.set c o ∧ ∀ client, o = some client → Continues s c client) := by
  cases event with
  | notify payload => exact Or.inl ⟨payload, rfl, rfl⟩
  | connect c =>
      refine Or.inr (Or.inr ⟨trivial, c, _, rfl, ?_⟩)
      intro client hclient
      cases hclient
      exact Or.inl ⟨rfl, rfl⟩
  | disconnect c =>
      refine Or.inr (Or.inr ⟨trivial, c, _, rfl, ?_⟩)
      intro client hclient
      obtain ⟨old, hold, rfl⟩ := Option.map_eq_some_iff.mp hclient
      exact Or.inr ⟨old, hold, nofun, rfl, rfl⟩
  | check c => exact Or.inr (Or.inr ⟨trivial, c, check_eq s c⟩)
  | read c =>
      rcases read_eq s c with ⟨client, m, rest, hc, hwaiting, hqueue, hread⟩ | ⟨hexclusive, hread⟩
      · exact Or.inr (Or.inl ⟨c, client, m, rest, rfl, hc, hwaiting, hqueue, hread⟩)
      · refine Or.inr (Or.inr ⟨hexclusive, c, s.clients c, ?_⟩)
        show s.read c = _ ∧ _
        rw [hread]
        exact set_self s c
  | timeout c => exact Or.inr (Or.inr ⟨trivial, c, timeout_eq s c⟩)
  | cancel c => exact Or.inr (Or.inr ⟨trivial, c, none, rfl, nofun⟩)

theorem EachSees.continues (h : EachSees s) (hpast : Past s)
    (ho : ∀ client, o = some client → Continues s c client) : EachSees (s.set c o) := by
  apply h.set
  intro client hclient hconnected
  rcases ho client hclient with ⟨hsince, hseen⟩ | ⟨old, hold, hstays, hsince, hseen⟩
  · have hpending : s.pending client = [] := by
      unfold LiveStream.pending
      rw [List.filter_eq_nil_iff]
      intro m hm
      have hearly := hpast.queue m hm
      simp only [decide_eq_true_eq]
      omega
    rw [hseen, hpending, hsince, List.drop_length]
    rfl
  · have hbefore := h c old hold (hstays hconnected)
    rw [hseen, hsince, ← hbefore, LiveStream.pending, hsince]
    rfl

theorem Past.continues (h : Past s) (ho : ∀ client, o = some client → Continues s c client) :
    Past (s.set c o) := by
  apply h.set
  intro client hclient
  rcases ho client hclient with ⟨hsince, -⟩ | ⟨old, hold, -, hsince, -⟩
  · exact hsince.le
  · rw [hsince]
    exact h.since c old hold

theorem Past.step (h : Past s) (event : StreamEvent κ) : Past (s.step event) := by
  rcases step_cases s event with ⟨payload, -, hstep⟩ | ⟨c, client, m, rest, -, hc, -, hqueue, hstep⟩ |
    ⟨-, c, o, hstep, ho⟩
  · rw [hstep]
    exact h.notify payload
  · rw [hstep]
    exact h.got hc hqueue
  · rw [hstep]
    exact h.continues ho

/-- An event leaves every client with its messages exactly if no client gets one that another
misses. -/
theorem EachSees.step_iff (h : EachSees s) (hpast : Past s) {event : StreamEvent κ}
    (henabled : s.Enabled event) : EachSees (s.step event) ↔ Exclusive s event := by
  rcases step_cases s event with ⟨payload, rfl, hstep⟩ |
    ⟨c, client, m, rest, rfl, hc, hwaiting, hqueue, hstep⟩ | ⟨hexclusive, c, o, hstep, ho⟩
  · rw [hstep]
    exact iff_of_true (h.notify hpast payload henabled) trivial
  · rw [hstep, h.got_iff hc hqueue]
    constructor
    · intro hothers client' m' hc' _ hhead
      rw [hqueue] at hhead
      cases hhead
      exact hothers
    · intro hexclusive
      exact hexclusive client m hc hwaiting (by rw [hqueue]; rfl)
  · rw [hstep]
    exact iff_of_true (h.continues hpast ho) hexclusive

end Steps

/-! ## Histories -/

section Histories

variable [DecidableEq κ] {s : LiveStream κ}

/-- Every client has its messages throughout a history exactly if no client gets one that another
misses. -/
theorem eachSees_throughout_iff {history : List (StreamEvent κ)} (h : EachSees s) (hpast : Past s)
    (henabled : Throughout LiveStream.step LiveStream.Enabled s history) :
    (∀ before, before <+: history → EachSees (runEvents LiveStream.step s before)) ↔
      Throughout LiveStream.step Exclusive s history := by
  induction history generalizing s with
  | nil =>
      refine iff_of_true ?_ trivial
      intro before hbefore
      rw [List.prefix_nil.mp hbefore]
      exact h
  | cons event history ih =>
      obtain ⟨hfirst, hrest⟩ := henabled
      constructor
      · intro hall
        have hone : EachSees (s.step event) := hall [event] ⟨history, rfl⟩
        refine ⟨(h.step_iff hpast hfirst).mp hone, (ih hone (hpast.step event) hrest).mp ?_⟩
        intro before hbefore
        exact hall (event :: before) (List.cons_prefix_cons.mpr ⟨rfl, hbefore⟩)
      · rintro ⟨hexclusive, hlater⟩ before hbefore
        have hone := (h.step_iff hpast hfirst).mpr hexclusive
        rcases before with _ | ⟨event', before⟩
        · exact h
        · obtain ⟨heq, htail⟩ := List.cons_prefix_cons.mp hbefore
          rw [heq]
          exact (ih hone (hpast.step event) hrest).mpr hlater before htail

end Histories

/-- In every history of a stream with less than 100 messages pending at each notification, every
connected client has always been sent the messages notified since it connected, in order and once
each, up to those that are pending, exactly if no client gets a message that was notified while
another one was connected that still is. -/
theorem eachSees_iff [DecidableEq κ] (history : List (StreamEvent κ))
    (henabled : Throughout LiveStream.step LiveStream.Enabled .empty history) :
    (∀ before, before <+: history → EachSees (runEvents LiveStream.step .empty before)) ↔
      Throughout LiveStream.step Exclusive .empty history :=
  eachSees_throughout_iff nofun ⟨nofun, nofun⟩ henabled

/-! ### Two clients -/

/-- A client gets a message, and another one connects afterwards. -/
def oneByOne : List (StreamEvent Bool) :=
  [.connect false, .check false, .notify (.str "t-1"), .read false, .connect true]

theorem room : 0 < maxsize := by decide

theorem enabled_oneByOne : Throughout LiveStream.step LiveStream.Enabled .empty oneByOne := by
  refine ⟨rfl, trivial, room, trivial, ?_, trivial⟩
  show LiveStream.clients _ true = none
  rfl

theorem eachSees_oneByOne : EachSees (runEvents LiveStream.step .empty oneByOne) := by
  refine (eachSees_iff oneByOne enabled_oneByOne).mpr ?_ _ (List.prefix_refl _)
  refine ⟨trivial, trivial, trivial, ?_, trivial, trivial⟩
  intro client m _ _ _ d other hd hother
  obtain rfl : d = true := by simpa using hd
  cases hother

/-- Two clients are connected, and one of them gets the message. -/
def sideBySide : List (StreamEvent Bool) :=
  [.connect false, .connect true, .check false, .check true, .notify (.str "t-1"), .read false]

theorem missed_by_other : ¬ ∀ history : List (StreamEvent Bool),
    Throughout LiveStream.step LiveStream.Enabled .empty history →
      EachSees (runEvents LiveStream.step .empty history) := by
  intro hclaim
  have hsees := hclaim sideBySide ⟨rfl, rfl, trivial, trivial, room, trivial, trivial⟩
  have hmissed := hsees true _ rfl rfl
  cases hmissed

end FraudDetection.Profile
