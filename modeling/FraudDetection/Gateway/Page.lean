import FraudDetection.Gateway.LiveFeed

/-!
# The page of the live feed

The frontend keeps the last transactions that it has received, and opens a new connection when one
closes. Its list goes on, so what it shows are the texts of all its connections, one after the
other.

While the page has no connection it misses the messages. A new connection begins with the message
whose broadcast is in progress, which the one before can have received already: `due` collects what
is sent for the page in this way, and `received_sublist` compares it with what has arrived.
-/

namespace FraudDetection.Gateway

open Async Store

variable {κ : Type} [DecidableEq κ]

/-! ## The list -/

/-- `ws.onmessage`: a text that is no JSON is dropped, and the page keeps 15 transactions. -/
def onmessage {Tx : Type} (parse : String → Option Tx) (prev : List Tx) (data : String) : List Tx :=
  match parse data with
  | some newTx => recent 15 prev newTx
  | none => prev

/-- The transactions on the page after these texts. -/
def transactions {Tx : Type} (parse : String → Option Tx) (texts : List String) : List Tx :=
  texts.foldl (onmessage parse) []

theorem transactions_eq {Tx : Type} (parse : String → Option Tx) (texts : List String) :
    transactions parse texts = (texts.filterMap parse).reverse.take 15 := by
  have hlatest := @foldl_recent Tx 15 (texts.filterMap parse) []
  rw [List.take_nil, List.append_nil, List.foldl_filterMap] at hlatest
  exact hlatest

/-! ## The connections -/

/-- The gateway, the connection of a page, if it has one, and the texts that the page has received
on this one and those before. -/
structure Viewer (κ : Type) where
  live : LiveFeed κ
  connection : Option κ
  received : List String

/-- Something happens in the gateway, which has other pages as well; the page opens a connection; or
its connection closes. -/
inductive ViewerEvent (κ : Type) where
  | gateway (event : LiveEvent κ)
  | opened (websocket : κ)
  | closed

/-- The message that an event yields. -/
def ViewerEvent.yields : ViewerEvent κ → List String
  | .gateway event => event.yields
  | _ => []

/-- The text that an event sends to a connection. -/
def LiveFeed.sends (s : LiveFeed κ) (c : κ) : LiveEvent κ → List String
  | .sent =>
      match s.feed.broadcast with
      | none => []
      | some b => if b.connection = c then [b.message] else []
  | _ => []

/-- The text that arrives on the page. -/
def Viewer.arrives (v : Viewer κ) (event : LiveEvent κ) : List String :=
  match v.connection with
  | none => []
  | some c => v.live.sends c event

/-- The page and the gateway after an event. The list of the page outlives the connection. -/
def Viewer.step (v : Viewer κ) : ViewerEvent κ → Viewer κ
  | .gateway event =>
      { v with live := v.live.step event, received := v.received ++ v.arrives event }
  | .opened websocket =>
      { v with live := v.live.step (.connect websocket), connection := some websocket }
  | .closed => { v with connection := none }

/-- `onclose` comes before the next connection is opened. -/
def Viewer.Enabled (v : Viewer κ) : ViewerEvent κ → Prop
  | .gateway event => v.live.Enabled event
  | .opened websocket => v.connection = none ∧ v.live.Enabled (.connect websocket)
  | .closed => v.connection ≠ none

/-- A page before its first connection. -/
def newViewer : Viewer κ := ⟨idleGateway, none, []⟩

/-- The message whose broadcast is in progress. -/
def Feed.inProgress (s : Feed κ) : List String :=
  match s.broadcast with
  | none => []
  | some b => [b.message]

/-- What an event makes due to the page: a message that is yielded while it has a connection, and
the one in progress when it opens one. -/
def Viewer.due (v : Viewer κ) : ViewerEvent κ → List String
  | .gateway event => if v.connection = none then [] else event.yields
  | .opened _ => v.live.feed.inProgress
  | .closed => []

/-- The message that is on its way to the page. -/
def Viewer.owed (v : Viewer κ) : List String :=
  match v.connection with
  | none => []
  | some c => v.live.feed.owed c

/-- What every step keeps: the gateway is in order, and has accepted the connection of the page. -/
structure Viewer.Sound (v : Viewer κ) : Prop where
  ordered : v.live.Ordered
  accepted : ∀ c, v.connection = some c → c ∈ v.live.accepted
  yielded : ∀ text ∈ v.received, text ∈ v.live.yielded

section Steps

variable {s : LiveFeed κ} {c : κ} {event : LiveEvent κ} {v : Viewer κ}

theorem accepted_step (h : c ∈ s.accepted) : c ∈ (s.step event).accepted := by
  cases event with
  | connect d => exact List.mem_cons_of_mem d h
  | stopped =>
    simp only [LiveFeed.step]
    split <;> exact h
  | _ => exact h

theorem yielded_step (s : LiveFeed κ) (event : LiveEvent κ) :
    (s.step event).yielded = s.yielded ++ event.yields := by
  cases event with
  | message value => rfl
  | stopped =>
    simp only [LiveFeed.step, LiveEvent.yields, List.append_nil]
    split <;> rfl
  | _ => exact (List.append_nil _).symm

theorem yielded_viewerStep (v : Viewer κ) (event : ViewerEvent κ) :
    (v.step event).live.yielded = v.live.yielded ++ event.yields := by
  cases event with
  | gateway event => exact yielded_step v.live event
  | opened c => exact (List.append_nil _).symm
  | closed => exact (List.append_nil _).symm

/-- What is sent has been yielded. -/
theorem sends_subset (h : s.Ordered) : ∀ text ∈ s.sends c event, text ∈ s.yielded := by
  cases event with
  | sent =>
    unfold LiveFeed.sends
    cases hb : s.feed.broadcast with
    | none => exact nofun
    | some b =>
      dsimp only
      split
      · intro text htext
        rw [List.mem_singleton.mp htext]
        exact (h.turn b hb).2.2
      · exact nofun
  | _ => exact nofun

theorem sound_newViewer : (newViewer : Viewer κ).Sound :=
  ⟨ordered_idleGateway, nofun, nofun⟩

theorem sound_viewerStep {event : ViewerEvent κ} (h : v.Sound) (hok : v.Enabled event) :
    (v.step event).Sound := by
  cases event with
  | gateway event =>
    refine ⟨ordered_step h.ordered hok, fun c hc => accepted_step (h.accepted c hc), ?_⟩
    intro text htext
    show text ∈ (v.live.step event).yielded
    rw [yielded_step]
    apply List.mem_append_left
    rcases List.mem_append.mp htext with htext | htext
    · exact h.yielded text htext
    · unfold Viewer.arrives at htext
      split at htext
      · cases htext
      · exact sends_subset h.ordered text htext
  | opened c =>
    refine ⟨ordered_step h.ordered hok.2, ?_, h.yielded⟩
    rintro d ⟨⟩
    exact List.mem_cons_self
  | closed => exact ⟨h.ordered, nofun, h.yielded⟩

end Steps

end FraudDetection.Gateway
