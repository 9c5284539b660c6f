import FraudDetection.Async.Pool
import FraudDetection.Notifications.Settles

/-!
# Redelivered notifications

A message whose processing fails is delivered again. By then the marker may have been set, and the
redelivery stops there.

`attempted_notifyAll` says which channels the loop has attempted where it is cut short, and
`cutShort_marked` that nothing happens behind a marker.
-/

namespace FraudDetection.Notifications

open Async Python Store

/-! ## Channels that have been attempted -/

/-- A notification of a notice on a channel is settled: it was sent or has failed. -/
def Attempted (n : Notice) (t : Server) (ch : Channel) : Prop :=
  ∃ row ∈ t.notifications.rows, row.recipientId = n.recipientId ∧ row.alertId = n.alertId ∧
    row.channel = ch ∧ row.status ≠ .pending

/-- The settlement of a send that fares in this way, unless its exception ends the loop. -/
def Call.settlementOf (c : Call) (ch : Channel) (send : Delivery Exn) : Option Settlement :=
  match (send.outcome (c.outcome ch, ()) ()).1 with
  | .ok success => some (.ofSuccess (c.utcnow ch) success)
  | .error e => if e.isException then some (.ofException e) else none

/-- The settlement of a send, unless its exception ends the loop or the database refuses it. -/
def Call.takenSettlement (db : Database) (c : Call) (ch : Channel) (send : Delivery Exn) :
    Option Settlement :=
  (c.settlementOf ch send).filter fun settlement => (db.settle settlement).isNone

/-- The channels whose second commit takes effect in the loop, where its operations fare as the list
says and the process dies where the list ends. -/
def Call.settledIn (db : Database) (c : Call) : List Channel → List (Delivery Exn) → List Channel
  | ch :: channels, .answered :: .answered :: send :: settle :: ds =>
      if (c.takenSettlement db ch send).isSome then
        match settle with
        | .answered => ch :: c.settledIn db channels ds
        | .unanswered _ => [ch]
        | .lost _ => []
      else []
  | _, _ => []

/-- The `SET` of a call takes effect. -/
def marks : List (Delivery Exn) → Bool
  | .answered :: .answered :: _ => true
  | .answered :: .unanswered _ :: _ => true
  | _ => false

/-- The channels whose second commit takes effect in a call. -/
def Call.settled (db : Database) (c : Call) : List (Delivery Exn) → List Channel
  | .answered :: .answered :: ds => c.settledIn db c.notice.channels ds
  | _ => []

/-! ## Operations that may fail -/

section Operations

variable {py : PyLib} {self : NotificationDispatcher} {db : Database}
  {c : Call} {t : Server} {d : Delivery Exn} {ds : List (Delivery Exn)} {α : Type}

/-- The server with a pending notification of a channel. -/
def Server.inserted (t : Server) (new : NewNotification) : Server :=
  { t with notifications := t.notifications.insert new }

/-- The server with the notification of an id settled. -/
def Server.settled (t : Server) (id : ℕ) (settlement : Settlement) : Server :=
  { t with
    notifications := t.notifications.settle id settlement
    attempts := t.attempts ++ [settlement.row id] }

theorem script_insert {new : NewNotification} (haccepted : db.insert new = none)
    (g : ℕ → Prog Ret Exn α) :
    Pool.script (Server.perform db c) (Prog.await (Op.insert new) >>= g) (d :: ds) t =
      match d with
      | .answered =>
          Pool.script (Server.perform db c) (g t.notifications.drawn) ds (t.inserted new)
      | .unanswered _ => t.inserted new
      | .lost _ => t := by
  have hperform : t.perform db c (.insert new) = (.ok t.notifications.drawn, t.inserted new) := by
    simp only [Server.perform, haccepted]
    rfl
  rw [Pool.script_await_seq, hperform]
  cases d <;> rfl

theorem script_refresh {id : ℕ} (hid : t.notifications.has id = true)
    (g : Unit → Prog Ret Exn α) :
    Pool.script (Server.perform db c) (Prog.await (Op.refresh id) >>= g) (d :: ds) t =
      match d with
      | .answered => Pool.script (Server.perform db c) (g ()) ds t
      | .unanswered _ => t
      | .lost _ => t := by
  have hperform : t.perform db c (.refresh id) = (.ok (), t) := by
    simp only [Server.perform, hid, if_true]
  rw [Pool.script_await_seq, hperform]
  cases d <;> rfl

theorem script_settle {id : ℕ} {settlement : Settlement} (hid : t.notifications.has id = true)
    (htaken : db.settle settlement = none) (g : Unit → Prog Ret Exn α) :
    Pool.script (Server.perform db c) (Prog.await (Op.settle id settlement) >>= g) (d :: ds) t =
      match d with
      | .answered => Pool.script (Server.perform db c) (g ()) ds (t.settled id settlement)
      | .unanswered _ => t.settled id settlement
      | .lost _ => t := by
  have hperform : t.perform db c (.settle id settlement) = (.ok (), t.settled id settlement) := by
    simp only [Server.perform, hid, if_true, htaken]
    rfl
  rw [Pool.script_await_seq, hperform]
  cases d <;> rfl

/-- A refused second commit ends the call, however it fares. -/
theorem script_settle_refused {id : ℕ} {settlement : Settlement} {x : Exn}
    (hid : t.notifications.has id = true) (hrefused : db.settle settlement = some x)
    (g : Unit → Prog Ret Exn α) :
    Pool.script (Server.perform db c) (Prog.await (Op.settle id settlement) >>= g) (d :: ds) t = t := by
  have hperform : t.perform db c (.settle id settlement) = (.error x, t) := by
    simp only [Server.perform, hid, if_true, hrefused]
  rw [Pool.script_await_seq, hperform]
  cases d <;> rfl

/-- A send goes on to the second commit where its exception, if any, is caught. -/
theorem script_trySend (n : Notice) (ch : Channel) (g : Settlement → Prog Ret Exn α) :
    Pool.script (Server.perform db c)
        (NotificationDispatcher.trySend py self n c.utcnow ch >>= g) (d :: ds) t =
      match c.settlementOf ch d with
      | some settlement => Pool.script (Server.perform db c) (g settlement) ds t
      | none => t := by
  have hreply : d.outcome (t.perform db c (.send (NotificationDispatcher.message py self n ch))) t
      = ((d.outcome (c.outcome ch, ()) ()).1, t) := by
    simp only [Server.perform, NotificationDispatcher.channel_message]
    cases d <;> rfl
  unfold NotificationDispatcher.trySend Call.settlementOf
  show Pool.script _ (Prog.bind (Prog.tryExcept _ _ _) g) ds _ = _
  rw [hreply]
  cases (d.outcome (c.outcome ch, ()) ()).1 with
  | ok success => rfl
  | error e =>
      show Pool.script _ (Prog.bind (ite _ _ _) g) ds _ = _
      by_cases he : e.isException = true
      · rw [if_pos he]
        simp only [he, if_true]
        rfl
      · rw [if_neg he]
        simp only [he]
        exact Pool.script_raise

end Operations

/-! ## The loop cut short -/

section Loop

variable {py : PyLib} {self : NotificationDispatcher} {db : Database}
  {c : Call} {t : Server} {ch ch' : Channel} {settlement : Settlement}

/-- A pending notification is not an attempted one. -/
theorem attempted_inserted {n : Notice} {new : NewNotification} :
    Attempted n (t.inserted new) ch ↔ Attempted n t ch := by
  unfold Attempted Server.inserted
  rw [NotificationTable.rows_insert]
  constructor
  · rintro ⟨row, hrow, hrecipient, halert, hch, hstatus⟩
    rcases List.mem_append.mp hrow with hold | hnew
    · exact ⟨row, hold, hrecipient, halert, hch, hstatus⟩
    · rw [List.mem_singleton.mp hnew] at hstatus
      exact absurd rfl hstatus
  · rintro ⟨row, hrow, hfits⟩
    exact ⟨row, List.mem_append_left _ hrow, hfits⟩

/-- The second commit of a channel makes its notification an attempted one. -/
theorem attempted_settled (hsettled : settlement.status ≠ .pending) :
    Attempted c.notice ((t.inserted (NotificationDispatcher.newNotification py c.notice ch)).settled
        t.notifications.drawn settlement) ch' ↔ Attempted c.notice t ch' ∨ ch' = ch := by
  unfold Attempted Server.settled Server.inserted
  rw [NotificationTable.rows_settle_insert]
  constructor
  · rintro ⟨row, hrow, hrecipient, halert, hch, hstatus⟩
    rcases List.mem_append.mp hrow with hold | hnew
    · exact Or.inl ⟨row, hold, hrecipient, halert, hch, hstatus⟩
    · right
      rw [← hch, List.mem_singleton.mp hnew]
      rfl
  · rintro (⟨row, hrow, hfits⟩ | rfl)
    · exact ⟨row, List.mem_append_left _ hrow, hfits⟩
    · exact ⟨_, List.mem_append_right _ (List.mem_singleton_self _), rfl, rfl, rfl, hsettled⟩

/-- What is recorded after a send is not `PENDING`. -/
theorem Call.status_settlementOf {send : Delivery Exn}
    (h : c.settlementOf ch send = some settlement) : settlement.status ≠ .pending := by
  unfold settlementOf at h
  split at h
  · rename_i success _
    cases success
    · cases h
      nofun
    · cases h
      nofun
  · split at h
    · cases h
      nofun
    · cases h

/-- From the send of a channel on: it is attempted if its second commit takes effect, and then what
`rest` attempts. -/
theorem attempted_send {channels : List Channel} {rest : Prog Ret Exn Unit}
    (hrest : ∀ t ds, Attempted c.notice (Pool.script (Server.perform db c) rest ds t) ch' ↔
      Attempted c.notice t ch' ∨ ch' ∈ c.settledIn db channels ds)
    (send : Delivery Exn) (ds : List (Delivery Exn)) :
    Attempted c.notice (Pool.script (Server.perform db c)
        (NotificationDispatcher.trySend py self c.notice c.utcnow ch >>= fun settlement =>
          Prog.await (Op.settle t.notifications.drawn settlement) >>= fun _ => rest) (send :: ds)
        (t.inserted (NotificationDispatcher.newNotification py c.notice ch))) ch' ↔
      Attempted c.notice t ch' ∨
        ch' ∈ c.settledIn db (ch :: channels) (.answered :: .answered :: send :: ds) := by
  have hhas : (t.inserted (NotificationDispatcher.newNotification py c.notice ch)).notifications.has
      t.notifications.drawn = true := NotificationTable.has_insert ..
  rw [script_trySend]
  cases hsettlement : c.settlementOf ch send with
  -- the send raises what is no `Exception`, and the call ends there
  | none =>
      rcases ds with _ | ⟨settle, ds⟩
      · simp [Call.settledIn, attempted_inserted]
      · simp [Call.settledIn, Call.takenSettlement, attempted_inserted, hsettlement]
  | some settlement =>
      have hsettled := Call.status_settlementOf hsettlement
      dsimp only
      rcases ds with _ | ⟨settle, ds⟩
      · rw [Pool.script_nil, attempted_inserted]
        simp [Call.settledIn]
      -- the second commit: refused, lost, unanswered, or answered, after which the loop goes on
      cases hdb : db.settle settlement with
      | some x =>
        rw [script_settle_refused hhas hdb, attempted_inserted]
        simp [Call.settledIn, Call.takenSettlement, hsettlement, hdb]
      | none =>
        have htaken : (c.takenSettlement db ch send).isSome = true := by
          simp [Call.takenSettlement, hsettlement, hdb]
        rw [script_settle hhas hdb]
        cases settle with
        | lost e => simp [Call.settledIn, attempted_inserted, htaken]
        | unanswered e => simp [Call.settledIn, attempted_settled hsettled, htaken]
        | answered =>
          dsimp only
          rw [hrest, attempted_settled hsettled, or_assoc]
          simp [Call.settledIn, htaken]

/-- Where the loop is cut short, the channels are attempted whose second commit took effect. -/
theorem attempted_notifyAll {channels : List Channel}
    (haccepted : ∀ ch ∈ channels,
      db.insert (NotificationDispatcher.newNotification py c.notice ch) = none)
    (ds : List (Delivery Exn)) :
    Attempted c.notice (Pool.script (Server.perform db c)
        (NotificationDispatcher.notifyAll py self c.notice c.utcnow channels) ds t) ch' ↔
      Attempted c.notice t ch' ∨ ch' ∈ c.settledIn db channels ds := by
  induction channels generalizing t ds with
  | nil =>
      rw [NotificationDispatcher.notifyAll, Pool.script_pure]
      simp [Call.settledIn]
  | cons ch channels ih =>
      have hinsert := haccepted ch List.mem_cons_self
      have hrest := fun t ds => @ih t (fun ch' hch' => haccepted ch' (List.mem_cons_of_mem ch hch')) ds
      unfold NotificationDispatcher.notifyAll NotificationDispatcher.notify
      simp only [bind_assoc]
      -- before the send no operation makes a channel an attempted one
      rcases ds with _ | ⟨insert, ds⟩
      · rw [Pool.script_nil]
        simp [Call.settledIn]
      rw [script_insert hinsert]
      cases insert with
      | lost e => simp [Call.settledIn]
      | unanswered e => simp [Call.settledIn, attempted_inserted]
      | answered =>
        rcases ds with _ | ⟨refresh, ds⟩
        · rw [Pool.script_nil, attempted_inserted]
          simp [Call.settledIn]
        dsimp only
        rw [script_refresh (NotificationTable.has_insert ..)]
        cases refresh with
        | lost e => simp [Call.settledIn, attempted_inserted]
        | unanswered e => simp [Call.settledIn, attempted_inserted]
        | answered =>
          rcases ds with _ | ⟨send, ds⟩
          · rw [Pool.script_nil, attempted_inserted]
            simp [Call.settledIn]
          exact attempted_send hrest send ds

end Loop

/-! ## A call cut short -/

section CutShort

variable {py : PyLib} {self : NotificationDispatcher} {db : Database}
  {c : Call} {t : Server} {ch : Channel} {d : Delivery Exn} {ds : List (Delivery Exn)}

/-- The server after a call whose operations fare as the list says; the process dies where the list
ends. -/
def Call.cutShort (py : PyLib) (self : NotificationDispatcher) (db : Database) (c : Call)
    (ds : List (Delivery Exn)) (t : Server) : Server :=
  Pool.script (Server.perform db c) (c.program py self) ds t

theorem marked_iff {now : ℚ} {key : String} :
    t.Marked now key ↔ ((t.redis.find? now key).map Entry.value).getD "" ≠ "" := by
  unfold Server.Marked
  cases t.redis.find? now key with
  | none => simp
  | some e => simp

/-- A call whose check fails, or is not carried out, leaves the server as it is. -/
theorem cutShort_unchecked (h : ∀ ds', ds ≠ .answered :: ds') :
    c.cutShort py self db ds t = t := by
  unfold Call.cutShort Call.program
  rw [NotificationDispatcher.dispatch_dict]
  rcases ds with _ | ⟨d, ds⟩
  · exact Pool.script_nil
  · rw [Pool.script_await_seq]
    cases d with
    | answered => exact absurd rfl (h ds)
    | unanswered e => rfl
    | lost e => rfl

/-- What a call does behind its check is decided by the marker. -/
theorem cutShort_checked :
    c.cutShort py self db (.answered :: ds) t =
      Pool.script (Server.perform db c)
        (if ((t.redis.find? c.getAt (c.notice.key py)).map Entry.value).getD "" ≠ "" then
          pure false
        else self.proceed py c.notice c.utcnow) ds t := by
  unfold Call.cutShort Call.program
  rw [NotificationDispatcher.dispatch_dict, Pool.script_await_seq]
  rfl

theorem cutShort_unmarked (h : ¬ t.Marked c.getAt (c.notice.key py)) :
    c.cutShort py self db (.answered :: ds) t =
      Pool.script (Server.perform db c) (self.proceed py c.notice c.utcnow) ds t := by
  rw [cutShort_checked, if_neg fun hfound => h (marked_iff.mpr hfound)]

/-- A call that finds the marker leaves the server as it is. -/
theorem cutShort_marked (h : t.Marked c.getAt (c.notice.key py)) :
    c.cutShort py self db ds t = t := by
  by_cases hds : ∃ ds', ds = .answered :: ds'
  · obtain ⟨ds, rfl⟩ := hds
    rw [cutShort_checked, if_pos (marked_iff.mp h)]
    exact Pool.script_pure
  · exact cutShort_unchecked (not_exists.mp hds)

/-- So does a call whose `SET` does not take effect. -/
theorem cutShort_of_not_marks (h : marks ds = false) : c.cutShort py self db ds t = t := by
  by_cases hds : ∃ ds', ds = .answered :: ds'
  · obtain ⟨ds, rfl⟩ := hds
    by_cases hmarked : t.Marked c.getAt (c.notice.key py)
    · exact cutShort_marked hmarked
    · rw [cutShort_unmarked hmarked]
      unfold NotificationDispatcher.proceed
      rcases ds with _ | ⟨d, ds⟩
      · exact Pool.script_nil
      · rw [Pool.script_await_seq]
        cases d with
        | answered => cases h
        | unanswered e => cases h
        | lost e => rfl
  · exact cutShort_unchecked (not_exists.mp hds)

theorem redis_script {α : Type} {p : Prog Ret Exn α} (hp : p.Asks fun op => op.redisKey = none)
    (ds : List (Delivery Exn)) : (Pool.script (Server.perform db c) p ds t).redis = t.redis := by
  have hframe : ∀ (op : Op) (t : Server), op.redisKey = none →
      (t.perform db c op).2.redis = t.redis := fun _ _ hop => Server.redis_perform hop
  exact Pool.script_of_asks Server.redis hframe hp ds t

/-- The `SET` of a call, and what follows it. -/
theorem cutShort_set (hunmarked : ¬ t.Marked c.getAt (c.notice.key py)) (set : Delivery Exn) :
    c.cutShort py self db (.answered :: set :: ds) t =
      match set with
      | .answered => Pool.script (Server.perform db c)
          (NotificationDispatcher.notifyAll py self c.notice c.utcnow c.notice.channels) ds
          (t.mark c.setAt (c.notice.key py))
      | .unanswered _ => t.mark c.setAt (c.notice.key py)
      | .lost _ => t := by
  rw [cutShort_unmarked hunmarked]
  unfold NotificationDispatcher.proceed
  rw [Pool.script_await_seq, Server.perform_set]
  cases set with
  | answered => exact Pool.script_bind_pure _ _ ds _
  | unanswered e => rfl
  | lost e => rfl

theorem exists_set (h : marks ds = true) :
    ∃ set rest, ds = .answered :: set :: rest ∧ ∀ e, set ≠ .lost e := by
  unfold marks at h
  split at h
  · exact ⟨_, _, rfl, nofun⟩
  · exact ⟨_, _, rfl, nofun⟩
  · cases h

/-- Where the `SET` takes effect, the marker is visible for 24 hours. -/
theorem marked_cutShort (h : marks ds = true) (hunmarked : ¬ t.Marked c.getAt (c.notice.key py))
    {now : ℚ} (hday : now ≤ c.setAt + 86400) :
    (c.cutShort py self db ds t).Marked now (c.notice.key py) := by
  obtain ⟨set, rest, rfl, hset⟩ := exists_set h
  have hmarked : (t.mark c.setAt (c.notice.key py)).Marked now (c.notice.key py) :=
    Server.marked_mark.mpr hday
  rw [cutShort_set hunmarked]
  cases set with
  | lost e => exact absurd rfl (hset e)
  | unanswered e => exact hmarked
  -- nothing after the `SET` touches Redis
  | answered =>
      unfold Server.Marked at hmarked ⊢
      rw [redis_script (asks_notifyAll py self c.notice c.utcnow c.notice.channels)]
      exact hmarked

/-- And the channels are attempted whose second commit took effect. -/
theorem attempted_cutShort (h : marks ds = true)
    (haccepted : ∀ ch ∈ c.notice.channels,
      db.insert (NotificationDispatcher.newNotification py c.notice ch) = none)
    (hunmarked : ¬ t.Marked c.getAt (c.notice.key py)) :
    Attempted c.notice (c.cutShort py self db ds t) ch ↔
      Attempted c.notice t ch ∨ ch ∈ c.settled db ds := by
  obtain ⟨set, rest, rfl, hset⟩ := exists_set h
  rw [cutShort_set hunmarked]
  cases set with
  | lost e => exact absurd rfl (hset e)
  | unanswered e => simp [Call.settled, Attempted, Server.mark]
  | answered => exact attempted_notifyAll haccepted rest

end CutShort

/-! ## Deliveries of a message -/

/-- A delivery of a message that may be cut short: its call, and how the operations fare. -/
structure Attempt where
  call : Call
  fares : List (Delivery Exn)

/-- The first delivery whose `SET` takes effect. -/
def firstMarking (attempts : List Attempt) : Option Attempt := attempts.find? fun a => marks a.fares

/-- The server after some deliveries. -/
def afterAttempts (py : PyLib) (self : NotificationDispatcher) (db : Database)
    (attempts : List Attempt) (t : Server) : Server :=
  attempts.foldl (fun t a => a.call.cutShort py self db a.fares t) t

section Recovery

variable {py : PyLib} {self : NotificationDispatcher} {db : Database}
  {last : Call} {t : Server} {ch : Channel} {attempts : List Attempt}

/-- The deliveries are those of the message of a call. -/
def Redelivers (last : Call) (attempts : List Attempt) : Prop :=
  ∀ a ∈ attempts, a.call.payload = last.payload

/-- Deliveries behind the marker leave the server as it is. -/
theorem afterAttempts_marked (h : ∀ a ∈ attempts, t.Marked a.call.getAt (a.call.notice.key py)) :
    afterAttempts py self db attempts t = t := by
  induction attempts with
  | nil => rfl
  | cons a attempts ih =>
      obtain ⟨ha, hrest⟩ := List.forall_mem_cons.mp h
      show afterAttempts py self db attempts (a.call.cutShort py self db a.fares t) = t
      rw [cutShort_marked ha]
      exact ih hrest

/-- A call that meets no failure attempts every channel. -/
theorem attempted_run (hcaught : last.Caught) (haccepted : last.Accepted py db)
    (hunmarked : ¬ t.Marked last.getAt (last.notice.key py)) (hch : ch ∈ last.notice.channels) :
    Attempted last.notice (last.run py self db t).final ch := by
  obtain ⟨-, -, hrows, -⟩ := run_settles self hunmarked hcaught haccepted
  obtain ⟨id, hid⟩ := last.exists_record py t.notifications.drawn hch
  have hrecorded := last.recorded_record py id ch
  refine ⟨(last.record py id ch).1, ?_, hrecorded.recipientId, hrecorded.alertId, rfl, ?_⟩
  · rw [hrows]
    exact List.mem_append_right _ (List.mem_map_of_mem hid)
  · by_cases hsent : last.outcome ch = .ok true
    · rw [(hrecorded.sent hsent).1]
      nofun
    · rw [(hrecorded.failed hsent).1]
      nofun

variable (self) in
/-- The deliveries after one whose `SET` takes effect stop at the marker, and so does the last. -/
theorem afterAttempts_of_marks {a : Attempt} (hmarks : marks a.fares = true)
    (hnotice : a.call.notice = last.notice) (hrest : Redelivers last attempts)
    (hunmarked : ¬ t.Marked a.call.getAt (a.call.notice.key py))
    (hday : ∀ c ∈ last :: attempts.map Attempt.call, c.getAt ≤ a.call.setAt + 86400) :
    afterAttempts py self db (a :: attempts) t = a.call.cutShort py self db a.fares t ∧
      (a.call.cutShort py self db a.fares t).Marked last.getAt (last.notice.key py) := by
  have hmarked : ∀ c ∈ last :: attempts.map Attempt.call,
      (a.call.cutShort py self db a.fares t).Marked c.getAt (last.notice.key py) := by
    intro c hc
    rw [← hnotice]
    exact marked_cutShort hmarks hunmarked (hday c hc)
  refine ⟨?_, hmarked last List.mem_cons_self⟩
  show afterAttempts py self db attempts (a.call.cutShort py self db a.fares t) = _
  apply afterAttempts_marked
  intro b hb
  have hb' : b.call.notice = last.notice := congrArg Notice.ofFields (hrest b hb)
  rw [hb']
  exact hmarked b.call (List.mem_cons_of_mem _ (List.mem_map_of_mem hb))

variable (self) in
/-- What the last of some deliveries leaves, channel by channel. -/
theorem attempted_final_iff (hredelivers : Redelivers last attempts) (hcaught : last.Caught)
    (haccepted : last.Accepted py db)
    (hunmarked : ∀ c ∈ last :: attempts.map Attempt.call, ¬ t.Marked c.getAt (last.notice.key py))
    (hday : ∀ a ∈ attempts, ∀ c ∈ last :: attempts.map Attempt.call,
      c.getAt ≤ a.call.setAt + 86400) :
    let x := last.run py self db (afterAttempts py self db attempts t)
    (∃ b, x.result = .ok b) ∧
      ∀ ch ∈ last.notice.channels, Attempted last.notice x.final ch ↔
        ∀ a, firstMarking attempts = some a →
          Attempted last.notice t ch ∨ ch ∈ a.call.settled db a.fares := by
  induction attempts with
  | nil =>
      have hlast := hunmarked last List.mem_cons_self
      refine ⟨⟨true, (run_settles self hlast hcaught haccepted).1⟩, ?_⟩
      intro ch hch
      exact iff_of_true (attempted_run hcaught haccepted hlast hch) nofun
  | cons a attempts ih =>
      obtain ⟨hpayload, hrest⟩ := List.forall_mem_cons.mp hredelivers
      have hnotice : a.call.notice = last.notice := congrArg Notice.ofFields hpayload
      have hsub : ∀ c ∈ last :: attempts.map Attempt.call,
          c ∈ last :: (a :: attempts).map Attempt.call := by
        intro c hc
        rcases List.mem_cons.mp hc with rfl | hc
        · exact List.mem_cons_self
        · exact List.mem_cons_of_mem _ (List.mem_cons_of_mem _ hc)
      by_cases hmarks : marks a.fares = true
      · -- the marker stays, and the deliveries that follow stop there
        have hinsert : ∀ ch ∈ a.call.notice.channels,
            db.insert (NotificationDispatcher.newNotification py a.call.notice ch) = none := by
          rw [hnotice]
          exact haccepted.insert
        have hunmarked' : ¬ t.Marked a.call.getAt (a.call.notice.key py) := by
          rw [hnotice]
          exact hunmarked a.call (List.mem_cons_of_mem _ List.mem_cons_self)
        obtain ⟨hstays, hlast⟩ := afterAttempts_of_marks self hmarks hnotice hrest hunmarked'
          fun c hc => hday a List.mem_cons_self c (hsub c hc)
        have hfirst : firstMarking (a :: attempts) = some a := List.find?_cons_of_pos hmarks
        rw [hstays]
        refine ⟨⟨false, (run_marked hlast).1⟩, ?_⟩
        intro ch _
        rw [(run_marked hlast).2, hfirst, ← hnotice,
          attempted_cutShort hmarks hinsert hunmarked']
        simp
      · -- nothing has happened
        have hfirst : firstMarking (a :: attempts) = firstMarking attempts :=
          List.find?_cons_of_neg hmarks
        have hafter : afterAttempts py self db (a :: attempts) t
            = afterAttempts py self db attempts (a.call.cutShort py self db a.fares t) := rfl
        rw [hafter, cutShort_of_not_marks (eq_false_of_ne_true hmarks), hfirst]
        exact ih hrest (fun c hc => hunmarked c (hsub c hc))
          fun b hb c hc => hday b (List.mem_cons_of_mem _ hb) c (hsub c hc)

end Recovery

/-- A message is delivered any number of times within 24 hours, the last time without a failure,
where no marker is set to begin with. The last call returns; and every required channel has been
attempted then, if and only if each had been attempted to begin with or in the first delivery whose
`SET` took effect, if there was one. -/
theorem attempted_after_redelivery_iff (py : PyLib) (self : NotificationDispatcher) (db : Database)
    (attempts : List Attempt) (last : Call) (t : Server) (hredelivers : Redelivers last attempts)
    (hcaught : last.Caught) (haccepted : last.Accepted py db)
    (hunmarked : ∀ c ∈ last :: attempts.map Attempt.call, ¬ t.Marked c.getAt (last.notice.key py))
    (hday : ∀ a ∈ attempts, ∀ c ∈ last :: attempts.map Attempt.call,
      c.getAt ≤ a.call.setAt + 86400) :
    let x := last.run py self db (afterAttempts py self db attempts t)
    (∃ b, x.result = .ok b) ∧
      ((∀ ch ∈ last.notice.channels, Attempted last.notice x.final ch) ↔
        ∀ a, firstMarking attempts = some a →
          ∀ ch ∈ last.notice.channels,
            Attempted last.notice t ch ∨ ch ∈ a.call.settled db a.fares) := by
  intro x
  obtain ⟨hreturns, hfinal⟩ := attempted_final_iff self hredelivers hcaught haccepted hunmarked hday
  refine ⟨hreturns, ?_⟩
  constructor
  · intro h a ha ch hch
    exact (hfinal ch hch).mp (h ch hch) a ha
  · intro h ch hch
    rw [hfinal ch hch]
    intro a ha
    exact h a ha ch hch

/-! ### Samples -/

/-- The critical alert, delivered again after a minute. -/
def criticalAgain : Call := { criticalCall with getAt := 60, setAt := 60 }

/-- The deliveries of the alert, the first of which is cut short. -/
theorem within_day (ds : List (Delivery Exn)) : ∀ a ∈ [Attempt.mk criticalCall ds],
    ∀ c ∈ criticalAgain :: [Attempt.mk criticalCall ds].map Attempt.call,
      c.getAt ≤ a.call.setAt + 86400 := by
  have hfirst : (0 : ℚ) ≤ 0 + 86400 := by decide +kernel
  have hagain : (60 : ℚ) ≤ 0 + 86400 := by decide +kernel
  simp only [List.map_cons, List.map_nil, List.forall_mem_cons, List.not_mem_nil, false_implies,
    implies_true, and_true]
  exact ⟨hagain, hfirst⟩

theorem redelivers_critical (ds : List (Delivery Exn)) :
    Redelivers criticalAgain [⟨criticalCall, ds⟩] := by
  intro a ha
  rw [List.mem_singleton.mp ha]
  rfl

theorem accepted_criticalAgain : criticalAgain.Accepted CompactJson.compactJson strictDatabase where
  insert := (texts_criticalCall.accepted takesTexts_strictDatabase).insert
  settle := (texts_criticalCall.accepted takesTexts_strictDatabase).settle

/-- Where the process dies before the marker is set, the redelivery attempts every channel. -/
theorem attempted_after_redelivery_criticalCall :
    let x := criticalAgain.run CompactJson.compactJson defaultDispatcher strictDatabase
      (afterAttempts CompactJson.compactJson defaultDispatcher strictDatabase
        [⟨criticalCall, [.answered]⟩] .empty)
    (∃ b, x.result = .ok b) ∧
      ∀ ch ∈ criticalAgain.notice.channels, Attempted criticalAgain.notice x.final ch := by
  obtain ⟨hreturns, hattempted⟩ := attempted_after_redelivery_iff CompactJson.compactJson
    defaultDispatcher strictDatabase [⟨criticalCall, [.answered]⟩] criticalAgain .empty
    (redelivers_critical _) (fun ch x h => caught_criticalCall ch x h) accepted_criticalAgain
    (fun _ _ => not_marked_empty _ _) (within_day _)
  exact ⟨hreturns, hattempted.mpr nofun⟩

/-- Where it dies right after, the redelivery finds the marker and no channel is ever attempted. -/
theorem lost_after_set : ¬ ∀ (attempts : List Attempt) (last : Call), Redelivers last attempts →
    (∀ a ∈ attempts, ∀ c ∈ last :: attempts.map Attempt.call, c.getAt ≤ a.call.setAt + 86400) →
    ∀ ch ∈ last.notice.channels, Attempted last.notice
      (last.run CompactJson.compactJson defaultDispatcher strictDatabase
        (afterAttempts CompactJson.compactJson defaultDispatcher strictDatabase attempts .empty)).final
      ch := by
  intro hclaim
  have hattempted := hclaim [⟨criticalCall, [.answered, .answered]⟩] criticalAgain
    (redelivers_critical _) (within_day _) .email List.mem_cons_self
  have hfinal := attempted_final_iff defaultDispatcher (redelivers_critical _)
    (fun ch x h => caught_criticalCall ch x h) accepted_criticalAgain (fun _ _ => not_marked_empty _ _)
    (within_day [.answered, .answered])
  rcases (hfinal.2 .email List.mem_cons_self).mp hattempted _ rfl with ⟨row, hrow, -⟩ | hsettled
  · cases hrow
  · cases hsettled

end FraudDetection.Notifications
