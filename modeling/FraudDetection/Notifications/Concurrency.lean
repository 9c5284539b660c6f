import FraudDetection.Async.Pool
import FraudDetection.Notifications.Dispatch

/-!
# Concurrent dispatches of one notification

The check for the marker and its setting are two commands. A call that checks between those of
another one goes on as well.

`Phase` says how far a call has got, and `operations` is the contract that ties its phases to its
operations. `Single` is the invariant: before the marker is set no call goes on and at most one is
about to set it; from then on every check finds the marker, and one call goes on.
-/

namespace FraudDetection.Notifications

open Async Python Store

variable {ι : Type}

/-! ## Dispatchers that share a server -/

/-- The server, and the operations it has carried out, each with the call it belongs to. -/
structure Shared (ι : Type) where
  server : Server
  log : List (ι × Op)

/-- Calls of any number of dispatchers on one server. -/
def dispatchTasks (py : PyLib) (self : NotificationDispatcher)
    (db : Database) (calls : ι → Call) :
    Setting ι (Shared ι) Ret Exn Bool where
  program i := (calls i).program py self
  perform i op s :=
    ((s.server.perform db (calls i) op).1,
      ⟨(s.server.perform db (calls i) op).2, s.log ++ [(i, op)]⟩)
  drift _ _ := False

/-- A server before the calls. -/
def idle (server : Server) : Pool ι (Shared ι) Ret Exn Bool := ⟨fun _ => none, server, []⟩

/-- The operations by which a notification gets out: its insert, and a send. -/
def Op.Notifies : Op → Prop
  | .insert _ => True
  | .send _ => True
  | _ => False

instance : DecidablePred Op.Notifies
  | .insert _ => isTrue trivial
  | .send _ => isTrue trivial
  | .get _ => isFalse id
  | .set _ _ _ => isFalse id
  | .refresh _ => isFalse id
  | .settle _ _ => isFalse id

/-- One call at most notifies anyone. The others return `False`, if they return. -/
def Deduplicated (s : Pool ι (Shared ι) Ret Exn Bool) : Prop :=
  ∃ winner : Option ι, ∀ i, winner ≠ some i →
    (∀ op, (i, op) ∈ s.shared.log → ¬ op.Notifies) ∧
      ∀ b, s.tasks i = some (.pure b) → b = false

/-- Redis works, and every call is made once. -/
def Working (s : Pool ι (Shared ι) Ret Exn Bool) : Happening ι Op Exn → Prop
  | .start i => ∀ entry ∈ s.shared.log, entry.1 ≠ i
  | .command _ (.get _) d => d = .answered
  | .command _ (.set _ _ _) d => d = .answered
  | _ => True

/-- In addition no call checks for the marker while another one is about to set it. -/
def Undivided (s : Pool ι (Shared ι) Ret Exn Bool) (l : Happening ι Op Exn) : Prop :=
  Working s l ∧
    ∀ i key d, l = .command i (.get key) d →
      ∀ j key' value ex k, s.tasks j ≠ some (.call (.set key' value ex) k)

/-! ## Phases -/

/-- How far a call has got: before the check, before the marker is set, past it, or suppressed. -/
inductive Phase where
  | fresh
  | checked
  | notifying
  | suppressed
  deriving DecidableEq, Repr

/-- The phase after an operation. -/
def Phase.next (q : Phase) (ev : Event Ret Exn) : Phase :=
  match q, ev with
  | .fresh, ⟨.get _, .ok isDuplicate⟩ =>
      if (isDuplicate.getD "") ≠ "" then .suppressed else .checked
  | .fresh, _ => .suppressed
  | .checked, ⟨.set _ _ _, .ok _⟩ => .notifying
  | .checked, _ => .suppressed
  | q, _ => q

/-- The operations of a call in their order. -/
def operations (key : String) : Contract Phase Ret Exn where
  guar := fun q op =>
    match q with
    | .fresh => op = .get key
    | .checked => op = .set key "1" 86400
    | .notifying => op.redisKey = none
    | .suppressed => False
  rely := fun q ev q' => q' = q.next ev

/-- A call does not end where it is about to set the marker, and returns `True` only past it. -/
def Ends (r : Except Exn Bool) (q : Phase) : Prop :=
  q ≠ .checked ∧ (r = .ok true → q = .notifying)

section Programs

variable {key : String}

theorem wp_proceed (py : PyLib) (self : NotificationDispatcher) (n : Notice)
    (utcnow : Channel → ℚ) :
    (self.proceed py n utcnow).wp (operations (n.key py)) Ends .checked := by
  have hrest : (NotificationDispatcher.notifyAll py self n utcnow n.channels).wp
      (operations (n.key py)) (fun _ q => q = .notifying) .notifying :=
    Prog.wp_of_asks (asks_notifyAll py self n utcnow n.channels) (fun _ h => h) fun _ _ _ _ h => h
  unfold NotificationDispatcher.proceed
  refine Prog.wp_await_seq rfl ?_ ?_
  · rintro e q rfl
    exact ⟨nofun, nofun⟩
  · rintro u q rfl
    refine Prog.wp_seq hrest ?_ ?_
    · rintro e q rfl
      exact ⟨nofun, nofun⟩
    · rintro v q rfl
      exact ⟨nofun, fun _ => rfl⟩

/-- Every call keeps to its phases. -/
theorem wp_program (py : PyLib) (self : NotificationDispatcher) (c : Call) :
    (c.program py self).wp (operations (c.notice.key py)) Ends .fresh := by
  unfold Call.program
  rw [NotificationDispatcher.dispatch_dict]
  refine Prog.wp_await_seq rfl ?_ ?_
  · rintro e q rfl
    exact ⟨nofun, nofun⟩
  · rintro isDuplicate q rfl
    show Prog.wp _ (ite _ _ _) _ (ite _ _ _)
    by_cases hfound : (isDuplicate.getD "") ≠ ""
    · rw [if_pos hfound, if_pos hfound]
      exact ⟨nofun, nofun⟩
    · rw [if_neg hfound, if_neg hfound]
      exact wp_proceed py self (Notice.ofFields c.payload) c.utcnow

end Programs

/-! ## The invariant -/

/-- Before the marker is set: no call goes on, and at most one is about to set it. -/
structure Before (qs : ι → Option Phase) (s : Shared ι) : Prop where
  silent : ∀ entry ∈ s.log, ¬ entry.2.Notifies
  none_notifying : ∀ i, qs i ≠ some .notifying
  one_checked : ∀ i j, qs i = some .checked → qs j = some .checked → i = j

/-- After a call has set the marker: it alone goes on, and nobody is about to set it again. -/
structure After (key : String) (calls : ι → Call) (winner : ι) (qs : ι → Option Phase)
    (s : Shared ι) : Prop where
  marked : s.server.redis key = some ⟨"1", some ((calls winner).setAt + 86400)⟩
  silent : ∀ entry ∈ s.log, entry.2.Notifies → entry.1 = winner
  notifying : ∀ i, qs i = some .notifying → i = winner
  none_checked : ∀ i, qs i ≠ some .checked

/-- The marker is not set yet, or one call has set it. -/
def Single (key : String) (calls : ι → Call) (qs : ι → Option Phase) (s : Shared ι) : Prop :=
  Before qs s ∨ ∃ winner, After key calls winner qs s

section Steps

variable [DecidableEq ι] {key : String} {calls : ι → Call} {qs : ι → Option Phase}
  {s s' : Shared ι} {i winner : ι} {o : Option Phase}

/-- A call moves on without notifying anyone. -/
theorem Before.step (h : Before qs s) (hnotifying : o ≠ some .notifying)
    (hchecked : o = some .checked → ∀ j, qs j ≠ some .checked)
    (hlog : ∀ entry ∈ s'.log, entry ∈ s.log ∨ ¬ entry.2.Notifies) :
    Before (Function.update qs i o) s' where
  silent := by
    intro entry hentry
    rcases hlog entry hentry with hold | hnew
    · exact h.silent entry hold
    · exact hnew
  none_notifying := by
    intro j hj
    rcases Pool.update_cases hj with ⟨-, ho⟩ | ⟨-, hj⟩
    · exact hnotifying ho
    · exact h.none_notifying j hj
  one_checked := by
    intro j k hj hk
    rcases Pool.update_cases hj with ⟨rfl, ho⟩ | ⟨-, hj'⟩
    · rcases Pool.update_cases hk with ⟨rfl, -⟩ | ⟨-, hk⟩
      · rfl
      · exact absurd hk (hchecked ho k)
    · rcases Pool.update_cases hk with ⟨rfl, ho⟩ | ⟨-, hk⟩
      · exact absurd hj' (hchecked ho j)
      · exact h.one_checked j k hj' hk

/-- After the marker is set, only the call that has set it moves on and notifies. -/
theorem After.step (h : After key calls winner qs s)
    (hmarked : s'.server.redis key = s.server.redis key)
    (hnotifying : o = some .notifying → i = winner) (hchecked : o ≠ some .checked)
    (hlog : ∀ entry ∈ s'.log, entry ∈ s.log ∨ (entry.2.Notifies → entry.1 = winner)) :
    After key calls winner (Function.update qs i o) s' where
  marked := hmarked.trans h.marked
  silent := by
    intro entry hentry
    rcases hlog entry hentry with hold | hnew
    · exact h.silent entry hold
    · exact hnew
  notifying := by
    intro j hj
    rcases Pool.update_cases hj with ⟨rfl, ho⟩ | ⟨-, hj⟩
    · exact hnotifying ho
    · exact h.notifying j hj
  none_checked := by
    intro j hj
    rcases Pool.update_cases hj with ⟨-, ho⟩ | ⟨-, hj⟩
    · exact hchecked ho
    · exact h.none_checked j hj

/-- The call that sets the marker is the only one that goes on. -/
theorem Before.set (h : Before qs s) (hi : qs i = some .checked)
    (hmarked : s'.server.redis key = some ⟨"1", some ((calls i).setAt + 86400)⟩)
    (hlog : ∀ entry ∈ s'.log, entry ∈ s.log ∨ ¬ entry.2.Notifies) :
    After key calls i (Function.update qs i (some .notifying)) s' where
  marked := hmarked
  silent := by
    intro entry hentry hnotifies
    rcases hlog entry hentry with hold | hnew
    · exact absurd hnotifies (h.silent entry hold)
    · exact absurd hnotifies hnew
  notifying := by
    intro j hj
    rcases Pool.update_cases hj with ⟨rfl, -⟩ | ⟨-, hj⟩
    · rfl
    · exact absurd hj (h.none_notifying j)
  none_checked := by
    intro j hj
    rcases Pool.update_cases hj with ⟨-, ho⟩ | ⟨hne, hj⟩
    · cases ho
    -- another call about to set it would be a second one
    · exact hne (h.one_checked j i hj hi)

/-- A call starts or ends, or dies. -/
theorem Single.rest (h : Single key calls qs s) (hnotifying : o ≠ some .notifying)
    (hchecked : o ≠ some .checked) : Single key calls (Function.update qs i o) s := by
  rcases h with hbefore | ⟨winner, hafter⟩
  · left
    exact hbefore.step hnotifying (fun ho => absurd ho hchecked) fun _ => Or.inl
  · right
    exact ⟨winner, hafter.step rfl (fun ho => absurd ho hnotifying) hchecked fun _ => Or.inl⟩

end Steps

/-! ## Runs -/

section Runs

variable [DecidableEq ι] {py : PyLib} {self : NotificationDispatcher}
  {db : Database} {key : String} {calls : ι → Call}
  {qs : ι → Option Phase} {s : Pool ι (Shared ι) Ret Exn Bool} {i : ι} {q : Phase} {op : Op}
  {d : Delivery Exn}

omit [DecidableEq ι] in
/-- A call that has checked is about to set the marker. -/
theorem about_to_set {j : ι} (hmeets : Pool.Meets (operations key) Ends s.tasks qs)
    (hj : qs j = some .checked) : ∃ k, s.tasks j = some (.call (.set key "1" 86400) k) := by
  rcases hmeets j with ⟨-, hnone⟩ | ⟨p, q, hp, hq, hwp⟩
  · rw [hj] at hnone
    cases hnone
  · obtain rfl : Phase.checked = q := Option.some.inj (hj.symm.trans hq)
    cases p with
    | pure b => exact absurd rfl hwp.1
    | raise e => exact absurd rfl hwp.1
    | call op k =>
        obtain rfl : op = .set key "1" 86400 := hwp.1
        exact ⟨k, hp⟩

/-- The check of a call: it finds the marker if a call has set it, and is the only one to go on
otherwise. -/
theorem Single.get (h : Single key calls qs s.shared)
    (hday : ∀ i j, (calls i).getAt ≤ (calls j).setAt + 86400)
    (hfree : ∀ j, qs j ≠ some .checked) (i : ι) :
    let x := (dispatchTasks py self db calls).perform i (.get key) s.shared
    ∃ q', (operations key).rely .fresh ⟨.get key, x.1⟩ q' ∧
      Single key calls (Function.update qs i (some q')) x.2 := by
  have hlog : ∀ entry ∈ s.shared.log ++ [(i, Op.get key)],
      entry ∈ s.shared.log ∨ ¬ entry.2.Notifies := by
    intro entry hentry
    rcases List.mem_append.mp hentry with hold | hnew
    · exact Or.inl hold
    · right
      rw [List.mem_singleton.mp hnew]
      exact id
  refine ⟨_, rfl, ?_⟩
  -- no marker yet: the call gets past the check alone
  rcases h with hbefore | ⟨winner, hafter⟩
  · left
    refine hbefore.step ?_ (fun _ => hfree) hlog
    show (some (ite _ _ _) : Option Phase) ≠ _
    split
    · exact nofun
    · exact nofun
  · right
    -- the marker is set and still alive, so the call finds it and is suppressed
    have hlive : ∀ t, some ((calls winner).setAt + 86400) = some t → (calls i).getAt ≤ t := by
      intro t ht
      rw [← Option.some.inj ht]
      exact hday i winner
    have hfind := Keyspace.find?_of_live hafter.marked hlive
    have hsuppressed : Phase.next .fresh ⟨.get key,
        ((dispatchTasks py self db calls).perform i (.get key) s.shared).1⟩ = .suppressed := by
      show Phase.next .fresh ⟨.get key,
        .ok ((s.shared.server.redis.find? (calls i).getAt key).map Entry.value)⟩ = _
      rw [hfind]
      rfl
    rw [hsuppressed]
    refine ⟨winner, hafter.step rfl nofun nofun ?_⟩
    intro entry hentry
    exact (hlog entry hentry).imp_right fun hnew hnotifies => absurd hnotifies hnew

/-- The `SET` of a call. -/
theorem Single.set (h : Single key calls qs s.shared) (hi : qs i = some .checked) :
    let x := (dispatchTasks py self db calls).perform i (.set key "1" 86400) s.shared
    ∃ q', (operations key).rely .checked ⟨.set key "1" 86400, x.1⟩ q' ∧
      Single key calls (Function.update qs i (some q')) x.2 := by
  refine ⟨_, rfl, ?_⟩
  rcases h with hbefore | ⟨winner, hafter⟩
  · right
    refine ⟨i, hbefore.set hi ?_ ?_⟩
    · show (s.shared.server.perform db (calls i) (.set key "1" 86400)).2.redis key = _
      rw [Server.perform_set]
      exact Keyspace.set_self ..
    · intro entry hentry
      rcases List.mem_append.mp hentry with hold | hnew
      · exact Or.inl hold
      · right
        rw [List.mem_singleton.mp hnew]
        exact id
  -- nobody is about to set a marker that is set
  · exact absurd hi (hafter.none_checked i)

/-- Any other operation of a call is one of the call that has set the marker. -/
theorem Single.notify (h : Single key calls qs s.shared) (hi : qs i = some .notifying)
    (hop : op.redisKey = none) (d : Delivery Exn) :
    let x := d.outcome ((dispatchTasks py self db calls).perform i op s.shared) s.shared
    ∃ q', (operations key).rely .notifying ⟨op, x.1⟩ q' ∧
      Single key calls (Function.update qs i (some q')) x.2 := by
  refine ⟨_, rfl, ?_⟩
  rcases h with hbefore | ⟨winner, hafter⟩
  · exact absurd hi (hbefore.none_notifying i)
  · right
    have hwinner := hafter.notifying i hi
    have hperformed : After key calls winner (Function.update qs i (some .notifying))
        ((dispatchTasks py self db calls).perform i op s.shared).2 := by
      refine hafter.step ?_ (fun _ => hwinner) nofun ?_
      · exact congrFun (Server.redis_perform hop) key
      · intro entry hentry
        rcases List.mem_append.mp hentry with hold | hnew
        · exact Or.inl hold
        · right
          rw [List.mem_singleton.mp hnew]
          exact fun _ => hwinner
    -- the log does not have an operation that is lost
    have hlost : After key calls winner (Function.update qs i (some .notifying)) s.shared :=
      hafter.step rfl (fun _ => hwinner) nofun fun _ => Or.inl
    exact ⟨winner, d.outcome_state hperformed hlost⟩

/-- An operation that the side condition admits keeps the invariant. -/
theorem Single.command (hmeets : Pool.Meets (operations key) Ends s.tasks qs)
    (h : Single key calls qs s.shared)
    (hday : ∀ i j, (calls i).getAt ≤ (calls j).setAt + 86400) (hi : qs i = some q)
    (hguar : (operations key).guar q op) (hok : Undivided s (.command i op d)) :
    let x := d.outcome ((dispatchTasks py self db calls).perform i op s.shared) s.shared
    ∃ q', (operations key).rely q ⟨op, x.1⟩ q' ∧
      Single key calls (Function.update qs i (some q')) x.2 := by
  cases q with
  | fresh =>
      obtain rfl : op = .get key := hguar
      obtain rfl : d = .answered := hok.1
      apply h.get hday
      intro j hj
      obtain ⟨k, hset⟩ := about_to_set hmeets hj
      exact hok.2 i key .answered rfl j key "1" 86400 k hset
  | checked =>
      obtain rfl : op = .set key "1" 86400 := hguar
      obtain rfl : d = .answered := hok.1
      exact h.set hi
  | notifying => exact h.notify hi hguar d
  | suppressed => exact hguar.elim

omit [DecidableEq ι] in
/-- Where the marker is not set twice, one call at most notifies, and the others return `False`. -/
theorem Single.deduplicated (hmeets : Pool.Meets (operations key) Ends s.tasks qs)
    (h : Single key calls qs s.shared) : Deduplicated s := by
  have hfalse : ∀ i b, qs i ≠ some .notifying → s.tasks i = some (.pure b) → b = false := by
    intro i b hnot htask
    obtain ⟨q, hq, -, htrue⟩ := hmeets.some htask
    by_contra hb
    rw [Bool.not_eq_false] at hb
    rw [hb] at htrue
    rw [htrue rfl] at hq
    exact hnot hq
  rcases h with hbefore | ⟨winner, hafter⟩
  -- no call has gone on, so there is none to except
  · refine ⟨none, ?_⟩
    intro i _
    refine ⟨fun op hop => hbefore.silent (i, op) hop, ?_⟩
    intro b htask
    exact hfalse i b (hbefore.none_notifying i) htask
  · refine ⟨some winner, ?_⟩
    intro i hi
    refine ⟨?_, ?_⟩
    · intro op hop hnotifies
      exact hi (congrArg some (hafter.silent (i, op) hop hnotifies).symm)
    · intro b htask
      refine hfalse i b ?_ htask
      intro hq
      exact hi (congrArg some (hafter.notifying i hq).symm)

end Runs

/-- In every run of calls for one recipient and alert within 24 hours, by any number of dispatchers
on a Redis that works, in which no call checks for the marker while another one is about to set it,
one call at most notifies anyone, and the others return `False`. -/
theorem dispatch_deduplicated [DecidableEq ι] (py : PyLib) (self : NotificationDispatcher)
    (db : Database) (calls : ι → Call) (recipientId alertId : Json)
    (hids : ∀ i, (calls i).notice.recipientId = recipientId ∧ (calls i).notice.alertId = alertId)
    (hday : ∀ i j, (calls i).getAt ≤ (calls j).setAt + 86400) (server : Server)
    (s : Pool ι (Shared ι) Ret Exn Bool)
    (hrun : Pool.Run (dispatchTasks py self db calls) Undivided (idle server) s) :
    Deduplicated s := by
  have hkey : ∀ i, (calls i).notice.key py = dedupKey py recipientId alertId := by
    intro i
    rw [Notice.key, (hids i).1, (hids i).2]
  have hstart : Single (dedupKey py recipientId alertId) calls (fun _ => none)
      (idle (ι := ι) server).shared := Or.inl ⟨nofun, nofun, nofun⟩
  have hinvariant : ∃ qs, Pool.Meets (operations (dedupKey py recipientId alertId)) Ends s.tasks qs ∧
      Single (dedupKey py recipientId alertId) calls qs s.shared := by
    refine Pool.invariant_of_meets (Single (dedupKey py recipientId alertId) calls) ?_ ?_ ?_ ?_ ?_
      (fun _ => Or.inl ⟨rfl, rfl⟩) hstart hrun
    · intro qs s i _ h _ _
      refine ⟨.fresh, ?_, h.rest nofun nofun⟩
      have hwp := wp_program py self (calls i)
      rw [hkey i] at hwp
      exact hwp
    · intro qs s i q op d hmeets h hi hguar hok
      exact h.command hmeets hday hi hguar hok
    · intro qs t i q r h _ _
      exact h.rest nofun nofun
    · intro qs s i p q h _ _ _ _
      exact h.rest nofun nofun
    · intro qs t t' _ hdrift
      exact hdrift.elim
  obtain ⟨qs, hmeets, h⟩ := hinvariant
  exact h.deduplicated hmeets

/-! ### Two calls -/

/-- Two calls for one recipient and alert, at the same time. -/
def sameCall (_ : Bool) : Call where
  payload := [("recipient_id", .str "r-1"), ("alert_id", .str "a-1")]
  getAt := 0
  setAt := 0
  utcnow := fun _ => 0
  outcome := fun _ => .ok true

/-- The two calls on one server. -/
def sameTasks : Setting Bool (Shared Bool) Ret Exn Bool :=
  dispatchTasks CompactJson.compactJson defaultDispatcher strictDatabase sameCall

/-- The pool after a call with something left to do has carried out its next operations. -/
def advanced (i : Bool) (p : Prog Ret Exn Bool) (n : ℕ) (s : Pool Bool (Shared Bool) Ret Exn Bool) :
    Pool Bool (Shared Bool) Ret Exn Bool where
  tasks := Function.update s.tasks i
    (some (Pool.remaining (sameTasks.perform i) p (List.replicate n .answered) s.shared))
  shared := Pool.script (sameTasks.perform i) p (List.replicate n .answered) s.shared

/-- One call has returned before the other one is made. -/
def oneAfterOther : Pool Bool (Shared Bool) Ret Exn Bool :=
  advanced true (sameTasks.program true) 1
    (advanced false (sameTasks.program false) 6 (idle .empty))

section Alone

variable {s : Pool Bool (Shared Bool) Ret Exn Bool} {i : Bool} {p : Prog Ret Exn Bool}

/-- A call whose operations are answered satisfies what is asked of Redis. -/
theorem working_alone (n : ℕ) :
    Pool.Allows sameTasks Working i p (List.replicate n .answered) s := by
  induction p generalizing s n with
  | pure b => trivial
  | raise e => trivial
  | call op k ih =>
      cases n with
      | zero => trivial
      | succ n =>
          refine ⟨?_, ih _ n⟩
          cases op with
          | get key => rfl
          | set key value ex => rfl
          | _ => trivial

/-- A call that runs while the other one has not begun or has returned does not disturb it. -/
theorem undivided_alone (hi : s.tasks i = some p) (hother : ∀ op k, s.tasks (!i) ≠ some (.call op k))
    (n : ℕ) : Pool.Allows sameTasks Undivided i p (List.replicate n .answered) s := by
  induction p generalizing s n with
  | pure b => trivial
  | raise e => trivial
  | call op k ih =>
      cases n with
      | zero => trivial
      | succ n =>
          obtain ⟨hworking, -⟩ := working_alone (s := s) (i := i) (p := .call op k) (n + 1)
          refine ⟨⟨hworking, ?_⟩, ih _ (Function.update_self ..) ?_ n⟩
          · intro i' key d hl j key' value ex k' hj
            by_cases hji : j = i
            · rw [hji, hi] at hj
              cases hj
              cases hl
            · rw [Bool.eq_not.mpr hji] at hj
              exact hother _ _ hj
          · intro op' k' hj
            refine hother op' k' ?_
            rw [← hj]
            exact (Function.update_of_ne (Bool.not_ne_self i) ..).symm

end Alone

theorem run_oneAfterOther : Pool.Run sameTasks Undivided (idle .empty) oneAfterOther := by
  have hstart : ∀ {s : Pool Bool (Shared Bool) Ret Exn Bool} {i : Bool},
      (∀ entry ∈ s.shared.log, entry.1 ≠ i) → Undivided s (.start i) := fun h => ⟨h, nofun⟩
  have hfirst : Pool.Run sameTasks Undivided (idle .empty)
      (advanced false (sameTasks.program false) 6 (idle .empty)) :=
    Pool.run_started rfl (hstart fun _ h => absurd h List.not_mem_nil)
      (undivided_alone rfl (fun _ _ => (Option.some_ne_none _).symm) 6)
  have hreturned : (advanced false (sameTasks.program false) 6 (idle .empty)).tasks false
      = some (.pure true) := rfl
  refine hfirst.trans (Pool.run_started rfl (hstart (by decide +kernel)) (undivided_alone rfl ?_ 1))
  intro op k hfalse
  rw [Bool.not_true] at hfalse
  cases hreturned.symm.trans hfalse

/-- The second one of two calls that do not overlap only checks for the marker. -/
theorem dispatch_deduplicated_sequential :
    (oneAfterOther.shared.log.filter fun entry => entry.1).length = 1 ∧
      Deduplicated oneAfterOther := by
  have hday : (0 : ℚ) ≤ 0 + 86400 := by decide +kernel
  refine ⟨by decide +kernel, ?_⟩
  exact dispatch_deduplicated CompactJson.compactJson defaultDispatcher strictDatabase sameCall
    (.str "r-1") (.str "a-1") (fun _ => ⟨rfl, rfl⟩) (fun _ _ => hday) .empty _ run_oneAfterOther

/-- Both calls have checked for the marker before one of them sets it. -/
def bothChecked : Pool Bool (Shared Bool) Ret Exn Bool :=
  advanced true (sameTasks.program true) 1
    (advanced false (sameTasks.program false) 1 (idle .empty))

/-- What a call has left to do. -/
def leftToDo (s : Pool Bool (Shared Bool) Ret Exn Bool) (i : Bool) : Prog Ret Exn Bool :=
  (s.tasks i).getD (.pure false)

/-- The first call goes on up to its insert. -/
def oneNotified : Pool Bool (Shared Bool) Ret Exn Bool :=
  advanced false (leftToDo bothChecked false) 2 bothChecked

/-- And then the other one. -/
def bothNotified : Pool Bool (Shared Bool) Ret Exn Bool :=
  advanced true (leftToDo oneNotified true) 2 oneNotified

/-- Two calls that both check for the marker before one of them sets it both notify. -/
theorem both_notify : ¬ ∀ s, Pool.Run sameTasks Working (idle .empty) s → Deduplicated s := by
  intro hclaim
  have hfirst : Pool.Run sameTasks Working (idle .empty)
      (advanced false (sameTasks.program false) 1 (idle .empty)) :=
    Pool.run_started rfl (fun entry h => absurd h List.not_mem_nil) (working_alone 1)
  have honce : ∀ entry ∈ (advanced false (sameTasks.program false) 1 (idle .empty)).shared.log,
      entry.1 ≠ true := by
    decide +kernel
  have hsecond : Pool.Run sameTasks Working _ bothChecked :=
    Pool.run_started rfl honce (working_alone 1)
  have hthird : Pool.Run sameTasks Working bothChecked oneNotified :=
    Pool.run_remaining rfl (working_alone 2)
  have hfourth : Pool.Run sameTasks Working oneNotified bothNotified :=
    Pool.run_remaining rfl (working_alone 2)
  obtain ⟨winner, hothers⟩ :=
    hclaim bothNotified (((hfirst.trans hsecond).trans hthird).trans hfourth)
  have hwinner : ∀ i, (∃ entry ∈ bothNotified.shared.log, entry.1 = i ∧ entry.2.Notifies) →
      winner = some i := by
    rintro i ⟨⟨_, op⟩, hop, rfl, hnotifies⟩
    by_contra hi
    exact (hothers _ hi).1 op hop hnotifies
  have hboth : winner = some false ∧ winner = some true :=
    ⟨hwinner false (by decide +kernel), hwinner true (by decide +kernel)⟩
  exact absurd (hboth.1.symm.trans hboth.2) (by decide)

end FraudDetection.Notifications
