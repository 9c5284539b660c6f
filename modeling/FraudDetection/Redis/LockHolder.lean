import Mathlib.Tactic.Linarith
import FraudDetection.Redis.DistributedLock

/-!
# Who can end a lock

Only the instance whose token a key holds can delete the key or change its expiry. The one way that
is not a release is an extension by a time that is not positive.

`holds_perform` says which operations can make a token disappear, and `perform_find?` that a script
with another token leaves what is found under the key. Whose token a script is sent with is in
`Owned`.
-/

namespace FraudDetection.Redis

open Async Python Store

variable {κ : Type} [DecidableEq κ]

section Perform

variable {uuids : ℕ ↪ String} {t : LockServer κ} {a : κ} {q : Phase} {op : LockOp}
  {key token : String}

omit [DecidableEq κ] in
theorem holds_iff : t.holds key token ↔ ∃ d, t.store.find? t.now key = some ⟨token, d⟩ :=
  Keyspace.get_eq_some

omit [DecidableEq κ] in
/-- A key holds one token. -/
theorem holds_unique {token' : String} (h : t.holds key token) (h' : t.holds key token') :
    token = token' :=
  Option.some.inj (h.symm.trans h')

/-- What takes place in an instance, or is a pause, does not change what Redis stores. -/
theorem perform_store (uuids : ℕ ↪ String) (a : κ) (t : LockServer κ)
    (hop : op.isLocal = true ∨ ∃ seconds, op = .sleep seconds) :
    (t.perform uuids a op).2.store = t.store := by
  rcases hop with hlocal | ⟨seconds, rfl⟩
  · cases op with
    | uuid4 => rfl
    | token => rfl
    | assign token => rfl
    | _ => cases hlocal
  · rfl

/-- An attempt does not change a key that is there. -/
theorem setNx_of_exist {now : ℚ} {store : LockStore} (h : store.exist now key = true) (ex : ℤ) :
    (setNx now key token ex store).2 = store := by
  unfold setNx
  by_cases hex : ex ≤ 0
  · rw [if_pos hex]
  · rw [if_neg hex, if_pos h]

theorem release_store (uuids : ℕ ↪ String) (a : κ) (t : LockServer κ) (key token : String) :
    (t.perform uuids a (.release key token)).2.store
      = if t.holds key token then t.store.del key else t.store := by
  show (ifHolds t.now key token _ t.store).2 = _
  rw [ifHolds]
  split
  · exact (if_pos ‹_›).symm
  · exact (if_neg ‹_›).symm

theorem extend_store (uuids : ℕ ↪ String) (a : κ) (t : LockServer κ) (key token : String)
    (ttlMs : ℤ) :
    (t.perform uuids a (.extend key token ttlMs)).2.store
      = if t.holds key token then t.store.expireAt t.now key (t.now + ttlMs / 1000)
        else t.store := by
  show (ifHolds t.now key token _ t.store).2 = _
  rw [ifHolds]
  split
  · exact (if_pos ‹_›).symm
  · exact (if_neg ‹_›).symm

omit [DecidableEq κ] in
/-- A positive number of milliseconds lies ahead. -/
theorem lt_add_ms (now : ℚ) {ttlMs : ℤ} (h : 0 < ttlMs) : now < now + (ttlMs : ℚ) / 1000 := by
  have hpos : (0 : ℚ) < ttlMs := by exact_mod_cast h
  linarith [div_pos hpos (by norm_num : (0 : ℚ) < 1000)]

/-- What Redis stores under the key after an operation of a call. -/
theorem perform_find? (hguar : (protocol key).guar q op) (h : t.holds key token) :
    (t.perform uuids a op).2.store.find? t.now key = t.store.find? t.now key ∨
      op = .release key token ∨ ∃ ttlMs, op = .extend key token ttlMs := by
  have hkeep : (t.perform uuids a op).2.store = t.store →
      (t.perform uuids a op).2.store.find? t.now key = t.store.find? t.now key := by
    intro hstore
    rw [hstore]
  rcases guar_cases hguar with hlocal | hsleep | ⟨token', ex, -, rfl⟩ | ⟨token', -, hscript⟩
  · exact Or.inl (hkeep (perform_store uuids a t (Or.inl hlocal)))
  · exact Or.inl (hkeep (perform_store uuids a t (Or.inr hsleep)))
  · obtain ⟨d, hfound⟩ := holds_iff.mp h
    have hexist : t.store.exist t.now key = true := by
      rw [Keyspace.exist, hfound]
      rfl
    exact Or.inl (hkeep (setNx_of_exist hexist ex))
  · by_cases htoken : token' = token
    · subst htoken
      exact Or.inr hscript
    · have hother : ¬ t.holds key token' := fun h' => htoken (holds_unique h' h)
      left
      rcases hscript with rfl | ⟨ttlMs, rfl⟩
      · apply hkeep
        rw [release_store, if_neg hother]
      · apply hkeep
        rw [extend_store, if_neg hother]

/-- A key that holds a token goes on holding it, unless a script with that token deletes it. -/
theorem holds_perform (hguar : (protocol key).guar q op) (h : t.holds key token) :
    (t.perform uuids a op).2.holds key token ∨ op = .release key token ∨
      ∃ ttlMs ≤ 0, op = .extend key token ttlMs := by
  obtain ⟨d, hfound⟩ := holds_iff.mp h
  have hnow : (t.perform uuids a op).2.now = t.now := (perform_frame uuids a op t).2.2.2
  rcases @perform_find? _ _ uuids t a q op key token hguar h with hsame | hrelease | ⟨ttlMs, rfl⟩
  · left
    rw [holds_iff, hnow, hsame]
    exact ⟨d, hfound⟩
  · exact Or.inr (Or.inl hrelease)
  · by_cases hms : ttlMs ≤ 0
    · exact Or.inr (Or.inr ⟨ttlMs, hms, rfl⟩)
    · left
      rw [holds_iff, hnow, extend_store, if_pos h]
      exact ⟨_, Keyspace.find?_expireAt hfound (lt_add_ms t.now (not_le.mp hms))⟩

end Perform

/-! ## Runs -/

/-- The key and the token that a script is sent with. -/
def LockOp.script : LockOp → Option (String × String)
  | release key value => some (key, value)
  | extend key value _ => some (key, value)
  | _ => none

/-- How a token that the key holds can disappear: its expiry has passed, or the instance with that
token releases the lock, or extends it by a time that is not positive. -/
inductive Disappears (ls : Locks κ) (s : LockPool κ) (token : String) :
    Happening (κ × Request) LockOp Exn → LockPool κ → Prop
  | expiry (s' : LockPool κ) (deadline : ℚ)
      (hstored : s.shared.store ls.key = some ⟨token, some deadline⟩)
      (hreached : deadline < s'.shared.now) : Disappears ls s token .drift s'
  | release (s' : LockPool κ) (i : κ × Request) (d : Delivery Exn)
      (hown : s.shared.token i.1 = some token) :
      Disappears ls s token (.command i (.release ls.key token) d) s'
  | extend (s' : LockPool κ) (i : κ × Request) (d : Delivery Exn) (ttlMs : ℤ) (hms : ttlMs ≤ 0)
      (hown : s.shared.token i.1 = some token) :
      Disappears ls s token (.command i (.extend ls.key token ttlMs) d) s'

/-- What an event does to a token that the key holds, what a script does, and what each instance
remembers of it. -/
structure Guards (ls : Locks κ) (s : LockPool κ) (l : Happening (κ × Request) LockOp Exn)
    (s' : LockPool κ) : Prop where
  kept : ∀ token, s.shared.holds ls.key token →
    s'.shared.holds ls.key token ∨ Disappears ls s token l s'
  asked : ∀ a request, l = .command (a, request) .token .answered → s'.shared.found a = false
  own : ∀ i op d key token, l = .command i op d → op.script = some (key, token) →
    key = ls.key ∧ s.shared.token i.1 = some token
  found : ∀ i op key token, l = .command i op .answered → op.script = some (key, token) →
    s'.shared.found i.1 = decide (s.shared.holds ls.key token)
  unchanged : ∀ i op d key token, l = .command i op d → op.script = some (key, token) →
    ¬ s.shared.holds ls.key token →
      s'.shared.store.find? s'.shared.now ls.key = s.shared.store.find? s.shared.now ls.key
  remembered : ∀ a, (∀ request op d, l = .command (a, request) op d →
      op ≠ .token ∧ op.script = none) → s'.shared.found a = s.shared.found a

/-- An operation that reads no token and sends no script is not remembered. -/
theorem perform_found (uuids : ℕ ↪ String) (a : κ) {op : LockOp} (htoken : op ≠ .token)
    (hscript : op.script = none) (t : LockServer κ) :
    (t.perform uuids a op).2.found = t.found := by
  cases op with
  | token => exact absurd rfl htoken
  | release key token => cases hscript
  | extend key token ttlMs => cases hscript
  | _ => rfl

section Runs

variable {ls : Locks κ} {uuids : ℕ ↪ String} {passes : LockServer κ → ℚ → Prop} {s s' : LockPool κ}
  {l : Happening (κ × Request) LockOp Exn} {qs : κ × Request → Option Phase}

omit [DecidableEq κ] in
/-- A call sends scripts with the token of its instance. -/
theorem Owned.script (h : Owned uuids qs s.shared) {i : κ × Request} {q : Phase} {op : LockOp}
    (hq : qs i = some q) (hguar : (protocol ls.key).guar q op) {key token : String}
    (hscript : op.script = some (key, token)) :
    key = ls.key ∧ s.shared.token i.1 = some token ∧
      (op = .release key token ∨ ∃ ttlMs, op = .extend key token ttlMs) := by
  rcases guar_cases hguar with hlocal | ⟨seconds, rfl⟩ | ⟨token', ex, -, rfl⟩ | ⟨token', rfl, hop⟩
  · cases op with
    | uuid4 => cases hscript
    | token => cases hscript
    | assign token => cases hscript
    | _ => cases hlocal
  · cases hscript
  · cases hscript
  · have htold := h.told i.1 i.2 token' hq
    rcases hop with rfl | ⟨ttlMs, rfl⟩
    · cases hscript
      exact ⟨rfl, htold, Or.inl rfl⟩
    · cases hscript
      exact ⟨rfl, htold, Or.inr ⟨ttlMs, rfl⟩⟩

omit [DecidableEq κ] in
/-- An event that is not a command only has to keep the token. -/
theorem Guards.of_kept (hl : ∀ i op d, l ≠ .command i op d)
    (hfound : s'.shared.found = s.shared.found)
    (hkept : ∀ token, s.shared.holds ls.key token →
      s'.shared.holds ls.key token ∨ Disappears ls s token l s') : Guards ls s l s' where
  kept := hkept
  asked := fun a request h => absurd h (hl _ _ _)
  own := fun i op d _ _ h => absurd h (hl i op d)
  found := fun i op _ _ h => absurd h (hl i op _)
  unchanged := fun i op d _ _ h => absurd h (hl i op d)
  remembered := fun a _ => by rw [hfound]

omit [DecidableEq κ] in
/-- Time only takes a token away by its expiry. -/
theorem kept_drift {t' : LockServer κ} (heq : t' = { s.shared with now := t'.now }) {token : String}
    (h : s.shared.holds ls.key token) :
    t'.holds ls.key token ∨ Disappears ls s token .drift ⟨s.tasks, t'⟩ := by
  obtain ⟨d, hfound⟩ := holds_iff.mp h
  have hstored := Keyspace.eq_some_of_find? hfound
  by_cases hlive : ∀ deadline ∈ d, t'.now ≤ deadline
  · left
    rw [holds_iff, heq]
    exact ⟨d, Keyspace.find?_of_live hstored hlive⟩
  · right
    push Not at hlive
    obtain ⟨deadline, hd, hreached⟩ := hlive
    obtain rfl : d = some deadline := hd
    exact Disappears.expiry _ deadline hstored hreached

/-- A command of a call guards the token. -/
theorem guards_command (h : Owned uuids qs s.shared) {i : κ × Request} {q : Phase} {op : LockOp}
    (d : Delivery Exn) (hq : qs i = some q) (hguar : (protocol ls.key).guar q op)
    (hs' : s'.shared = (d.outcome (s.shared.perform uuids i.1 op) s.shared).2) :
    Guards ls s (.command i op d) s' := by
  have hperform : s'.shared = (s.shared.perform uuids i.1 op).2 ∨ s'.shared = s.shared := by
    cases d with
    | answered => exact Or.inl hs'
    | unanswered e => exact Or.inl hs'
    | lost e => exact Or.inr hs'
  refine ⟨?_, ?_, ?_, ?_, ?_, ?_⟩
  · intro token hholds
    rcases hperform with heq | heq
    · rw [heq]
      rcases @holds_perform _ _ uuids s.shared i.1 q op ls.key token hguar hholds with
        hkept | rfl | ⟨ttlMs, hms, rfl⟩
      · exact Or.inl hkept
      · exact Or.inr (.release s' i d (h.script hq hguar rfl).2.1)
      · exact Or.inr (.extend s' i d ttlMs hms (h.script hq hguar rfl).2.1)
    · rw [heq]
      exact Or.inl hholds
  · rintro a request hcommand
    cases hcommand
    rw [hs']
    exact Function.update_self a false s.shared.found
  · rintro _ _ _ key token ⟨⟩ hscript
    obtain ⟨hkey, hown, -⟩ := h.script hq hguar hscript
    exact ⟨hkey, hown⟩
  · rintro _ _ key token hcommand hscript
    cases hcommand
    obtain ⟨rfl, -, rfl | ⟨ttlMs, rfl⟩⟩ := h.script hq hguar hscript
    · rw [hs']
      exact Function.update_self i.1 _ s.shared.found
    · rw [hs']
      exact Function.update_self i.1 _ s.shared.found
  · rintro _ _ _ key token ⟨⟩ hscript hnot
    have hnow : (s.shared.perform uuids i.1 op).2.now = s.shared.now :=
      (perform_frame uuids i.1 op s.shared).2.2.2
    have hstore : (s.shared.perform uuids i.1 op).2.store = s.shared.store := by
      obtain ⟨rfl, -, rfl | ⟨ttlMs, rfl⟩⟩ := h.script hq hguar hscript
      · rw [release_store, if_neg hnot]
      · rw [extend_store, if_neg hnot]
    rcases hperform with heq | heq
    · rw [heq, hnow, hstore]
    · rw [heq]
  · intro a hother
    rcases hperform with heq | heq
    · rw [heq]
      by_cases ha : a = i.1
      · obtain ⟨htoken, hscript⟩ := hother i.2 op d (by rw [ha])
        exact congrFun (perform_found uuids i.1 htoken hscript s.shared) a
      · exact (perform_frame uuids i.1 op s.shared).2.1 a ha
    · rw [heq]

/-- Every event guards the token. -/
theorem guards_step (hmeets : Pool.Meets (protocol ls.key) Ends s.tasks qs)
    (h : Owned uuids qs s.shared) (hstep : Pool.Step (lockCalls ls uuids passes) s l s') :
    Guards ls s l s' := by
  cases hstep with
  | start i hi => exact Guards.of_kept (by simp) rfl fun token hholds => Or.inl hholds
  | command i op k d hi =>
      obtain ⟨q, hq, hguar, -⟩ := hmeets.some hi
      exact guards_command h d hq hguar rfl
  | returned i b hi => exact Guards.of_kept (by simp) rfl fun token hholds => Or.inl hholds
  | raised i x hi => exact Guards.of_kept (by simp) rfl fun token hholds => Or.inl hholds
  | die i p hi => exact Guards.of_kept (by simp) rfl fun token hholds => Or.inl hholds
  | drift t' hdrift =>
      obtain ⟨-, -, heq⟩ := hdrift
      exact Guards.of_kept (by simp) (by rw [heq]) fun token hholds => kept_drift heq hholds

end Runs

/-- In every state of every run, at most one instance has the token that the key holds, and a call
of `release` or `extend` that returns reports whether its script found the token of its instance.
Every event then guards the key. -/
theorem only_holder (ls : Locks κ) (uuids : ℕ ↪ String) (now : ℚ) (s : LockPool κ)
    (hrun : Pool.Run (lockCalls ls uuids fun _ _ => True) OneTask (freshLocks now) s) :
    (∀ a b token, s.shared.holds ls.key token → s.shared.token a = some token →
      s.shared.token b = some token → a = b) ∧
    (∀ a request result, request ≠ .acquire → s.tasks (a, request) = some (.pure result) →
      result = s.shared.found a) ∧
    ∀ l s', OneTask s l → Pool.Step (lockCalls ls uuids fun _ _ => True) s l s' →
      Guards ls s l s' := by
  obtain ⟨qs, hmeets, h⟩ := owned_run hrun
  refine ⟨?_, ?_, ?_⟩
  · intro a b token _ ha hb
    exact h.unique a b token (Or.inl ha) (Or.inl hb)
  · intro a request result hrequest hdone
    obtain ⟨q, hq, hend⟩ := hmeets.some hdone
    rcases hend with rfl | hacquiring
    · exact h.reports a request _ result hq (Or.inr rfl)
    · exact absurd (h.acquiring a request q hq hacquiring) hrequest
  · intro l s' _ hstep
    exact guards_step hmeets h hstep

/-! ### A lock extended by less than nothing -/

/-- Ids that are all different. -/
def sampleIds : ℕ ↪ String where
  toFun := fun n => String.ofList (List.replicate n 'f')
  inj' := by
    intro m n h
    have hlength := congrArg String.length h
    simpa using hlength

/-- Locks with the default settings, one for each number. -/
def sampleLocks : Locks ℕ where
  resource := "card-1"
  ttlSeconds := fun _ => 30
  retryCount := fun _ => 50
  retryInterval := fun _ => 1 / 10

/-- Calls on these locks, with any passage of time. -/
def sampleCalls : Setting (ℕ × Request) (LockServer ℕ) LockOp.Ret Exn Bool :=
  lockCalls sampleLocks sampleIds fun _ _ => True

/-- The server after instance 0 has acquired the lock. -/
def lockedServer : LockServer ℕ :=
  Pool.script (sampleCalls.perform (0, Request.acquire)) (sampleLocks.lock 0).acquire
    [.answered, .answered, .answered] ⟨0, fun _ => none, 0, fun _ => none, fun _ => false⟩

/-- Instance 0 has acquired the lock, and no call is in progress. -/
def lockedPool : LockPool ℕ := ⟨fun _ => none, lockedServer⟩

/-- A call whose operations are all answered can run alone. -/
theorem fares_answered {w : Setting (κ × Request) (LockServer κ) LockOp.Ret Exn Bool}
    (i : κ × Request) (p : LockMethod Bool) (n : ℕ) (s : LockPool κ) :
    Pool.Fares w OneTask i p (List.replicate n .answered) s := by
  induction p generalizing n s with
  | pure b => exact trivial
  | raise x => exact trivial
  | call op k ih =>
      cases n with
      | zero => exact trivial
      | succ n => exact ⟨fun _ => rfl, ih _ n _⟩

/-- A call that is alone and whose operations are all answered. -/
theorem run_alone {w : Setting (κ × Request) (LockServer κ) LockOp.Ret Exn Bool} (i : κ × Request)
    (n : ℕ) (t : LockServer κ) :
    Pool.Run w OneTask ⟨fun _ => none, t⟩ ⟨fun _ => none,
      Pool.script (w.perform i) (w.program i) (List.replicate n .answered) t⟩ :=
  Pool.run_task rfl (fun _ => rfl) (fares_answered i _ n _)

theorem run_locked : Pool.Run sampleCalls OneTask (freshLocks 0) lockedPool :=
  run_alone (0, .acquire) 3 _

theorem only_holder_acquired :
    (∀ a b token, lockedPool.shared.holds sampleLocks.key token →
      lockedPool.shared.token a = some token → lockedPool.shared.token b = some token → a = b) ∧
    (∀ a request result, request ≠ .acquire →
      lockedPool.tasks (a, request) = some (.pure result) → result = lockedPool.shared.found a) ∧
    ∀ l s', OneTask lockedPool l → Pool.Step (lockCalls sampleLocks sampleIds fun _ _ => True)
      lockedPool l s' → Guards sampleLocks lockedPool l s' :=
  only_holder sampleLocks sampleIds 0 lockedPool run_locked

/-- The call that shortens the lock. -/
def shorten : ℕ × Request := (0, .extend (some (-1)))

/-- What is left of the call once it knows its token. -/
def shortenWith (token : String) : LockMethod Bool := do
  let result ← Prog.await (LockOp.extend sampleLocks.key token (-1000))
  return decide (result ≠ 0)

/-- The call is about to send its script. -/
def shortening : LockPool ℕ :=
  ⟨Function.update (fun _ => none) shorten (some (shortenWith (sampleIds 0))),
    { lockedServer with found := Function.update lockedServer.found 0 false }⟩

theorem run_shortening : Pool.Run sampleCalls OneTask (freshLocks 0) shortening := by
  have hstart := Relation.ReflTransGen.tail run_locked
    ⟨.start shorten, fun _ => rfl, Pool.Step.start shorten rfl⟩
  have hread := Relation.ReflTransGen.tail hstart
    ⟨.command shorten LockOp.token .answered, fun _ => rfl,
      Pool.Step.command shorten LockOp.token _ .answered rfl⟩
  rw [Function.update_idem] at hread
  exact hread

/-- A holder that extends its lock by a negative time loses it at once, without a release and before
its expiry. -/
theorem negative_extension_drops : ∃ l s',
    Pool.Run sampleCalls OneTask (freshLocks 0) shortening ∧ OneTask shortening l ∧
    Pool.Step sampleCalls shortening l s' ∧
    (∃ deadline, shortening.shared.store.find? shortening.shared.now sampleLocks.key
      = some ⟨sampleIds 0, some deadline⟩ ∧ s'.shared.now < deadline) ∧
    ¬ s'.shared.holds sampleLocks.key (sampleIds 0) ∧
    ∀ i d, l ≠ .command i (.release sampleLocks.key (sampleIds 0)) d := by
  refine ⟨.command shorten (.extend sampleLocks.key (sampleIds 0) (-1000)) .answered, _,
    run_shortening, fun _ => rfl, Pool.Step.command shorten _ _ .answered rfl, ?_, ?_, ?_⟩
  · have hholds : shortening.shared.holds sampleLocks.key (sampleIds 0) := by decide +kernel
    obtain ⟨d, hfound⟩ := holds_iff.mp hholds
    have hdeadline : (shortening.shared.store sampleLocks.key).map Entry.deadline
        = some (some 30) := by
      decide +kernel
    rw [Keyspace.eq_some_of_find? hfound] at hdeadline
    obtain rfl : d = some 30 := Option.some.inj hdeadline
    exact ⟨30, hfound, by decide +kernel⟩
  · decide +kernel
  · intro i d h
    cases h

end FraudDetection.Redis
