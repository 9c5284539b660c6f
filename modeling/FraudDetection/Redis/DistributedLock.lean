import Mathlib.Algebra.Order.Field.Rat
import Mathlib.Logic.Embedding.Basic
import FraudDetection.Async.Pool
import FraudDetection.Python.Value
import FraudDetection.Store.Accumulator

/-!
# `DistributedLock`

A lock is a key with an expiry that holds the token of the instance that acquired it. The instance
keeps the token, and its scripts compare the key with it before they delete the key or change its
expiry. So what an instance knows and what Redis stores change apart from each other.

A call goes through the phases of `Phase` (`wp_program`). `Owned` says that every token has one
owner, and that a call reports what its script found. `Owned.advance` shows that it is enough to
look at what a step does to the instance that takes it.
-/

namespace FraudDetection.Redis

open Async Python Store

/-! ## Calls -/

/-- What a method awaits, or does to its instance. -/
inductive LockOp where
  | uuid4
  | token
  | assign (token : Option String)
  | set (key token : String) (ex : ℤ)
  | release (key token : String)
  | extend (key token : String) (ttlMs : ℤ)
  | sleep (seconds : ℚ)
  deriving DecidableEq

namespace LockOp

/-- The reply to an operation. -/
abbrev Ret : LockOp → Type
  | uuid4 => String
  | token => Option String
  | assign _ => Unit
  | set .. => Bool
  | release .. => ℤ
  | extend .. => ℤ
  | sleep _ => Unit

/-- Whether an operation takes place in the instance. -/
def isLocal : LockOp → Bool
  | uuid4 => true
  | token => true
  | assign _ => true
  | _ => false

end LockOp

/-- A method of a lock. -/
abbrev LockMethod := Prog LockOp.Ret Exn

/-- The arguments of the constructor. -/
structure DistributedLock where
  resource : String
  ttlSeconds : ℤ := 30
  retryCount : ℤ := 50
  retryInterval : ℚ := 1 / 10

namespace DistributedLock

variable (l : DistributedLock)

/-- `_lock_key` -/
def lockKey : String := "fraud:lock:" ++ l.resource

/-- The loop of `acquire`, with `n` attempts left. -/
def attempts (token : String) : ℕ → LockMethod Bool
  | 0 => return false
  | n + 1 => do
      let acquired ← Prog.await (LockOp.set l.lockKey token l.ttlSeconds)
      if acquired then
        let _ ← Prog.await (LockOp.assign (some token))
        return true
      else
        let _ ← Prog.await (LockOp.sleep l.retryInterval)
        attempts token n

/-- Attempt to acquire the lock, up to `retryCount` times. -/
def acquire : LockMethod Bool := do
  let token ← Prog.await LockOp.uuid4
  l.attempts token l.retryCount.toNat

/-- Release the lock if held by this instance. -/
def release : LockMethod Bool := do
  let lockToken ← Prog.await LockOp.token
  match lockToken with
  | none => return false
  | some token =>
      let result ← Prog.await (LockOp.release l.lockKey token)
      let released := decide (result ≠ 0)
      let _ ← Prog.await (LockOp.assign none)
      return released

/-- `(additional_seconds or self._ttl_seconds) * 1000` -/
def ttlMs (additionalSeconds : Option ℤ) : ℤ :=
  (match additionalSeconds with
    | some n => if n = 0 then l.ttlSeconds else n
    | none => l.ttlSeconds) * 1000

/-- Extend the lock TTL. -/
def extend (additionalSeconds : Option ℤ) : LockMethod Bool := do
  let lockToken ← Prog.await LockOp.token
  match lockToken with
  | none => return false
  | some token =>
      let result ← Prog.await (LockOp.extend l.lockKey token (l.ttlMs additionalSeconds))
      return decide (result ≠ 0)

end DistributedLock

/-- A call of a method. -/
inductive Request where
  | acquire
  | release
  | extend (additionalSeconds : Option ℤ)
  deriving DecidableEq

/-- The method that is called. -/
def Request.program (l : DistributedLock) : Request → LockMethod Bool
  | acquire => l.acquire
  | release => l.release
  | extend additionalSeconds => l.extend additionalSeconds

/-! ## The server and the instances -/

/-- The keys of locks, with the tokens they hold. -/
abbrev LockStore := Keyspace String String ℚ

/-- Run `command` if the key holds the token, and reply whether it did. -/
def ifHolds (now : ℚ) (key token : String) (command : LockStore → LockStore) (store : LockStore) :
    ℤ × LockStore :=
  if store.get now key = some token then (1, command store) else (0, store)

/-- `_RELEASE_SCRIPT` -/
def releaseScript (now : ℚ) (key token : String) : LockStore → ℤ × LockStore :=
  ifHolds now key token fun store => store.del key

/-- `_EXTEND_SCRIPT`. `PEXPIRE` with a time that is not positive deletes the key. -/
def extendScript (now : ℚ) (key token : String) (ttlMs : ℤ) : LockStore → ℤ × LockStore :=
  ifHolds now key token fun store => store.expireAt now key (now + ttlMs / 1000)

/-- `SET key token EX ex NX` -/
def setNx (now : ℚ) (key token : String) (ex : ℤ) (store : LockStore) :
    Except Exn Bool × LockStore :=
  if ex ≤ 0 then (.error ⟨.other "ResponseError", "invalid expire time in 'set' command"⟩, store)
  else if store.exist now key then (.ok false, store)
  else (.ok true, store.set key token (some (now + ex)))

/-- Redis with its clock, the number of ids made so far, the `_lock_token` of each instance, and
whether the script of its latest call of `release` or `extend` found that token under the key. -/
structure LockServer (κ : Type) where
  now : ℚ
  store : LockStore
  made : ℕ
  token : κ → Option String
  found : κ → Bool

namespace LockServer

variable {κ : Type}

/-- `is_locked` -/
def isLocked (t : LockServer κ) (a : κ) : Bool := (t.token a).isSome

/-- The key holds the token at this moment. -/
def holds (t : LockServer κ) (key token : String) : Prop := t.store.get t.now key = some token

instance (t : LockServer κ) (key token : String) : Decidable (t.holds key token) :=
  inferInstanceAs (Decidable (t.store.get t.now key = some token))

variable [DecidableEq κ] (uuids : ℕ ↪ String)

/-- An operation of instance `a`. No two ids are the same. -/
def perform (a : κ) (op : LockOp) (t : LockServer κ) : Except Exn op.Ret × LockServer κ :=
  match op with
  | .uuid4 => (.ok (uuids t.made), { t with made := t.made + 1 })
  | .token => (.ok (t.token a), { t with found := Function.update t.found a false })
  | .assign token => (.ok (), { t with token := Function.update t.token a token })
  | .set key token ex =>
      let x := setNx t.now key token ex t.store
      (x.1, { t with store := x.2 })
  | .release key token =>
      let x := releaseScript t.now key token t.store
      (.ok x.1, { t with
        store := x.2
        found := Function.update t.found a (decide (t.holds key token)) })
  | .extend key token ttlMs =>
      let x := extendScript t.now key token ttlMs t.store
      (.ok x.1, { t with
        store := x.2
        found := Function.update t.found a (decide (t.holds key token)) })
  | .sleep _ => (.ok (), t)

end LockServer

/-- Locks on one resource, by instance. -/
structure Locks (κ : Type) where
  resource : String
  ttlSeconds : κ → ℤ
  retryCount : κ → ℤ
  retryInterval : κ → ℚ

/-- An instance. -/
def Locks.lock {κ : Type} (ls : Locks κ) (a : κ) : DistributedLock :=
  ⟨ls.resource, ls.ttlSeconds a, ls.retryCount a, ls.retryInterval a⟩

/-- The key of all instances. -/
def Locks.key {κ : Type} (ls : Locks κ) : String := "fraud:lock:" ++ ls.resource

/-- Instances, the calls of their methods in progress, and the server. -/
abbrev LockPool (κ : Type) := Pool (κ × Request) (LockServer κ) LockOp.Ret Exn Bool

variable {κ : Type} [DecidableEq κ]

/-- Calls on the instances of a lock. Time goes on as far as `passes` allows. -/
def lockCalls (ls : Locks κ) (uuids : ℕ ↪ String) (passes : LockServer κ → ℚ → Prop) :
    Setting (κ × Request) (LockServer κ) LockOp.Ret Exn Bool where
  program := fun i => i.2.program (ls.lock i.1)
  perform := fun i op t => t.perform uuids i.1 op
  drift := fun t t' => t.now ≤ t'.now ∧ passes t t'.now ∧ t' = { t with now := t'.now }

/-- No call in progress, no key, and no instance with a token. -/
def freshLocks (now : ℚ) : LockPool κ where
  tasks := fun _ => none
  shared := ⟨now, fun _ => none, 0, fun _ => none, fun _ => false⟩

/-- Each instance is driven by one task at a time, and what takes place in an instance does not
fail. A command may fail before or after it takes effect, and a call may be cancelled. -/
def OneTask (s : LockPool κ) : Happening (κ × Request) LockOp Exn → Prop
  | .start i => ∀ request, s.tasks (i.1, request) = none
  | .command _ op d => op.isLocal = true → d = .answered
  | _ => True

/-! ## Phases -/

/-- Where a call stands. A call of `acquire` makes a token, tries to store it, and on success gives
it to its instance. A call of `release` or `extend` reads the token and sends its script with it;
`release` then clears the token. -/
inductive Phase where
  | making
  | trying (token : String)
  | won (token : String)
  | acquired
  | reading
  | told (token : String)
  | clearing (result : Bool)
  | ended (result : Bool)
  | failed

namespace Phase

/-- The phase in which a call starts. -/
def ofRequest : Request → Phase
  | .acquire => making
  | .release => reading
  | .extend _ => reading

/-- The phases of `acquire`. -/
def acquiring : Phase → Prop
  | making => True
  | trying _ => True
  | won _ => True
  | acquired => True
  | _ => False

/-- A call of `acquire` has made the token and not given it to its instance yet. -/
def aims (q : Phase) (token : String) : Prop := q = trying token ∨ q = won token

/-- The phase after an operation. -/
def next (q : Phase) (ev : Event LockOp.Ret Exn) : Phase :=
  match q, ev with
  | making, ⟨.uuid4, .ok token⟩ => trying token
  | trying token, ⟨.set .., .ok true⟩ => won token
  | trying token, ⟨.set .., .ok false⟩ => trying token
  | trying token, ⟨.sleep _, .ok _⟩ => trying token
  | won _, ⟨.assign _, .ok _⟩ => acquired
  | reading, ⟨.token, .ok none⟩ => ended false
  | reading, ⟨.token, .ok (some token)⟩ => told token
  | told _, ⟨.release .., .ok n⟩ => clearing (decide (n ≠ 0))
  | told _, ⟨.extend .., .ok n⟩ => ended (decide (n ≠ 0))
  | clearing result, ⟨.assign _, .ok _⟩ => ended result
  | _, _ => failed

end Phase

/-- The operations of a call, phase by phase. -/
def protocol (key : String) : Contract Phase LockOp.Ret Exn where
  guar := fun q op =>
    match q with
    | .making => op = .uuid4
    | .trying token => (∃ ex, op = .set key token ex) ∨ ∃ seconds, op = .sleep seconds
    | .won token => op = .assign (some token)
    | .reading => op = .token
    | .told token => op = .release key token ∨ ∃ ttlMs, op = .extend key token ttlMs
    | .clearing _ => op = .assign none
    | _ => False
  rely := fun q ev q' => q' = q.next ev

/-- The commands of a call: it tries to store its token, or sends a script with the token it was
told. -/
theorem guar_cases {key : String} {q : Phase} {op : LockOp} (h : (protocol key).guar q op) :
    op.isLocal = true ∨ (∃ seconds, op = .sleep seconds) ∨
      (∃ token ex, q = .trying token ∧ op = .set key token ex) ∨
      ∃ token, q = .told token ∧
        (op = .release key token ∨ ∃ ttlMs, op = .extend key token ttlMs) := by
  cases q with
  | making =>
      obtain rfl : op = .uuid4 := h
      exact Or.inl rfl
  | trying token =>
      rcases h with ⟨ex, rfl⟩ | hsleep
      · exact Or.inr (Or.inr (Or.inl ⟨token, ex, rfl, rfl⟩))
      · exact Or.inr (Or.inl hsleep)
  | won token =>
      obtain rfl : op = .assign (some token) := h
      exact Or.inl rfl
  | reading =>
      obtain rfl : op = .token := h
      exact Or.inl rfl
  | told token => exact Or.inr (Or.inr (Or.inr ⟨token, rfl, h⟩))
  | clearing result =>
      obtain rfl : op = .assign none := h
      exact Or.inl rfl
  | acquired => exact h.elim
  | ended result => exact h.elim
  | failed => exact h.elim

/-- How a call ends. -/
def Ends (r : Except Exn Bool) (q : Phase) : Prop :=
  match r with
  | .ok b => q = .ended b ∨ q.acquiring
  | .error _ => q = .failed

/-- After an operation that fails, a call has nothing to do. -/
theorem next_error (q : Phase) (op : LockOp) (x : Exn) : q.next ⟨op, .error x⟩ = .failed := by
  cases q <;> cases op <;> rfl

/-- A call that awaits an operation keeps to the protocol if it does with every reply. -/
theorem wp_call {key : String} {q : Phase} {op : LockOp} {rest : op.Ret → LockMethod Bool}
    (hguar : (protocol key).guar q op)
    (hrest : ∀ a, (rest a).wp (protocol key) Ends (q.next ⟨op, .ok a⟩)) :
    (Prog.await op >>= rest).wp (protocol key) Ends q := by
  refine Prog.wp_await_seq hguar ?_ ?_
  · rintro x q' rfl
    exact next_error q op x
  · rintro a q' rfl
    exact hrest a

theorem wp_attempts (l : DistributedLock) (token : String) (n : ℕ) :
    (l.attempts token n).wp (protocol l.lockKey) Ends (.trying token) := by
  induction n with
  | zero => exact Or.inr trivial
  | succ n ih =>
      rw [DistributedLock.attempts]
      refine wp_call (Or.inl ⟨_, rfl⟩) ?_
      intro acquired
      by_cases hset : acquired = true
      · subst hset
        rw [if_pos rfl]
        refine wp_call rfl ?_
        intro _
        exact Or.inr trivial
      · rw [if_neg hset]
        rw [Bool.not_eq_true] at hset
        subst hset
        refine wp_call (Or.inr ⟨_, rfl⟩) ?_
        intro _
        exact ih

theorem wp_acquire (l : DistributedLock) : l.acquire.wp (protocol l.lockKey) Ends .making := by
  rw [DistributedLock.acquire]
  refine wp_call rfl ?_
  intro token
  exact wp_attempts l token _

theorem wp_release (l : DistributedLock) : l.release.wp (protocol l.lockKey) Ends .reading := by
  rw [DistributedLock.release]
  refine wp_call rfl ?_
  rintro (_ | token)
  · exact Or.inl rfl
  · refine wp_call (Or.inl rfl) ?_
    intro n
    refine wp_call rfl ?_
    intro _
    exact Or.inl rfl

theorem wp_extend (l : DistributedLock) (additionalSeconds : Option ℤ) :
    (l.extend additionalSeconds).wp (protocol l.lockKey) Ends .reading := by
  rw [DistributedLock.extend]
  refine wp_call rfl ?_
  rintro (_ | token)
  · exact Or.inl rfl
  · refine wp_call (Or.inr ⟨_, rfl⟩) ?_
    intro n
    exact Or.inl rfl

omit [DecidableEq κ] in
/-- Every call keeps to the protocol. -/
theorem wp_request (ls : Locks κ) (i : κ × Request) :
    (i.2.program (ls.lock i.1)).wp (protocol ls.key) Ends (.ofRequest i.2) := by
  obtain ⟨a, request⟩ := i
  cases request with
  | acquire => exact wp_acquire (ls.lock a)
  | release => exact wp_release (ls.lock a)
  | extend additionalSeconds => exact wp_extend (ls.lock a) additionalSeconds

/-! ## Owners of tokens -/

/-- An instance has a token, or one of its calls is about to get it one. -/
def Has (qs : κ × Request → Option Phase) (t : LockServer κ) (a : κ) (token : String) : Prop :=
  t.token a = some token ∨ ∃ request q, qs (a, request) = some q ∧ q.aims token

/-- How the phases of the calls and the tokens fit together: each instance has one call at most; the
tokens had were made, each for one instance; a script is sent with the token of its instance, and
what is reported is what it found. -/
structure Owned (uuids : ℕ ↪ String) (qs : κ × Request → Option Phase) (t : LockServer κ) : Prop where
  single : ∀ a request request' q q', qs (a, request) = some q → qs (a, request') = some q' →
    request = request'
  acquiring : ∀ a request q, qs (a, request) = some q → q.acquiring → request = .acquire
  made : ∀ a token, Has qs t a token → ∃ n < t.made, uuids n = token
  unique : ∀ a b token, Has qs t a token → Has qs t b token → a = b
  told : ∀ a request token, qs (a, request) = some (.told token) → t.token a = some token
  reports : ∀ a request q result, qs (a, request) = some q →
    q = .clearing result ∨ q = .ended result → result = t.found a

/-- What a step of instance `a` from phase `q` to `q'` must not do for the owners of tokens to stay
the same. -/
structure Advance (uuids : ℕ ↪ String) (a : κ) (q q' : Phase) (t t' : LockServer κ) : Prop where
  token_of_ne : ∀ b, b ≠ a → t'.token b = t.token b
  found_of_ne : ∀ b, b ≠ a → t'.found b = t.found b
  made_le : t.made ≤ t'.made
  acquiring : q'.acquiring → q.acquiring
  fresh : ∀ token, t'.token a = some token ∨ q'.aims token →
    t.token a = some token ∨ q.aims token ∨ ∃ n, t.made ≤ n ∧ n < t'.made ∧ uuids n = token
  told : ∀ token, q' = .told token → t'.token a = some token
  reports : ∀ result, q' = .clearing result ∨ q' = .ended result → result = t'.found a

section Owned

variable {uuids : ℕ ↪ String} {qs : κ × Request → Option Phase} {t t' : LockServer κ} {a : κ}
  {request : Request} {q q' : Phase}

/-- The call that changes its phase is the only one of its instance. -/
theorem update_alone (halone : ∀ request', request' ≠ request → qs (a, request') = none) {b : κ}
    {request' : Request} {q'' : Phase}
    (h : Function.update qs (a, request) (some q) (b, request') = some q'') :
    (b = a ∧ request' = request ∧ q'' = q) ∨ (b ≠ a ∧ qs (b, request') = some q'') := by
  rcases Pool.update_cases h with ⟨hsame, hnew⟩ | ⟨hne, hold⟩
  · cases hsame
    cases hnew
    exact Or.inl ⟨rfl, rfl, rfl⟩
  · refine Or.inr ⟨?_, hold⟩
    rintro rfl
    have hrequest : request' ≠ request := by
      rintro rfl
      exact hne rfl
    rw [halone request' hrequest] at hold
    cases hold

/-- Each instance still has one call at most. -/
theorem update_single (halone : ∀ request', request' ≠ request → qs (a, request') = none)
    (hsingle : ∀ b r r' q₁ q₂, qs (b, r) = some q₁ → qs (b, r') = some q₂ → r = r')
    {b : κ} {r r' : Request} {q₁ q₂ : Phase}
    (h₁ : Function.update qs (a, request) (some q) (b, r) = some q₁)
    (h₂ : Function.update qs (a, request) (some q) (b, r') = some q₂) : r = r' := by
  rcases update_alone halone h₁ with ⟨rfl, rfl, -⟩ | ⟨hb, hold₁⟩
  · rcases update_alone halone h₂ with ⟨-, rfl, -⟩ | ⟨hb, -⟩
    · rfl
    · exact absurd rfl hb
  · rcases update_alone halone h₂ with ⟨rfl, -, -⟩ | ⟨-, hold₂⟩
    · exact absurd rfl hb
    · exact hsingle b r r' q₁ q₂ hold₁ hold₂

/-- Another instance has after the step what it had before. -/
theorem Advance.has_of_ne (h : Advance uuids a q q' t t') {b : κ} (hb : b ≠ a) {token : String}
    (hhas : Has (Function.update qs (a, request) (some q')) t' b token) : Has qs t b token := by
  rcases hhas with htoken | ⟨request', q'', hq, haims⟩
  · rw [h.token_of_ne b hb] at htoken
    exact Or.inl htoken
  · rw [Function.update_of_ne (by rintro ⟨⟩; exact hb rfl)] at hq
    exact Or.inr ⟨request', q'', hq, haims⟩

/-- The instance of the step has what it had, or a token just made. -/
theorem Advance.has_self (h : Advance uuids a q q' t t') (hq : qs (a, request) = some q)
    {token : String} (hhas : Has (Function.update qs (a, request) (some q')) t' a token) :
    Has qs t a token ∨ ∃ n, t.made ≤ n ∧ n < t'.made ∧ uuids n = token := by
  have hnew : t'.token a = some token ∨ q'.aims token →
      Has qs t a token ∨ ∃ n, t.made ≤ n ∧ n < t'.made ∧ uuids n = token := by
    intro hor
    rcases h.fresh token hor with hold | haims | hmade
    · exact Or.inl (Or.inl hold)
    · exact Or.inl (Or.inr ⟨request, q, hq, haims⟩)
    · exact Or.inr hmade
  rcases hhas with htoken | ⟨request', q'', hq', haims⟩
  · exact hnew (Or.inl htoken)
  · rcases Pool.update_cases hq' with ⟨-, hphase⟩ | ⟨-, hold⟩
    · cases hphase
      exact hnew (Or.inr haims)
    · exact Or.inl (Or.inr ⟨request', q'', hold, haims⟩)

/-- A step that only concerns its own instance keeps the owners. -/
theorem Owned.advance (h : Owned uuids qs t) (hq : qs (a, request) = some q)
    (hstep : Advance uuids a q q' t t') :
    Owned uuids (Function.update qs (a, request) (some q')) t' := by
  have halone : ∀ request', request' ≠ request → qs (a, request') = none := by
    intro request' hne
    by_contra hsome
    obtain ⟨q'', hq''⟩ := Option.ne_none_iff_exists'.mp hsome
    exact hne (h.single a request' request q'' q hq'' hq)
  -- a token just made was never had before
  have hnew : ∀ b token n, Has qs t b token → t.made ≤ n → uuids n = token → False := by
    intro b token n hhas hn htoken
    obtain ⟨m, hm, rfl⟩ := h.made b token hhas
    have hnm := uuids.injective htoken
    omega
  have hcase : ∀ b token, Has (Function.update qs (a, request) (some q')) t' b token →
      Has qs t b token ∨ b = a ∧ ∃ n, t.made ≤ n ∧ n < t'.made ∧ uuids n = token := by
    intro b token hhas
    by_cases hb : b = a
    · subst hb
      exact (hstep.has_self hq hhas).imp_right fun hmade => ⟨rfl, hmade⟩
    · exact Or.inl (hstep.has_of_ne hb hhas)
  refine ⟨?_, ?_, ?_, ?_, ?_, ?_⟩
  · intro b r r' q₁ q₂ h₁ h₂
    exact update_single halone h.single h₁ h₂
  · intro b r q₁ h₁ hacq
    rcases update_alone halone h₁ with ⟨rfl, rfl, rfl⟩ | ⟨-, h₁⟩
    · exact h.acquiring b r q hq (hstep.acquiring hacq)
    · exact h.acquiring b r q₁ h₁ hacq
  · intro b token hhas
    rcases hcase b token hhas with hhad | ⟨-, n, -, hn, htoken⟩
    · obtain ⟨n, hn, htoken⟩ := h.made b token hhad
      exact ⟨n, hn.trans_le hstep.made_le, htoken⟩
    · exact ⟨n, hn, htoken⟩
  · intro b c token hb hc
    rcases hcase b token hb with hadb | ⟨hba, n, hn, -, htoken⟩
    · rcases hcase c token hc with hadc | ⟨-, n, hn, -, htoken⟩
      · exact h.unique b c token hadb hadc
      · exact (hnew b token n hadb hn htoken).elim
    -- both are the instance of the step, or one of them had the new token before
    · rcases hcase c token hc with hadc | ⟨hca, -⟩
      · exact (hnew c token n hadc hn htoken).elim
      · rw [hba, hca]
  · intro b r token h₁
    rcases update_alone halone h₁ with ⟨rfl, rfl, heq⟩ | ⟨hb, h₁⟩
    · exact hstep.told token heq.symm
    · rw [hstep.token_of_ne b hb]
      exact h.told b r token h₁
  · intro b r q₁ result h₁ hresult
    rcases update_alone halone h₁ with ⟨rfl, rfl, rfl⟩ | ⟨hb, h₁⟩
    · exact hstep.reports result hresult
    · rw [hstep.found_of_ne b hb]
      exact h.reports b r q₁ result h₁ hresult

/-- A call that starts has no token yet. -/
theorem Owned.start (h : Owned uuids qs t) (hfree : ∀ request', qs (a, request') = none) :
    Owned uuids (Function.update qs (a, request) (some (.ofRequest request))) t := by
  have halone : ∀ request', request' ≠ request → qs (a, request') = none :=
    fun request' _ => hfree request'
  have hstart : ∀ token, ¬ (Phase.ofRequest request).aims token ∧
      Phase.ofRequest request ≠ .told token := by
    intro token
    cases request <;> simp [Phase.ofRequest, Phase.aims]
  have hhad : ∀ b token, Has (Function.update qs (a, request) (some (.ofRequest request))) t b token →
      Has qs t b token := by
    rintro b token (htoken | ⟨r, q, hq, haims⟩)
    · exact Or.inl htoken
    · rcases update_alone halone hq with ⟨-, -, rfl⟩ | ⟨-, hq⟩
      · exact absurd haims (hstart token).1
      · exact Or.inr ⟨r, q, hq, haims⟩
  refine ⟨?_, ?_, ?_, ?_, ?_, ?_⟩
  · intro b r r' q₁ q₂ h₁ h₂
    exact update_single halone h.single h₁ h₂
  · intro b r q₁ h₁ hacq
    rcases update_alone halone h₁ with ⟨-, rfl, rfl⟩ | ⟨-, h₁⟩
    -- only `acquire` starts in one of its phases
    · cases r with
      | acquire => rfl
      | release => exact hacq.elim
      | extend additionalSeconds => exact hacq.elim
    · exact h.acquiring b r q₁ h₁ hacq
  · intro b token hb
    exact h.made b token (hhad b token hb)
  · intro b c token hb hc
    exact h.unique b c token (hhad b token hb) (hhad c token hc)
  · intro b r token h₁
    rcases update_alone halone h₁ with ⟨-, -, heq⟩ | ⟨-, h₁⟩
    · exact absurd heq.symm (hstart token).2
    · exact h.told b r token h₁
  · intro b r q₁ result h₁ hresult
    rcases update_alone halone h₁ with ⟨-, rfl, rfl⟩ | ⟨-, h₁⟩
    · cases r <;> simp [Phase.ofRequest] at hresult
    · exact h.reports b r q₁ result h₁ hresult

/-- A call that ends gives up what it was about to get. -/
theorem Owned.erase (h : Owned uuids qs t) (i : κ × Request) :
    Owned uuids (Function.update qs i none) t := by
  have hold : ∀ j q, Function.update qs i none j = some q → qs j = some q := by
    intro j q hj
    rcases Pool.update_cases hj with ⟨-, hnew⟩ | ⟨-, hold⟩
    · cases hnew
    · exact hold
  have hhad : ∀ b token, Has (Function.update qs i none) t b token → Has qs t b token := by
    rintro b token (htoken | ⟨r, q, hq, haims⟩)
    · exact Or.inl htoken
    · exact Or.inr ⟨r, q, hold _ q hq, haims⟩
  exact {
    single := fun b r r' q q' h₁ h₂ => h.single b r r' q q' (hold _ q h₁) (hold _ q' h₂)
    acquiring := fun b r q h₁ => h.acquiring b r q (hold _ q h₁)
    made := fun b token hb => h.made b token (hhad b token hb)
    unique := fun b c token hb hc => h.unique b c token (hhad b token hb) (hhad c token hc)
    told := fun b r token h₁ => h.told b r token (hold _ _ h₁)
    reports := fun b r q result h₁ => h.reports b r q result (hold _ q h₁) }

end Owned

/-! ## Operations keep the owners -/

section Perform

variable {uuids : ℕ ↪ String} {qs : κ × Request → Option Phase} {t : LockServer κ} {a : κ}
  {request : Request} {q : Phase} {op : LockOp} {key : String}

/-- An operation leaves the other instances alone. -/
theorem perform_frame (uuids : ℕ ↪ String) (a : κ) (op : LockOp) (t : LockServer κ) :
    (∀ b, b ≠ a → (t.perform uuids a op).2.token b = t.token b) ∧
    (∀ b, b ≠ a → (t.perform uuids a op).2.found b = t.found b) ∧
    t.made ≤ (t.perform uuids a op).2.made ∧ (t.perform uuids a op).2.now = t.now := by
  cases op with
  | uuid4 => exact ⟨fun b _ => rfl, fun b _ => rfl, Nat.le_succ _, rfl⟩
  | token => exact ⟨fun b _ => rfl, fun b hb => Function.update_of_ne hb .., le_rfl, rfl⟩
  | assign token => exact ⟨fun b hb => Function.update_of_ne hb .., fun b _ => rfl, le_rfl, rfl⟩
  | set key token ex => exact ⟨fun b _ => rfl, fun b _ => rfl, le_rfl, rfl⟩
  | release key token => exact ⟨fun b _ => rfl, fun b hb => Function.update_of_ne hb .., le_rfl, rfl⟩
  | extend key token ttlMs =>
      exact ⟨fun b _ => rfl, fun b hb => Function.update_of_ne hb .., le_rfl, rfl⟩
  | sleep seconds => exact ⟨fun b _ => rfl, fun b _ => rfl, le_rfl, rfl⟩

/-- A command does not change what the instances know. -/
theorem perform_token (uuids : ℕ ↪ String) (a : κ) (hop : op.isLocal = false) (t : LockServer κ) :
    (t.perform uuids a op).2.token = t.token := by
  cases op with
  | uuid4 => cases hop
  | token => cases hop
  | assign token => cases hop
  | _ => rfl

omit [DecidableEq κ] in
/-- A script replies whether it found the token. -/
theorem ifHolds_reply (t : LockServer κ) (key token : String) (command : LockStore → LockStore) :
    decide ((ifHolds t.now key token command t.store).1 ≠ 0) = decide (t.holds key token) := by
  unfold ifHolds LockServer.holds
  by_cases hget : t.store.get t.now key = some token
  · simp [hget]
  · simp [hget]

/-- An operation that fails concerns its own instance only. -/
theorem advance_error {d : Delivery Exn} {x : Exn} (hop : op.isLocal = false)
    (hreply : (d.outcome (t.perform uuids a op) t).1 = .error x) :
    Advance uuids a q (q.next ⟨op, (d.outcome (t.perform uuids a op) t).1⟩) t
      (d.outcome (t.perform uuids a op) t).2 := by
  obtain ⟨htoken, hfound, hmade, -⟩ := perform_frame uuids a op t
  have hkept := perform_token uuids a hop t
  rw [hreply, next_error]
  have hfailed : ∀ t', t'.token = t.token → (∀ b, b ≠ a → t'.found b = t.found b) →
      t.made ≤ t'.made → Advance uuids a q .failed t t' := by
    intro t' ht hf hm
    refine ⟨fun b _ => by rw [ht], hf, hm, False.elim, ?_, ?_, ?_⟩
    · rintro token (htok | haims | haims)
      · exact Or.inl (by rwa [ht] at htok)
      · cases haims
      · cases haims
    · rintro token ⟨⟩
    · rintro result (h | h) <;> cases h
  cases d with
  | answered => exact hfailed _ hkept hfound hmade
  | unanswered e => exact hfailed _ hkept hfound hmade
  | lost e => exact hfailed _ rfl (fun b _ => rfl) le_rfl

omit [DecidableEq κ] in
/-- A step to a phase without a new token, in which the instance learns none. -/
theorem Advance.plain {q' : Phase} {t' : LockServer κ} (htoken : ∀ b, b ≠ a → t'.token b = t.token b)
    (hfound : ∀ b, b ≠ a → t'.found b = t.found b) (hmade : t.made ≤ t'.made)
    (hacquiring : q'.acquiring → q.acquiring)
    (hself : ∀ token, t'.token a = some token → t.token a = some token ∨ q.aims token)
    (haims : ∀ token, q'.aims token → q.aims token) (htold : ∀ token, q' ≠ .told token)
    (hreports : ∀ result, q' = .clearing result ∨ q' = .ended result → result = t'.found a) :
    Advance uuids a q q' t t' := by
  refine ⟨htoken, hfound, hmade, hacquiring, ?_, ?_, hreports⟩
  · rintro token (h | h)
    · exact (hself token h).imp_right Or.inl
    · exact Or.inr (Or.inl (haims token h))
  · intro token h
    exact absurd h (htold token)

omit [DecidableEq κ] in
/-- A step after which the call reports what its script found. -/
theorem Advance.report {q' : Phase} {t' : LockServer κ} {result : Bool}
    (htoken : ∀ b, b ≠ a → t'.token b = t.token b) (hfound : ∀ b, b ≠ a → t'.found b = t.found b)
    (hmade : t.made ≤ t'.made) (hself : ∀ token, t'.token a = some token → t.token a = some token)
    (hq' : q' = .clearing result ∨ q' = .ended result) (hresult : result = t'.found a) :
    Advance uuids a q q' t t' := by
  have hphase : ¬ q'.acquiring ∧ (∀ token, ¬ q'.aims token) ∧ (∀ token, q' ≠ .told token) ∧
      ∀ r, q' = .clearing r ∨ q' = .ended r → r = result := by
    rcases hq' with rfl | rfl <;> simp [Phase.acquiring, Phase.aims]
  obtain ⟨hacquiring, haims, htold, hunique⟩ := hphase
  refine Advance.plain htoken hfound hmade ?_ ?_ ?_ htold ?_
  · intro h
    exact absurd h hacquiring
  · intro token h
    exact Or.inl (hself token h)
  · intro token h
    exact absurd h (haims token)
  · intro r h
    rw [hunique r h, hresult]

/-- A new token. -/
theorem advance_making :
    Advance uuids a .making (.trying (uuids t.made)) t (t.perform uuids a .uuid4).2 := by
  obtain ⟨htoken, hfound, hmade, -⟩ := perform_frame uuids a .uuid4 t
  refine ⟨htoken, hfound, hmade, fun _ => trivial, ?_, ?_, ?_⟩
  · rintro token (h | h | h)
    · exact Or.inl h
    · cases h
      exact Or.inr (Or.inr ⟨t.made, le_rfl, Nat.lt_succ_self _, rfl⟩)
    · cases h
  · rintro token ⟨⟩
  · rintro result (h | h) <;> cases h

/-- An attempt, whatever the reply, or the pause after it. -/
theorem advance_trying {token : String} (hguar : (protocol key).guar (.trying token) op)
    {r : Except Exn op.Ret} (hsleep : ∀ seconds, op = .sleep seconds → ∃ u, r = .ok u) :
    Advance uuids a (.trying token) ((Phase.trying token).next ⟨op, r⟩) t
      (t.perform uuids a op).2 := by
  obtain ⟨htoken, hfound, hmade, -⟩ := perform_frame uuids a op t
  rcases hguar with ⟨ex, rfl⟩ | ⟨seconds, rfl⟩
  · refine Advance.plain htoken hfound hmade (fun _ => trivial) (fun _ h => Or.inl h) ?_ ?_ ?_
    · rintro token' h
      rcases r with x | _ | _
      · simp [Phase.next, Phase.aims] at h
      · exact h
      · simp only [Phase.next, Phase.aims, reduceCtorEq, Phase.won.injEq, false_or] at h
        exact Or.inl (by rw [h])
    · rcases r with x | _ | _ <;> simp [Phase.next]
    · rcases r with x | _ | _ <;> simp [Phase.next]
  · obtain ⟨u, rfl⟩ := hsleep seconds rfl
    refine Advance.plain htoken hfound hmade (fun _ => trivial) (fun _ h => Or.inl h)
      (fun _ h => h) ?_ ?_
    · rintro token' ⟨⟩
    · rintro result (h | h) <;> cases h

/-- An instance that gets the token its call has stored. -/
theorem advance_won (token : String) :
    Advance uuids a (.won token) .acquired t (t.perform uuids a (.assign (some token))).2 := by
  obtain ⟨htoken, hfound, hmade, -⟩ := perform_frame uuids a (.assign (some token)) t
  refine Advance.plain htoken hfound hmade (fun _ => trivial) ?_ ?_ ?_ ?_
  · intro token' h
    have hassigned : Function.update t.token a (some token) a = some token' := h
    rw [Function.update_self] at hassigned
    cases hassigned
    exact Or.inr (Or.inr rfl)
  · rintro token' (h | h) <;> cases h
  · rintro token' ⟨⟩
  · rintro result (h | h) <;> cases h

/-- A call that is told the token of its instance, or that there is none. -/
theorem advance_reading :
    Advance uuids a .reading (Phase.reading.next ⟨.token, .ok (t.token a)⟩) t
      (t.perform uuids a .token).2 := by
  obtain ⟨htoken, hfound, hmade, -⟩ := perform_frame uuids a .token t
  cases hread : t.token a with
  | none =>
      -- `if self._lock_token is None: … return False`
      exact Advance.report htoken hfound hmade (fun _ h => h) (Or.inr rfl)
        (Function.update_self a false t.found).symm
  | some token =>
      refine ⟨htoken, hfound, hmade, False.elim, ?_, ?_, ?_⟩
      · rintro token' (h | h | h)
        · exact Or.inl h
        · cases h
        · cases h
      · rintro token' ⟨⟩
        exact hread
      · rintro result (h | h) <;> cases h

/-- An operation that is carried out and answered concerns its own instance only. -/
theorem advance_answered (hreports : ∀ result, q = .clearing result → result = t.found a)
    (hguar : (protocol key).guar q op) :
    Advance uuids a q (q.next ⟨op, (t.perform uuids a op).1⟩) t (t.perform uuids a op).2 := by
  obtain ⟨htoken, hfound, hmade, -⟩ := perform_frame uuids a op t
  have hscript : ∀ token command, decide ((ifHolds t.now key token command t.store).1 ≠ 0)
      = Function.update t.found a (decide (t.holds key token)) a := by
    intro token command
    rw [Function.update_self, ifHolds_reply]
  cases q with
  | making =>
      obtain rfl : op = .uuid4 := hguar
      exact advance_making
  | trying token =>
      refine advance_trying hguar ?_
      rintro seconds rfl
      exact ⟨_, rfl⟩
  | won token =>
      obtain rfl : op = .assign (some token) := hguar
      exact advance_won token
  | reading =>
      obtain rfl : op = .token := hguar
      exact advance_reading
  | told token =>
      rcases hguar with rfl | ⟨ttlMs, rfl⟩
      · exact Advance.report htoken hfound hmade (fun _ h => h) (Or.inl rfl) (hscript token _)
      · exact Advance.report htoken hfound hmade (fun _ h => h) (Or.inr rfl) (hscript token _)
  | clearing found =>
      obtain rfl : op = .assign none := hguar
      refine Advance.report htoken hfound hmade ?_ (Or.inr rfl) (hreports found rfl)
      intro token' h
      have hassigned : Function.update t.token a none a = some token' := h
      rw [Function.update_self] at hassigned
      cases hassigned
  | acquired => exact hguar.elim
  | ended result => exact hguar.elim
  | failed => exact hguar.elim

/-- Whatever becomes of an operation, the owners stay the same. -/
theorem Owned.command (h : Owned uuids qs t) (hq : qs (a, request) = some q)
    (hguar : (protocol key).guar q op) {d : Delivery Exn} (hlocal : op.isLocal = true → d = .answered) :
    let x := d.outcome (t.perform uuids a op) t
    Owned uuids (Function.update qs (a, request) (some (q.next ⟨op, x.1⟩))) x.2 := by
  intro x
  cases d with
  | answered =>
      refine h.advance hq (advance_answered ?_ hguar)
      intro result heq
      exact h.reports a request q result hq (Or.inl heq)
  | unanswered e =>
      refine h.advance hq (advance_error (d := .unanswered e) ?_ rfl)
      by_contra hop
      cases hlocal (by simpa using hop)
  | lost e =>
      refine h.advance hq (advance_error (d := .lost e) ?_ rfl)
      by_contra hop
      cases hlocal (by simpa using hop)

omit [DecidableEq κ] in
/-- The passage of time changes no owner. -/
theorem Owned.pass (h : Owned uuids qs t) (now : ℚ) : Owned uuids qs { t with now := now } :=
  ⟨h.single, h.acquiring, h.made, h.unique, h.told, h.reports⟩

omit [DecidableEq κ] in
theorem owned_fresh (uuids : ℕ ↪ String) (now : ℚ) :
    Owned uuids (fun _ => none) (freshLocks now : LockPool κ).shared := by
  have hnone : ∀ a token, ¬ Has (fun _ : κ × Request => none) (freshLocks now).shared a token := by
    rintro a token (h | ⟨request, q, h, -⟩)
    · cases h
    · cases h
  refine ⟨?_, ?_, ?_, ?_, ?_, ?_⟩
  · rintro a r r' q q' ⟨⟩
  · rintro a r q ⟨⟩
  · intro a token h
    exact absurd h (hnone a token)
  · intro a b token h
    exact absurd h (hnone a token)
  · rintro a r token ⟨⟩
  · rintro a r q result ⟨⟩

end Perform

/-- In every run the tokens have their owners. -/
theorem owned_run {ls : Locks κ} {uuids : ℕ ↪ String} {passes : LockServer κ → ℚ → Prop} {now : ℚ}
    {s : LockPool κ} (hrun : Pool.Run (lockCalls ls uuids passes) OneTask (freshLocks now) s) :
    ∃ qs, Pool.Meets (protocol ls.key) Ends s.tasks qs ∧ Owned uuids qs s.shared := by
  have hmeets : Pool.Meets (protocol ls.key) Ends (freshLocks now : LockPool κ).tasks
      fun _ => none := fun i => Or.inl ⟨rfl, rfl⟩
  refine Pool.invariant_of_meets (fun qs t => Owned uuids qs t) ?_ ?_ ?_ ?_ ?_ hmeets
    (owned_fresh uuids now) hrun
  · intro qs s i hmeets h _ hok
    exact ⟨.ofRequest i.2, wp_request ls i, h.start fun request' => hmeets.none (hok request')⟩
  · intro qs s i q op d _ h hq hguar hok
    exact ⟨_, rfl, h.command hq hguar hok⟩
  · intro qs t i q r h _ _
    exact h.erase i
  · intro qs s i p q h _ _ _ _
    exact h.erase i
  · rintro qs t t' h ⟨-, -, heq⟩
    rw [heq]
    exact h.pass _

end FraudDetection.Redis
