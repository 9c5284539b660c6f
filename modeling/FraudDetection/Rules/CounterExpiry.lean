import FraudDetection.Async.Pool
import FraudDetection.Rules.CheckVelocity

/-!
# The expiry of velocity counters

Calls of `check_velocity` that run side by side, on any entities. A new counter gets its expiry from
a second command of the call that created it, so a failure between the two commands leaves a counter
that never expires.

A call goes through the phases of `Phase`: it increments, and sets the expiry if it counted one
(`wp_program`). `Tracked` relates the phases of all calls to the counters: a counter without an
expiry belongs to a call that is about to set it. Every command that takes effect preserves it, and
with no call in progress there is no such counter (`counters_forget`).
-/

namespace FraudDetection.Rules

open Async Python Store

/-! ## Calls in progress -/

/-- The arguments of a call. -/
structure VelocityCall where
  entityType : String
  entityValue : Attr
  windowSeconds : ℤ
  limit : ℤ

/-- The key of the call's counter. -/
def VelocityCall.key (py : PyLib) (c : VelocityCall) : String :=
  velocityKey py c.entityType c.entityValue

/-- The call. -/
def VelocityCall.program (py : PyLib) (c : VelocityCall) : Coroutine Bool :=
  checkVelocity py c.entityType c.entityValue (.int c.windowSeconds) (.int c.limit)

/-- Redis, its clock, and for each key the call that last created it and when. -/
structure Server (ι : Type) where
  now : ℚ
  store : RedisStore
  creator : String → Option (ι × ℚ)

variable {ι : Type} [DecidableEq ι]

/-- The creators after a command: `INCR` creates a key that is missing or has expired. -/
def Server.created (t : Server ι) (i : ι) : Op → String → Option (ι × ℚ)
  | .incr key =>
      if t.store.exist t.now key then t.creator
      else Function.update t.creator key (some (i, t.now))
  | .expire _ _ => t.creator

/-- Calls on a Redis server whose clock moves forward. -/
def velocityCalls (lib : RuleLib) (calls : ι → VelocityCall) :
    Setting ι (Server ι) Ret Exn Bool where
  program := fun i => (calls i).program lib.toPyLib
  perform := fun i op t =>
    ((answer lib t.now op t.store).1, ⟨t.now, (answer lib t.now op t.store).2, t.created i op⟩)
  drift := fun t t' => t.now ≤ t'.now ∧ t'.store = t.store ∧ t'.creator = t.creator

/-- No call in progress, and no counters. -/
def freshServer (now : ℚ) : Pool ι (Server ι) Ret Exn Bool where
  tasks := fun _ => none
  shared := ⟨now, fun _ => none, fun _ => none⟩

/-- Every counter expires no later than `δ` after the window of the call that last created it,
counted from its creation; after that the next call counts one. -/
structure Forgets (calls : ι → VelocityCall) (δ : ℚ) (t : Server ι) : Prop where
  expiry : ∀ key e, t.store.find? t.now key = some e → ∃ i created deadline,
    t.creator key = some (i, created) ∧ e.deadline = some deadline ∧
      deadline ≤ created + (calls i).windowSeconds + δ
  restart : ∀ key i created, t.creator key = some (i, created) →
    created + (calls i).windowSeconds + δ < t.now → (incr t.now key t.store).1 = .ok 1

/-- The events after which counters forget: an `INCR` that creates a counter does not lose its
answer, an `EXPIRE` is accepted and takes effect within `δ` of the creation, and no call dies before
it. -/
def Prompt (lib : RuleLib) (δ : ℚ) (s : Pool ι (Server ι) Ret Exn Bool) :
    Happening ι Op Exn → Prop
  | .command _ (.incr key) d =>
      s.shared.store.exist s.shared.now key = false → ∀ e, d ≠ .unanswered e
  | .command _ (.expire key seconds) d =>
      (∀ e, d ≠ .lost e) ∧ (∃ w, lib.expireArgument seconds = .ok w) ∧
        ∀ i created, s.shared.creator key = some (i, created) → s.shared.now ≤ created + δ
  | .die i => ∀ key seconds k, s.tasks i ≠ some (.call (.expire key seconds) k)
  | _ => True

/-! ## Phases -/

/-- Where a call stands: before its `INCR`, or about to set the expiry of the counter it created, or
past its last command. -/
inductive Phase where
  | fresh (key : String) (seconds : Json)
  | pending (key : String) (seconds : Json)
  | done

/-- The phase after a command. -/
def Phase.next (q : Phase) (ev : Event Ret Exn) : Phase :=
  match q, ev with
  | .fresh key seconds, ⟨.incr _, .ok n⟩ => if n = 1 then .pending key seconds else .done
  | _, _ => .done

/-- A call increments its key, and then sets the expiry of the same key. -/
def twoCommands : Contract Phase Ret Exn where
  guar := fun q op =>
    match q with
    | .fresh key _ => op = .incr key
    | .pending key seconds => op = .expire key seconds
    | .done => False
  rely := fun q ev q' => q' = q.next ev

/-- The phase in which a call starts. -/
def VelocityCall.phase (py : PyLib) (c : VelocityCall) : Phase :=
  .fresh (c.key py) (.int c.windowSeconds)

/-- A call that does not count one has nothing more to do. -/
theorem phase_next_of_ne (py : PyLib) (c : VelocityCall) (key : String) {r : Except Exn ℤ}
    (h : ∀ n, r = .ok n → n ≠ 1) : (c.phase py).next ⟨.incr key, r⟩ = .done := by
  cases r with
  | error x => rfl
  | ok n => exact if_neg (h n rfl)

/-- A call does not end with an expiry to set. -/
theorem wp_program (py : PyLib) (c : VelocityCall) : (c.program py).wp twoCommands
    (fun _ q => ∀ key seconds, q ≠ .pending key seconds) (c.phase py) := by
  unfold VelocityCall.program checkVelocity
  refine Prog.wp_await_seq rfl ?_ ?_
  · rintro x q rfl key seconds h
    cases h
  · rintro n q rfl
    by_cases hn : n = 1
    · subst hn
      simp only [if_true]
      refine Prog.wp_await_seq rfl ?_ ?_
      · rintro x q rfl key seconds h
        cases h
      · rintro u q rfl
        rw [Prog.wp_lift]
        intro key seconds h
        cases h
    · rw [phase_next_of_ne py c _ (by rintro m ⟨⟩; exact hn)]
      simp only [if_neg hn]
      rw [Prog.wp_lift]
      intro key seconds h
      cases h

/-! ## The invariant -/

/-- How the phases of the calls and the counters fit together: calls are in phases of their own,
each counter is positive and expires in time unless its creator is about to set the expiry, and such
a call finds its counter. -/
structure Tracked (py : PyLib) (calls : ι → VelocityCall) (δ : ℚ) (qs : ι → Option Phase)
    (ks : RedisStore) (creator : String → Option (ι × ℚ)) : Prop where
  own : ∀ i q, qs i = some q → q = (calls i).phase py ∨
    q = .pending ((calls i).key py) (.int (calls i).windowSeconds) ∨ q = .done
  counter : ∀ key e, ks key = some e → ∃ n i created, e.value = .int n ∧ 1 ≤ n ∧
    creator key = some (i, created) ∧
      ((e.deadline = none ∧ ∃ seconds, qs i = some (.pending key seconds)) ∨
        ∃ deadline, e.deadline = some deadline ∧
          deadline ≤ created + (calls i).windowSeconds + δ)
  pending : ∀ i key seconds, qs i = some (.pending key seconds) → ∃ n created,
    ks key = some ⟨.int n, none⟩ ∧ creator key = some (i, created)

section Tracked

variable {py : PyLib} {calls : ι → VelocityCall} {δ : ℚ} {qs : ι → Option Phase} {ks : RedisStore}
  {creator : String → Option (ι × ℚ)}

/-- A call that has nothing pending may change its phase to one that has nothing pending. -/
theorem Tracked.update (h : Tracked py calls δ qs ks creator) {i : ι} {o : Option Phase}
    (hbefore : ∀ key seconds, qs i ≠ some (.pending key seconds))
    (hafter : ∀ key seconds, o ≠ some (.pending key seconds))
    (hown : ∀ q, o = some q → q = (calls i).phase py ∨ q = .done) :
    Tracked py calls δ (Function.update qs i o) ks creator where
  own := by
    intro j q hq
    rcases Pool.update_cases hq with ⟨rfl, hnew⟩ | ⟨-, hold⟩
    · exact (hown q hnew).imp_right Or.inr
    · exact h.own j q hold
  counter := by
    intro key e he
    obtain ⟨n, j, created, hvalue, hn, hcreator, hdeadline⟩ := h.counter key e he
    refine ⟨n, j, created, hvalue, hn, hcreator, hdeadline.imp_left ?_⟩
    rintro ⟨hnone, seconds, hj⟩
    exact ⟨hnone, seconds, Pool.update_kept (hbefore key seconds) hj⟩
  pending := by
    intro j key seconds hj
    rcases Pool.update_cases hj with ⟨-, hnew⟩ | ⟨-, hold⟩
    · exact absurd hnew (hafter key seconds)
    · exact h.pending j key seconds hold

omit [DecidableEq ι] in
/-- A counter that goes on counting keeps its deadline and its creator. -/
theorem Tracked.count (h : Tracked py calls δ qs ks creator) {key : String} {n m : ℤ}
    {d : Option ℚ} (hstored : ks key = some ⟨.int n, d⟩) (hm : 1 ≤ m) :
    Tracked py calls δ qs (ks.set key (.int m) d) creator where
  own := h.own
  counter := by
    intro key' e he
    by_cases hkey : key' = key
    · subst hkey
      rw [Keyspace.set_self] at he
      cases he
      obtain ⟨-, i, created, -, -, hcreator, hdeadline⟩ := h.counter key' _ hstored
      exact ⟨m, i, created, rfl, hm, hcreator, hdeadline⟩
    · rw [Keyspace.set_of_ne _ hkey] at he
      exact h.counter key' e he
  pending := by
    intro i key' seconds hi
    obtain ⟨n', created, hstored', hcreator⟩ := h.pending i key' seconds hi
    by_cases hkey : key' = key
    · subst hkey
      rw [hstored] at hstored'
      cases hstored'
      exact ⟨m, created, Keyspace.set_self .., hcreator⟩
    · refine ⟨n', created, ?_, hcreator⟩
      rw [Keyspace.set_of_ne _ hkey]
      exact hstored'

/-- The call that creates a counter has its expiry to set. -/
theorem Tracked.create (h : Tracked py calls δ qs ks creator) {i : ι} {now : ℚ}
    (hi : qs i = some ((calls i).phase py)) (hmissing : ks.find? now ((calls i).key py) = none) :
    Tracked py calls δ
      (Function.update qs i (some (.pending ((calls i).key py) (.int (calls i).windowSeconds))))
      (ks.set ((calls i).key py) (.int 1) none)
      (Function.update creator ((calls i).key py) (some (i, now))) where
  own := by
    intro j q hq
    rcases Pool.update_cases hq with ⟨rfl, hnew⟩ | ⟨-, hold⟩
    · cases hnew
      exact Or.inr (Or.inl rfl)
    · exact h.own j q hold
  counter := by
    intro key e he
    by_cases hkey : key = (calls i).key py
    · subst hkey
      rw [Keyspace.set_self] at he
      cases he
      refine ⟨1, i, now, rfl, le_rfl, Function.update_self .., Or.inl ⟨rfl, ?_⟩⟩
      exact ⟨_, Function.update_self ..⟩
    · rw [Keyspace.set_of_ne _ hkey] at he
      obtain ⟨n, j, created, hvalue, hn, hcreator, hdeadline⟩ := h.counter key e he
      refine ⟨n, j, created, hvalue, hn, ?_, hdeadline.imp_left ?_⟩
      · rw [Function.update_of_ne hkey]
        exact hcreator
      · rintro ⟨hnone, seconds, hj⟩
        refine ⟨hnone, seconds, Pool.update_kept ?_ hj⟩
        rw [hi]
        rintro ⟨⟩
  pending := by
    intro j key seconds hj
    rcases Pool.update_cases hj with ⟨rfl, hnew⟩ | ⟨-, hold⟩
    · cases hnew
      exact ⟨1, now, Keyspace.set_self .., Function.update_self ..⟩
    · obtain ⟨n, created, hstored, hcreator⟩ := h.pending j key seconds hold
      -- a counter without an expiry is not missing
      have hkey : key ≠ (calls i).key py := by
        rintro rfl
        rw [Keyspace.find?_of_live hstored (by simp)] at hmissing
        cases hmissing
      refine ⟨n, created, ?_, ?_⟩
      · rw [Keyspace.set_of_ne _ hkey]
        exact hstored
      · rw [Function.update_of_ne hkey]
        exact hcreator

/-- Setting the expiry in time. -/
theorem Tracked.expire (h : Tracked py calls δ qs ks creator) {i : ι} {now : ℚ}
    (hi : qs i = some (.pending ((calls i).key py) (.int (calls i).windowSeconds)))
    (hprompt : ∀ j created, creator ((calls i).key py) = some (j, created) → now ≤ created + δ) :
    Tracked py calls δ (Function.update qs i (some .done))
      (ks.expireAt now ((calls i).key py) (now + (calls i).windowSeconds)) creator := by
  obtain ⟨n, created, hstored, hcreator⟩ := h.pending i _ _ hi
  have hkey : ks.expireAt now ((calls i).key py) (now + (calls i).windowSeconds)
      ((calls i).key py) = if now < now + (calls i).windowSeconds
        then some ⟨.int n, some (now + (calls i).windowSeconds)⟩ else none := by
    rw [Keyspace.expireAt, Keyspace.alter_self, Keyspace.find?_of_live hstored (by simp)]
    rfl
  have hother : ∀ key, key ≠ (calls i).key py →
      ks.expireAt now ((calls i).key py) (now + (calls i).windowSeconds) key = ks key :=
    fun key hne => (Keyspace.ActsOn.expireAt _ _ _).frame _ key hne
  refine ⟨?_, ?_, ?_⟩
  · intro j q hq
    rcases Pool.update_cases hq with ⟨rfl, hnew⟩ | ⟨-, hold⟩
    · cases hnew
      exact Or.inr (Or.inr rfl)
    · exact h.own j q hold
  · intro key e he
    by_cases hne : key = (calls i).key py
    · subst hne
      obtain ⟨m, -, -, hvalue, hm, -, -⟩ := h.counter _ _ hstored
      cases hvalue
      rw [hkey] at he
      split at he
      · cases he
        -- the window starts at most `δ` after the creation
        refine ⟨n, i, created, rfl, hm, hcreator, Or.inr ⟨_, rfl, ?_⟩⟩
        have hle := hprompt i created hcreator
        linarith
      · cases he
    · rw [hother key hne] at he
      obtain ⟨m, j, c, hvalue, hm, hcreator', hdeadline⟩ := h.counter key e he
      refine ⟨m, j, c, hvalue, hm, hcreator', hdeadline.imp_left ?_⟩
      rintro ⟨hnone, seconds, hj⟩
      refine ⟨hnone, seconds, Pool.update_kept ?_ hj⟩
      rw [hi]
      rintro ⟨⟩
      exact hne rfl
  · intro j key seconds hj
    rcases Pool.update_cases hj with ⟨-, hnew⟩ | ⟨hji, hold⟩
    · cases hnew
    · obtain ⟨m, c, hstored', hcreator'⟩ := h.pending j key seconds hold
      -- the counter of `i` has no second creator
      have hne : key ≠ (calls i).key py := by
        rintro rfl
        rw [hcreator] at hcreator'
        cases hcreator'
        exact hji rfl
      refine ⟨m, c, ?_, hcreator'⟩
      rw [hother key hne]
      exact hstored'

/-- A call whose `INCR` did nothing has nothing more to do. -/
theorem Tracked.idle (h : Tracked py calls δ qs ks creator) {i : ι}
    (hi : qs i = some ((calls i).phase py)) :
    Tracked py calls δ (Function.update qs i (some .done)) ks creator := by
  refine h.update ?_ ?_ ?_
  · intro key seconds hpending
    rw [hi] at hpending
    cases hpending
  · intro key seconds hpending
    cases hpending
  · rintro q ⟨⟩
    exact Or.inr rfl

/-- `INCR` creates the counter of a call, or goes on counting. -/
theorem Tracked.incr (h : Tracked py calls δ qs ks creator) {i : ι} (now : ℚ)
    (hi : qs i = some ((calls i).phase py)) :
    let x := incr now ((calls i).key py) ks
    (ks.exist now ((calls i).key py) = false → x.1 = .ok 1 ∧ Tracked py calls δ
      (Function.update qs i (some (.pending ((calls i).key py) (.int (calls i).windowSeconds))))
      x.2 (Function.update creator ((calls i).key py) (some (i, now)))) ∧
    (ks.exist now ((calls i).key py) = true → (∀ n, x.1 = .ok n → n ≠ 1) ∧
      Tracked py calls δ (Function.update qs i (some .done)) x.2 creator) := by
  intro x
  constructor
  · intro hmissing
    have hnone : ks.find? now ((calls i).key py) = none := by
      simpa [Keyspace.exist] using hmissing
    have hx : x = (.ok 1, ks.set ((calls i).key py) (.int 1) none) := by
      show Rules.incr now ((calls i).key py) ks = _
      rw [Rules.incr, hnone]
    rw [hx]
    exact ⟨rfl, h.create hi hnone⟩
  · intro hexists
    obtain ⟨e, hfound⟩ := Option.isSome_iff_exists.mp hexists
    obtain ⟨n, -, -, hvalue, hn, -, -⟩ := h.counter _ e (Keyspace.eq_some_of_find? hfound)
    obtain ⟨v, d⟩ := e
    obtain rfl : v = .int n := hvalue
    have hx : x = if n < counterMax then (.ok (n + 1), ks.set ((calls i).key py) (.int (n + 1)) d)
        else (.error ⟨.other "ResponseError", "increment or decrement would overflow"⟩, ks) := by
      show Rules.incr now ((calls i).key py) ks = _
      rw [Rules.incr, hfound]
    rw [hx]
    split
    · refine ⟨?_, (h.idle hi).count (Keyspace.eq_some_of_find? hfound) (by omega)⟩
      rintro m ⟨⟩
      omega
    -- the counter is at its maximum: an error, and no key is created
    · refine ⟨?_, h.idle hi⟩
      rintro m ⟨⟩

end Tracked

/-! ## Runs -/

section Runs

variable {lib : RuleLib} {calls : ι → VelocityCall} {δ : ℚ}

/-- A command of a prompt call takes the invariant on. -/
theorem tracked_command {qs : ι → Option Phase} {s : Pool ι (Server ι) Ret Exn Bool} {i : ι}
    {q : Phase} {op : Op} {d : Delivery Exn}
    (h : Tracked lib.toPyLib calls δ qs s.shared.store s.shared.creator) (hi : qs i = some q)
    (hguar : twoCommands.guar q op) (hprompt : Prompt lib δ s (.command i op d)) :
    let x := d.outcome ((velocityCalls lib calls).perform i op s.shared) s.shared
    Tracked lib.toPyLib calls δ (Function.update qs i (some (q.next ⟨op, x.1⟩)))
      x.2.store x.2.creator := by
  rcases h.own i q hi with rfl | rfl | rfl
  · obtain rfl : op = .incr ((calls i).key lib.toPyLib) := hguar
    obtain ⟨hcreate, hcount⟩ := h.incr s.shared.now hi
    by_cases hexists : s.shared.store.exist s.shared.now ((calls i).key lib.toPyLib) = true
    · obtain ⟨hne, htracked⟩ := hcount hexists
      have hcreator : s.shared.created i (.incr ((calls i).key lib.toPyLib)) = s.shared.creator :=
        if_pos hexists
      rw [← hcreator] at htracked
      cases d with
      | answered =>
          intro x
          rw [phase_next_of_ne (r := x.1) _ _ _ hne]
          exact htracked
      | unanswered e => exact htracked
      | lost e => exact h.idle hi
    · rw [Bool.not_eq_true] at hexists
      cases d with
      | answered =>
          obtain ⟨hone, htracked⟩ := hcreate hexists
          have hcreator : s.shared.created i (.incr ((calls i).key lib.toPyLib))
              = Function.update s.shared.creator ((calls i).key lib.toPyLib)
                (some (i, s.shared.now)) := if_neg (by rw [hexists]; simp)
          rw [← hcreator] at htracked
          intro x
          have hx : x.1 = .ok 1 := hone
          rw [hx]
          exact htracked
      | unanswered e => exact absurd rfl (hprompt hexists e)
      | lost e => exact h.idle hi
  · obtain rfl : op = .expire ((calls i).key lib.toPyLib) (.int (calls i).windowSeconds) := hguar
    obtain ⟨hlost, ⟨w, hw⟩, htime⟩ := hprompt
    have hstore : ((velocityCalls lib calls).perform i
        (.expire ((calls i).key lib.toPyLib) (.int (calls i).windowSeconds)) s.shared).2.store
        = s.shared.store.expireAt s.shared.now ((calls i).key lib.toPyLib)
          (s.shared.now + (calls i).windowSeconds) := by
      show (expire lib _ _ _ _).2 = _
      rw [Rules.expire, hw, lib.expireArgument_of_int _ _ hw]
    have htracked := h.expire hi htime
    rw [← hstore] at htracked
    cases d with
    | answered => exact htracked
    | unanswered e => exact htracked
    | lost e => exact absurd rfl (hlost e)
  · exact hguar.elim

/-- In a run of prompt calls, the invariant holds. -/
theorem tracked_run {now : ℚ} {s : Pool ι (Server ι) Ret Exn Bool}
    (hrun : Pool.Run (velocityCalls lib calls) (Prompt lib δ) (freshServer now) s) :
    ∃ qs, Pool.Meets twoCommands (fun _ q => ∀ key seconds, q ≠ .pending key seconds) s.tasks qs ∧
      Tracked lib.toPyLib calls δ qs s.shared.store s.shared.creator := by
  have hmeets : Pool.Meets twoCommands (fun _ q => ∀ key seconds, q ≠ .pending key seconds)
      (freshServer now : Pool ι (Server ι) Ret Exn Bool).tasks fun _ => none :=
    fun i => Or.inl ⟨rfl, rfl⟩
  have hfresh : Tracked lib.toPyLib calls δ (fun _ => none) (fun _ => none) fun _ => none := by
    refine ⟨?_, ?_, ?_⟩
    · intro i q hq
      cases hq
    · intro key e he
      cases he
    · intro i key seconds hi
      cases hi
  refine Pool.invariant (fun qs t => Tracked lib.toPyLib calls δ qs t.store t.creator)
    ?_ ?_ ?_ ?_ ?_ hmeets hfresh hrun
  · intro qs t i h hi
    refine ⟨(calls i).phase lib.toPyLib, wp_program _ _, h.update ?_ ?_ ?_⟩
    · intro key seconds hpending
      rw [hi] at hpending
      cases hpending
    · intro key seconds hpending
      cases hpending
    · rintro q ⟨⟩
      exact Or.inl rfl
  · intro qs s i q op d h hi hguar hprompt
    exact ⟨_, rfl, tracked_command h hi hguar hprompt⟩
  · intro qs t i q r h hi hend
    refine h.update ?_ ?_ ?_
    · intro key seconds hpending
      rw [hi] at hpending
      cases hpending
      exact hend key seconds rfl
    · intro key seconds hpending
      cases hpending
    · intro q' hq'
      cases hq'
  · intro qs s i p q h hp hi hwp hprompt
    -- a call with an expiry to set awaits its `EXPIRE`, and does not die there
    refine h.update ?_ ?_ ?_
    · intro key seconds hpending
      rw [hi] at hpending
      cases hpending
      cases p with
      | pure b => exact hwp key seconds rfl
      | raise x => exact hwp key seconds rfl
      | call op k =>
          obtain rfl : op = .expire key seconds := hwp.1
          exact hprompt key seconds k hp
    · intro key seconds hpending
      cases hpending
    · intro q' hq'
      cases hq'
  · rintro qs t t' h ⟨-, hstore, hcreator⟩
    rw [hstore, hcreator]
    exact h

/-- In every state without a call in progress, of a run in which no call that creates a counter
fails, dies or is answered in vain before its `EXPIRE` takes effect, within `δ` of the creation:
every counter expires no later than `δ` after the window of its creator, and counting starts again
from one. -/
theorem counters_forget (lib : RuleLib) (calls : ι → VelocityCall) (δ now : ℚ)
    (s : Pool ι (Server ι) Ret Exn Bool)
    (hrun : Pool.Run (velocityCalls lib calls) (Prompt lib δ) (freshServer now) s)
    (hquiet : s.Quiet) : Forgets calls δ s.shared := by
  obtain ⟨qs, hmeets, htracked⟩ := tracked_run hrun
  have hcounter : ∀ key e, s.shared.store key = some e → ∃ i created deadline,
      s.shared.creator key = some (i, created) ∧ e.deadline = some deadline ∧
        deadline ≤ created + (calls i).windowSeconds + δ := by
    intro key e he
    obtain ⟨-, i, created, -, -, hcreator, ⟨-, seconds, hi⟩ | ⟨deadline, hdeadline, hle⟩⟩ :=
      htracked.counter key e he
    · rw [hmeets.none (hquiet i)] at hi
      cases hi
    · exact ⟨i, created, deadline, hcreator, hdeadline, hle⟩
  refine ⟨fun key e he => hcounter key e (Keyspace.eq_some_of_find? he), ?_⟩
  intro key i created hcreator hidle
  have hnone : s.shared.store.find? s.shared.now key = none := by
    rw [Option.eq_none_iff_forall_ne_some]
    intro e he
    obtain ⟨j, c, deadline, hcreator', hdeadline, hle⟩ :=
      hcounter key e (Keyspace.eq_some_of_find? he)
    have hlive := Keyspace.le_of_find? he deadline hdeadline
    rw [hcreator] at hcreator'
    cases hcreator'
    linarith
  rw [incr, hnone]

end Runs

/-! ### A lost `EXPIRE` -/

/-- Calls on one card, with the window and the limit of the seeded velocity rule. -/
def cardCalls (_ : Unit) : VelocityCall where
  entityType := "card_number"
  entityValue := .value (.str "c-1")
  windowSeconds := 86400
  limit := 5

/-- The exception of a command that does not reach Redis. -/
def connectionError : Exn := ⟨.other "ConnectionError", "Connection closed by server."⟩

/-- What a first call leaves, depending on how its commands fare. -/
def afterCall (ds : List (Delivery Exn)) : Server Unit :=
  Pool.script ((velocityCalls compactRules cardCalls).perform ())
    ((cardCalls ()).program compactRules.toPyLib) ds ⟨0, fun _ => none, fun _ => none⟩

theorem run_afterCall {ok : Pool Unit (Server Unit) Ret Exn Bool → Happening Unit Op Exn → Prop}
    {ds : List (Delivery Exn)} (hstart : ok (freshServer 0) (.start ()))
    (hok : Pool.Fares (velocityCalls compactRules cardCalls) ok ()
      ((cardCalls ()).program compactRules.toPyLib) ds
      ⟨Function.update (fun _ => none) () (some ((cardCalls ()).program compactRules.toPyLib)),
        ⟨0, fun _ => none, fun _ => none⟩⟩) :
    Pool.Run (velocityCalls compactRules cardCalls) ok (freshServer 0)
      ⟨fun _ => none, afterCall ds⟩ :=
  Pool.run_task rfl hstart hok

theorem fares_prompt : Pool.Fares (velocityCalls compactRules cardCalls) (Prompt compactRules 0) ()
    ((cardCalls ()).program compactRules.toPyLib) [.answered, .answered]
    ⟨Function.update (fun _ => none) () (some ((cardCalls ()).program compactRules.toPyLib)),
      ⟨0, fun _ => none, fun _ => none⟩⟩ := by
  refine ⟨?_, ⟨?_, ?_, ?_⟩, trivial⟩
  · intro _ e h
    cases h
  · intro e h
    cases h
  · exact ⟨86400, compactRules.expireArgument_int 86400 (by decide)⟩
  · intro i created hcreator
    have hupdated : (Function.update (fun _ => none) ((cardCalls ()).key compactRules.toPyLib)
        (some ((), (0 : ℚ)))) ((cardCalls ()).key compactRules.toPyLib) = some (i, created) :=
      hcreator
    rw [Function.update_self] at hupdated
    cases hupdated
    exact le_of_eq (add_zero (0 : ℚ)).symm

/-- A call that completes. -/
theorem counters_forget_card : Forgets cardCalls 0 (afterCall [.answered, .answered]) :=
  counters_forget compactRules cardCalls 0 0 ⟨fun _ => none, afterCall [.answered, .answered]⟩
    (run_afterCall trivial fares_prompt) fun _ => rfl

theorem lost_expire_never_forgets : ¬ ∀ s,
    Pool.Run (velocityCalls compactRules cardCalls) (fun _ _ => True) (freshServer 0) s →
    s.Quiet → Forgets cardCalls 0 s.shared := by
  intro hclaim
  have hrun := @run_afterCall (fun _ _ => True) [.answered, .lost connectionError] trivial
    ⟨trivial, trivial, trivial⟩
  have hstore : (afterCall [.answered, .lost connectionError]).store
      = Keyspace.set (fun _ => none) ((cardCalls ()).key compactRules.toPyLib) (.int 1) none := rfl
  have hstored : (afterCall [.answered, .lost connectionError]).store
      ((cardCalls ()).key compactRules.toPyLib) = some ⟨.int 1, none⟩ := by
    rw [hstore]
    exact Keyspace.set_self ..
  obtain ⟨-, -, deadline, -, hdeadline, -⟩ :=
    (hclaim _ hrun fun _ => rfl).expiry _ _ (Keyspace.find?_of_live hstored (by simp))
  cases hdeadline

end FraudDetection.Rules
