import FraudDetection.Redis.LockHolder

/-!
# Mutual exclusion

An instance takes itself to be locked as long as it has a token, whatever became of the key. So two
instances are locked at once when an expiry is reached first, or when a release has deleted the key
and not yet cleared the token. Runs without such steps keep the instances apart.

`Guarded` says that an instance with a token has the key, or is about to clear the token and nobody
has the key. The token that the key holds has one owner (`Owned`), so there is one such instance
(`Guarded.exclusive`).
-/

namespace FraudDetection.Redis

open Async Python Store

variable {κ : Type} [DecidableEq κ]

/-- A call is about to clear the token of its instance. -/
def Clearing (s : LockPool κ) (i : κ × Request) : Prop :=
  ∃ k, s.tasks i = some (.call (LockOp.assign none) k)

/-- The key does not expire while the instance with its token is locked. -/
def Timely (ls : Locks κ) (t : LockServer κ) (now : ℚ) : Prop :=
  ∀ a token deadline, t.token a = some token →
    t.store.find? t.now ls.key = some ⟨token, some deadline⟩ → now ≤ deadline

/-- The events that keep the instances apart. No attempt is carried out between the script of a
release and its return; the answer to a successful attempt arrives while the key holds the token; a
release is not cut off after its script; and no lock is extended by a time that is not positive. -/
def Undisturbed (ls : Locks κ) (s : LockPool κ) (l : Happening (κ × Request) LockOp Exn) : Prop :=
  OneTask s l ∧
    match l with
    | .command _ (.set _ _ _) _ => ∀ i, ¬ Clearing s i
    | .command _ (.assign (some token)) _ => s.shared.holds ls.key token
    | .command _ (.release _ _) d => ∀ e, d ≠ .unanswered e
    | .command _ (.extend _ _ ttlMs) _ => 0 < ttlMs
    | .die i => ¬ Clearing s i
    | _ => True

/-! ## The invariant -/

/-- An instance with a token has the key, or is about to clear the token when the key is gone. -/
structure Guarded (key : String) (qs : κ × Request → Option Phase) (t : LockServer κ) : Prop where
  held : ∀ a token, t.token a = some token → t.holds key token ∨
    ∃ request result, qs (a, request) = some (.clearing result)
  cleared : ∀ i result, qs i = some (.clearing result) → t.store.find? t.now key = none
  alone : ∀ i j result result', qs i = some (.clearing result) → qs j = some (.clearing result') →
    i = j

section Guarded

variable {uuids : ℕ ↪ String} {key : String} {qs : κ × Request → Option Phase}
  {t t' : LockServer κ} {a : κ} {request : Request} {i : κ × Request} {q : Phase} {token : String}

omit [DecidableEq κ] in
/-- A key that holds a token is there. -/
theorem find?_ne_none (h : t.holds key token) : t.store.find? t.now key ≠ none := by
  obtain ⟨d, hfound⟩ := holds_iff.mp h
  rw [hfound]
  simp

omit [DecidableEq κ] in
/-- Two instances are not locked at once. -/
theorem Guarded.exclusive (h : Guarded key qs t) (howned : Owned uuids qs t) {b : κ}
    (ha : t.isLocked a = true) (hb : t.isLocked b = true) : a = b := by
  obtain ⟨tokenA, ha⟩ := Option.isSome_iff_exists.mp ha
  obtain ⟨tokenB, hb⟩ := Option.isSome_iff_exists.mp hb
  rcases h.held a tokenA ha with hholdsA | ⟨requestA, resultA, hclearA⟩
  · rcases h.held b tokenB hb with hholdsB | ⟨requestB, resultB, hclearB⟩
    · obtain rfl := holds_unique hholdsA hholdsB
      exact howned.unique a b tokenA (Or.inl ha) (Or.inl hb)
    · exact absurd (h.cleared _ _ hclearB) (find?_ne_none hholdsA)
  · rcases h.held b tokenB hb with hholdsB | ⟨requestB, resultB, hclearB⟩
    · exact absurd (h.cleared _ _ hclearA) (find?_ne_none hholdsB)
    · exact congrArg Prod.fst (h.alone _ _ _ _ hclearA hclearB)

omit [DecidableEq κ] in
/-- An instance that was told its token has the key. -/
theorem Guarded.told (h : Guarded key qs t) (howned : Owned uuids qs t)
    (hq : qs (a, request) = some (.told token)) : t.holds key token := by
  rcases h.held a token (howned.told a request token hq) with hholds | ⟨request', result, hclear⟩
  · exact hholds
  · obtain rfl := howned.single a request request' _ _ hq hclear
    rw [hq] at hclear
    cases hclear

/-- A call that is not about to clear its token after a step does not count as such. -/
theorem clearing_of_update {o : Option Phase} (hafter : ∀ result, o ≠ some (.clearing result))
    {j : κ × Request} {result : Bool} (hj : Function.update qs i o j = some (.clearing result)) :
    qs j = some (.clearing result) := by
  rcases Pool.update_cases hj with ⟨-, hnew⟩ | ⟨-, hold⟩
  · exact absurd hnew (hafter result)
  · exact hold

/-- A step of a call that is not about to clear its token, and does not touch tokens. -/
theorem Guarded.quiet (h : Guarded key qs t) {o : Option Phase}
    (hbefore : ∀ result, qs i ≠ some (.clearing result))
    (hafter : ∀ result, o ≠ some (.clearing result)) (htoken : t'.token = t.token)
    (hholds : ∀ token, t.holds key token → t'.holds key token)
    (hnone : (∃ j result, qs j = some (.clearing result)) → t.store.find? t.now key = none →
      t'.store.find? t'.now key = none) :
    Guarded key (Function.update qs i o) t' := by
  refine ⟨?_, ?_, ?_⟩
  · intro b token hb
    rw [htoken] at hb
    rcases h.held b token hb with hheld | ⟨request', result, hclear⟩
    · exact Or.inl (hholds token hheld)
    · exact Or.inr ⟨request', result, Pool.update_kept (hbefore result) hclear⟩
  · intro j result hj
    have hold := clearing_of_update hafter hj
    exact hnone ⟨j, result, hold⟩ (h.cleared j result hold)
  · intro j j' result result' hj hj'
    exact h.alone j j' result result' (clearing_of_update hafter hj) (clearing_of_update hafter hj')

/-- A call that starts, ends or changes its phase. -/
theorem Guarded.move (h : Guarded key qs t) {o : Option Phase}
    (hbefore : ∀ result, qs i ≠ some (.clearing result))
    (hafter : ∀ result, o ≠ some (.clearing result)) :
    Guarded key (Function.update qs i o) t :=
  h.quiet hbefore hafter rfl (fun _ hholds => hholds) fun _ hnone => hnone

/-- A successful attempt finds no instance with a token. -/
theorem Guarded.acquire (h : Guarded key qs t) {o : Option Phase}
    (hafter : ∀ result, o ≠ some (.clearing result))
    (hclear : ∀ j result, qs j ≠ some (.clearing result)) (hnone : t.store.find? t.now key = none)
    (store : LockStore) :
    Guarded key (Function.update qs i o) { t with store := store } := by
  have htoken : ∀ b token, t.token b ≠ some token := by
    intro b token hb
    rcases h.held b token hb with hheld | ⟨request', result, hj⟩
    · exact find?_ne_none hheld hnone
    · exact hclear _ _ hj
  have hold : ∀ j result, Function.update qs i o j ≠ some (.clearing result) := by
    intro j result hj
    exact hclear j result (clearing_of_update hafter hj)
  refine ⟨?_, ?_, ?_⟩
  · intro b token hb
    exact absurd hb (htoken b token)
  · intro j result hj
    exact absurd hj (hold j result)
  · intro j j' result result' hj
    exact absurd hj (hold j result)

/-- The answer to a successful attempt arrives in time. -/
theorem Guarded.assign (h : Guarded key qs t) {o : Option Phase}
    (hbefore : ∀ result, qs i ≠ some (.clearing result))
    (hafter : ∀ result, o ≠ some (.clearing result)) (hholds : t.holds key token) :
    Guarded key (Function.update qs i o)
      { t with token := Function.update t.token i.1 (some token) } := by
  obtain ⟨held, cleared, alone⟩ := h.move hbefore hafter
  refine ⟨?_, cleared, alone⟩
  intro b token' hb
  have hassigned : Function.update t.token i.1 (some token) b = some token' := hb
  rcases Pool.update_cases hassigned with ⟨-, hnew⟩ | ⟨-, hold⟩
  · cases hnew
    exact Or.inl hholds
  · exact held b token' hold

/-- A release deletes the key of the only instance that has it. -/
theorem Guarded.release (h : Guarded key qs t) (howned : Owned uuids qs t)
    (hq : qs (a, request) = some (.told token)) {result : Bool} {store : LockStore}
    (hstore : store key = none) (found : κ → Bool) :
    Guarded key (Function.update qs (a, request) (some (.clearing result)))
      { t with store := store, found := found } := by
  have hholds := h.told howned hq
  have hfree : ∀ j result', qs j ≠ some (.clearing result') := by
    intro j result' hj
    exact find?_ne_none hholds (h.cleared j result' hj)
  have hold : ∀ j result', Function.update qs (a, request) (some (.clearing result)) j
      = some (.clearing result') → j = (a, request) := by
    intro j result' hj
    rcases Pool.update_cases hj with ⟨hsame, -⟩ | ⟨-, hold⟩
    · exact hsame
    · exact absurd hold (hfree j result')
  refine ⟨?_, ?_, ?_⟩
  · intro b token' hb
    right
    rcases h.held b token' hb with hheld | ⟨request', result', hj⟩
    · obtain rfl := holds_unique hheld hholds
      obtain rfl := howned.unique b a _ (Or.inl hb) (Or.inl (howned.told a request _ hq))
      exact ⟨request, result, Function.update_self ..⟩
    · exact absurd hj (hfree _ _)
  · intro j result' _
    exact Keyspace.find?_of_none hstore
  · intro j j' result₁ result₂ hj hj'
    rw [hold j result₁ hj, hold j' result₂ hj']

/-- A release returns. -/
theorem Guarded.clear (h : Guarded key qs t) {o : Option Phase}
    (hafter : ∀ result', o ≠ some (.clearing result')) :
    Guarded key (Function.update qs (a, request) o)
      { t with token := Function.update t.token a none } := by
  refine ⟨?_, ?_, ?_⟩
  · intro b token' hb
    have hassigned : Function.update t.token a none b = some token' := hb
    rcases Pool.update_cases hassigned with ⟨-, hnew⟩ | ⟨hba, hold⟩
    · cases hnew
    · refine (h.held b token' hold).imp_right ?_
      rintro ⟨request', result', hj⟩
      refine ⟨request', result', ?_⟩
      rw [Function.update_of_ne]
      · exact hj
      · rintro ⟨⟩
        exact hba rfl
  · intro j result' hj
    exact h.cleared j result' (clearing_of_update hafter hj)
  · intro j j' result₁ result₂ hj hj'
    exact h.alone j j' result₁ result₂ (clearing_of_update hafter hj) (clearing_of_update hafter hj')

/-- An attempt, whether or not it succeeds. -/
theorem Guarded.attempt (h : Guarded key qs t) {o : Option Phase}
    (hbefore : ∀ result, qs i ≠ some (.clearing result))
    (hafter : ∀ result, o ≠ some (.clearing result))
    (hclear : ∀ j result, qs j ≠ some (.clearing result)) (token : String) (ex : ℤ) :
    Guarded key (Function.update qs i o)
      { t with store := (setNx t.now key token ex t.store).2 } := by
  by_cases hnone : t.store.find? t.now key = none
  · exact h.acquire hafter hclear hnone _
  · have hexist : t.store.exist t.now key = true := by
      rw [Keyspace.exist]
      exact Option.isSome_iff_ne_none.mpr hnone
    rw [setNx_of_exist hexist ex]
    exact h.move hbefore hafter

/-- An extension by a positive time. -/
theorem Guarded.extend (h : Guarded key qs t) {o : Option Phase}
    (hbefore : ∀ result, qs i ≠ some (.clearing result))
    (hafter : ∀ result, o ≠ some (.clearing result)) {ttlMs : ℤ} (hms : 0 < ttlMs)
    (uuids : ℕ ↪ String) :
    Guarded key (Function.update qs i o) (t.perform uuids a (.extend key token ttlMs)).2 := by
  have hstore := extend_store uuids a t key token ttlMs
  refine h.quiet hbefore hafter rfl ?_ ?_
  · intro token' hheld
    have hguar : (protocol key).guar (.told token) (.extend key token ttlMs) :=
      Or.inr ⟨ttlMs, rfl⟩
    rcases @holds_perform _ _ uuids t a _ _ key token' hguar hheld with hkept | hno | ⟨ms, hle, heq⟩
    · exact hkept
    · cases hno
    · cases heq
      exact absurd hms (not_lt.mpr hle)
  · intro _ hnone
    have hnot : ¬ t.holds key token := fun hheld => find?_ne_none hheld hnone
    rw [hstore, if_neg hnot]
    exact hnone

omit [DecidableEq κ] in
/-- Time passes without a lock expiring. -/
theorem Guarded.pass {ls : Locks κ} (h : Guarded ls.key qs t) {now : ℚ} (hnow : t.now ≤ now)
    (htimely : Timely ls t now) : Guarded ls.key qs { t with now := now } := by
  refine ⟨?_, ?_, h.alone⟩
  · intro b token hb
    refine (h.held b token hb).imp_left ?_
    intro hheld
    obtain ⟨d, hfound⟩ := holds_iff.mp hheld
    rw [holds_iff]
    refine ⟨d, Keyspace.find?_of_live (Keyspace.eq_some_of_find? hfound) ?_⟩
    rintro deadline hd
    obtain rfl : d = some deadline := hd
    exact htimely b token deadline hb hfound
  · intro j result hj
    have hgone := h.cleared j result hj
    rw [Option.eq_none_iff_forall_ne_some] at hgone ⊢
    intro e he
    have hlive : ∀ deadline ∈ e.deadline, now ≤ deadline := Keyspace.le_of_find? he
    refine hgone e (Keyspace.find?_of_live (Keyspace.eq_some_of_find? he) ?_)
    intro deadline hd
    exact hnow.trans (hlive deadline hd)

end Guarded

/-! ## Runs -/

section Runs

variable {ls : Locks κ} {uuids : ℕ ↪ String} {s : LockPool κ} {qs : κ × Request → Option Phase}
  {a : κ} {request : Request} {q : Phase} {op : LockOp} {d : Delivery Exn}

omit [DecidableEq κ] in
/-- A call in the phase of clearing is about to clear its token. -/
theorem clearing_of_wp {key : String} {p : LockMethod Bool} {result : Bool}
    (h : p.wp (protocol key) Ends (.clearing result)) :
    ∃ k, p = .call (LockOp.assign none) k := by
  cases p with
  | pure b =>
      rcases h with hover | hacquiring
      · cases hover
      · exact hacquiring.elim
  | raise x => cases h
  | call op k =>
      obtain rfl : op = .assign none := h.1
      exact ⟨k, rfl⟩

omit [DecidableEq κ] in
theorem clearing_of_phase (hmeets : Pool.Meets (protocol ls.key) Ends s.tasks qs)
    {i : κ × Request} {result : Bool} (hi : qs i = some (.clearing result)) : Clearing s i := by
  rcases hmeets i with ⟨-, hnone⟩ | ⟨p, q, hp, hq, hwp⟩
  · rw [hi] at hnone
    cases hnone
  · rw [hi] at hq
    cases hq
    obtain ⟨k, rfl⟩ := clearing_of_wp hwp
    exact ⟨k, hp⟩

/-- A call gets to clearing by the answer to its release script. -/
theorem next_clearing {q : Phase} {op : LockOp} {r : Except Exn op.Ret} {result : Bool}
    (h : q.next ⟨op, r⟩ = .clearing result) :
    (∃ token, q = .told token) ∧ (∃ key token, op = .release key token) ∧ ∃ n, r = .ok n := by
  unfold Phase.next at h
  split at h
  all_goals cases h
  rename_i token key token' n heq
  cases heq
  exact ⟨⟨token, rfl⟩, ⟨key, token', rfl⟩, n, rfl⟩

/-- An undisturbed operation keeps the instances apart. -/
theorem Guarded.command (h : Guarded ls.key qs s.shared) (howned : Owned uuids qs s.shared)
    (hmeets : Pool.Meets (protocol ls.key) Ends s.tasks qs) (hq : qs (a, request) = some q)
    (hguar : (protocol ls.key).guar q op) (hok : Undisturbed ls s (.command (a, request) op d)) :
    let x := d.outcome (s.shared.perform uuids a op) s.shared
    Guarded ls.key (Function.update qs (a, request) (some (q.next ⟨op, x.1⟩))) x.2 := by
  obtain ⟨hlocal, hcondition⟩ := hok
  have hbefore : (∀ result, q ≠ .clearing result) →
      ∀ result, qs (a, request) ≠ some (.clearing result) := by
    intro hne result heq
    rw [hq] at heq
    exact hne result (Option.some.inj heq)
  have hafter : (∀ token, q ≠ .told token) → ∀ (r : Except Exn op.Ret) result,
      some (q.next ⟨op, r⟩) ≠ some (.clearing result) := by
    intro hne r result heq
    obtain ⟨⟨token, htold⟩, -⟩ := next_clearing (Option.some.inj heq)
    exact hne token htold
  intro x
  cases q with
  | making =>
      obtain rfl : op = .uuid4 := hguar
      obtain rfl := hlocal rfl
      exact h.quiet (hbefore (by simp)) (hafter (by simp) _) rfl (fun _ hheld => hheld)
        fun _ hnone => hnone
  | trying token =>
      have hstill := hbefore (by simp)
      have hnot := hafter (by simp)
      rcases hguar with ⟨ex, rfl⟩ | ⟨seconds, rfl⟩
      · have hclear : ∀ j result, qs j ≠ some (.clearing result) := by
          intro j result hj
          exact hcondition j (clearing_of_phase hmeets hj)
        cases d with
        | answered => exact h.attempt hstill (hnot _) hclear token ex
        | unanswered e => exact h.attempt hstill (hnot _) hclear token ex
        | lost e => exact h.move hstill (hnot _)
      · cases d with
        | answered => exact h.move hstill (hnot _)
        | unanswered e => exact h.move hstill (hnot _)
        | lost e => exact h.move hstill (hnot _)
  | won token =>
      obtain rfl : op = .assign (some token) := hguar
      obtain rfl := hlocal rfl
      exact h.assign (hbefore (by simp)) (hafter (by simp) _) hcondition
  | reading =>
      obtain rfl : op = .token := hguar
      obtain rfl := hlocal rfl
      exact h.quiet (hbefore (by simp)) (hafter (by simp) _) rfl (fun _ hheld => hheld)
        fun _ hnone => hnone
  | told token =>
      have hstill := hbefore (by simp)
      rcases hguar with rfl | ⟨ttlMs, rfl⟩
      · cases d with
        | answered =>
            refine h.release howned hq ?_ _
            have hstore := release_store uuids a s.shared ls.key token
            rw [if_pos (h.told howned hq)] at hstore
            exact (congrFun hstore ls.key).trans (Keyspace.del_self ..)
        | unanswered e => exact absurd rfl (hcondition e)
        | lost e => exact h.move hstill (by rintro result ⟨⟩)
      · have hnot : ∀ (r : Except Exn ℤ) result,
            some ((Phase.told token).next ⟨.extend ls.key token ttlMs, r⟩)
              ≠ some (.clearing result) := by
          intro r result heq
          obtain ⟨-, ⟨key, token', hop⟩, -⟩ := next_clearing (Option.some.inj heq)
          cases hop
        cases d with
        | answered => exact h.extend hstill (hnot _) hcondition uuids
        | unanswered e => exact h.extend hstill (hnot _) hcondition uuids
        | lost e => exact h.move hstill (hnot _)
  | clearing result =>
      obtain rfl : op = .assign none := hguar
      obtain rfl := hlocal rfl
      exact h.clear (hafter (by simp) _)
  | acquired => exact hguar.elim
  | ended result => exact hguar.elim
  | failed => exact hguar.elim

omit [DecidableEq κ] in
theorem guarded_fresh (ls : Locks κ) (now : ℚ) :
    Guarded ls.key (fun _ => none) (freshLocks now : LockPool κ).shared := by
  refine ⟨?_, ?_, ?_⟩
  · rintro a token ⟨⟩
  · rintro i result ⟨⟩
  · rintro i j result result' ⟨⟩

/-- In an undisturbed run the instances stay apart. -/
theorem guarded_run {now : ℚ}
    (hrun : Pool.Run (lockCalls ls uuids (Timely ls)) (Undisturbed ls) (freshLocks now) s) :
    ∃ qs, Pool.Meets (protocol ls.key) Ends s.tasks qs ∧
      Owned uuids qs s.shared ∧ Guarded ls.key qs s.shared := by
  have hmeets : Pool.Meets (protocol ls.key) Ends (freshLocks now : LockPool κ).tasks
      fun _ => none := fun i => Or.inl ⟨rfl, rfl⟩
  refine Pool.invariant_of_meets
    (fun qs t => Owned uuids qs t ∧ Guarded ls.key qs t) ?_ ?_ ?_ ?_ ?_ hmeets
    ⟨owned_fresh uuids now, guarded_fresh ls now⟩ hrun
  · rintro qs s i hmeets ⟨howned, h⟩ hi ⟨hone, -⟩
    have hfree := hmeets.none hi
    refine ⟨.ofRequest i.2, wp_request ls i, ?_, ?_⟩
    · exact howned.start fun request' => hmeets.none (hone request')
    · apply h.move
      · intro result hclear
        rw [hfree] at hclear
        cases hclear
      · intro result hclear
        obtain ⟨a, request⟩ := i
        cases request <;> cases hclear
  · rintro qs s i q op d hmeets ⟨howned, h⟩ hq hguar hok
    exact ⟨_, rfl, howned.command hq hguar hok.1, h.command howned hmeets hq hguar hok⟩
  · rintro qs t i q r ⟨howned, h⟩ hq hend
    refine ⟨howned.erase i, h.move ?_ (by simp)⟩
    intro result hclear
    rw [hq] at hclear
    cases hclear
    cases r with
    | ok b =>
        rcases hend with hover | hacquiring
        · cases hover
        · exact hacquiring.elim
    | error x => cases hend
  · rintro qs s i p q ⟨howned, h⟩ hp hq hwp ⟨-, halive⟩
    refine ⟨howned.erase i, h.move ?_ (by simp)⟩
    intro result hclear
    rw [hq] at hclear
    cases hclear
    obtain ⟨k, rfl⟩ := clearing_of_wp hwp
    exact halive ⟨k, hp⟩
  · rintro qs t t' ⟨howned, h⟩ ⟨hnow, htimely, heq⟩
    rw [heq]
    exact ⟨howned.pass _, h.pass hnow htimely⟩

end Runs

/-- In every state of every undisturbed run in which no expiry is reached while its instance is
locked, at most one instance is locked. -/
theorem lock_exclusive (ls : Locks κ) (uuids : ℕ ↪ String) (now : ℚ) (s : LockPool κ)
    (hrun : Pool.Run (lockCalls ls uuids (Timely ls)) (Undisturbed ls) (freshLocks now) s) (a b : κ)
    (ha : s.shared.isLocked a = true) (hb : s.shared.isLocked b = true) : a = b := by
  obtain ⟨qs, -, howned, hguarded⟩ := guarded_run hrun
  exact hguarded.exclusive howned ha hb

/-! ### A holder that is late -/

/-- A call that is alone is the only one that may be about to clear its token. -/
theorem clearing_alone {i : κ × Request} {p : LockMethod Bool} {t : LockServer κ} {j : κ × Request}
    (h : Clearing ⟨Function.update (fun _ => none) i (some p), t⟩ j) :
    ∃ k, p = .call (LockOp.assign none) k := by
  obtain ⟨k, hk⟩ := h
  dsimp only at hk
  rcases Pool.update_cases hk with ⟨-, hp⟩ | ⟨-, hnone⟩
  · exact ⟨k, Option.some.inj hp⟩
  · cases hnone

theorem run_undisturbed : Pool.Run (lockCalls sampleLocks sampleIds (Timely sampleLocks))
    (Undisturbed sampleLocks) (freshLocks 0) lockedPool := by
  refine Pool.run_task (i := (0, Request.acquire)) rfl ⟨fun _ => rfl, trivial⟩ ?_
  refine ⟨⟨fun _ => rfl, trivial⟩, ⟨fun _ => rfl, ?_⟩, ⟨fun _ => rfl, ?_⟩, trivial, trivial⟩
  · intro j hj
    rw [freshLocks, Function.update_idem] at hj
    obtain ⟨k, hk⟩ := clearing_alone hj
    cases hk
  · decide +kernel

/-- Instance 1 has tried to acquire the lock once. -/
def contendedPool : LockPool ℕ where
  tasks := Function.update lockedPool.tasks (1, .acquire) (some (Pool.remaining
    (sampleCalls.perform (1, Request.acquire)) (sampleLocks.lock 1).acquire
    [.answered, .answered] lockedServer))
  shared := Pool.script (sampleCalls.perform (1, Request.acquire)) (sampleLocks.lock 1).acquire
    [.answered, .answered] lockedServer

theorem run_contended : Pool.Run (lockCalls sampleLocks sampleIds (Timely sampleLocks))
    (Undisturbed sampleLocks) (freshLocks 0) contendedPool := by
  refine run_undisturbed.trans (Pool.run_started (i := (1, Request.acquire)) rfl
    ⟨fun _ => rfl, trivial⟩ ?_)
  refine ⟨⟨fun _ => rfl, trivial⟩, ⟨fun _ => rfl, ?_⟩, Pool.allows_nil⟩
  intro j hj
  rw [Function.update_idem] at hj
  obtain ⟨k, hk⟩ := clearing_alone hj
  cases hk

/-- While instance 0 is locked, instance 1 tries and is not. -/
theorem lock_exclusive_contended :
    contendedPool.shared.isLocked 0 = true ∧ ¬ contendedPool.shared.isLocked 1 = true := by
  have hlocked : contendedPool.shared.isLocked 0 = true := by decide +kernel
  refine ⟨hlocked, ?_⟩
  intro hother
  have heq := lock_exclusive sampleLocks sampleIds 0 contendedPool run_contended 0 1 hlocked hother
  omega

/-- The clock shows 31, a second after the expiry of the lock. -/
def expiredServer : LockServer ℕ := { lockedServer with now := 31 }

/-- The server after instance 1 has acquired the lock. -/
def takenServer : LockServer ℕ :=
  Pool.script (sampleCalls.perform (1, Request.acquire)) (sampleLocks.lock 1).acquire
    [.answered, .answered, .answered] expiredServer

/-- A holder whose lock has expired is locked next to the instance that acquired it since. -/
theorem expired_holder_still_locked : ∃ s,
    Pool.Run sampleCalls OneTask (freshLocks 0) s ∧
    s.shared.isLocked 0 = true ∧ s.shared.isLocked 1 = true ∧ (0 : ℕ) ≠ 1 := by
  have hpass : Pool.Run sampleCalls OneTask (freshLocks 0) ⟨fun _ => none, expiredServer⟩ := by
    refine Relation.ReflTransGen.tail run_locked ⟨.drift, trivial, Pool.Step.drift _ ?_⟩
    exact ⟨by decide +kernel, trivial, rfl⟩
  have htake : Pool.Run sampleCalls OneTask ⟨fun _ => none, expiredServer⟩
      ⟨fun _ => none, takenServer⟩ := run_alone (1, .acquire) 3 expiredServer
  exact ⟨_, hpass.trans htake, by decide +kernel, by decide +kernel, by decide⟩

end FraudDetection.Redis
