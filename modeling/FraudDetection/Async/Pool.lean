import Mathlib.Logic.Function.Basic
import Mathlib.Logic.Relation
import FraudDetection.Async.Trace

/-!
# Task pools with failures

Tasks that come and go over a shared state, one awaited operation at a time and in any order. An
operation can fail before or after it took effect, and a task can die at any point.

* `Pool.Step` is one event in the life of a pool, `Pool.Run` a sequence of events that all satisfy a
  side condition.
* `Pool.invariant` proves a property of the shared state and of a ghost state for each task, from a
  contract that every task meets when it starts.
-/

namespace FraudDetection.Async

variable {ι σ Op : Type} {Ret : Op → Type} {ε α Q : Type}

/-- How an operation fares: carried out and answered, carried out with its answer lost, or not
carried out. The task sees an exception in the last two cases. -/
inductive Delivery (ε : Type) where
  | answered
  | unanswered (e : ε)
  | lost (e : ε)

/-- The reply to an operation and the state it leaves, where `x` is what it does if carried out in
the state `t`. -/
def Delivery.outcome {R : Type} (d : Delivery ε) (x : Except ε R × σ) (t : σ) : Except ε R × σ :=
  match d with
  | .answered => x
  | .unanswered e => (.error e, x.2)
  | .lost e => (.error e, t)

/-- An operation leaves the state it would have left, or the one before it. -/
theorem Delivery.outcome_state {R : Type} {P : σ → Prop} (d : Delivery ε) {x : Except ε R × σ} {t : σ}
    (hx : P x.2) (ht : P t) : P (d.outcome x t).2 := by
  cases d with
  | answered => exact hx
  | unanswered e => exact hx
  | lost e => exact ht

/-- The tasks in progress, with what each has left to do, and the shared state. -/
structure Pool (ι σ : Type) {Op : Type} (Ret : Op → Type) (ε α : Type) where
  tasks : ι → Option (Prog Ret ε α)
  shared : σ

/-- What a pool runs on: the programs that can be started, what an operation of a task does, and how
the shared state changes on its own. -/
structure Setting (ι σ : Type) {Op : Type} (Ret : Op → Type) (ε α : Type) where
  program : ι → Prog Ret ε α
  perform : ι → (op : Op) → σ → Except ε (Ret op) × σ
  drift : σ → σ → Prop

/-- What can happen to a pool. -/
inductive Happening (ι Op ε : Type) where
  | start (i : ι)
  | command (i : ι) (op : Op) (d : Delivery ε)
  | finish (i : ι)
  | die (i : ι)
  | drift

namespace Pool

variable [DecidableEq ι]

/-- One event. -/
inductive Step (w : Setting ι σ Ret ε α) :
    Pool ι σ Ret ε α → Happening ι Op ε → Pool ι σ Ret ε α → Prop
  | start {s : Pool ι σ Ret ε α} (i : ι) (h : s.tasks i = none) :
      Step w s (.start i) ⟨Function.update s.tasks i (some (w.program i)), s.shared⟩
  | command {s : Pool ι σ Ret ε α} (i : ι) (op : Op) (k : Except ε (Ret op) → Prog Ret ε α)
      (d : Delivery ε) (h : s.tasks i = some (.call op k)) :
      Step w s (.command i op d)
        ⟨Function.update s.tasks i (some (k (d.outcome (w.perform i op s.shared) s.shared).1)),
          (d.outcome (w.perform i op s.shared) s.shared).2⟩
  | returned {s : Pool ι σ Ret ε α} (i : ι) (a : α) (h : s.tasks i = some (.pure a)) :
      Step w s (.finish i) ⟨Function.update s.tasks i none, s.shared⟩
  | raised {s : Pool ι σ Ret ε α} (i : ι) (e : ε) (h : s.tasks i = some (.raise e)) :
      Step w s (.finish i) ⟨Function.update s.tasks i none, s.shared⟩
  | die {s : Pool ι σ Ret ε α} (i : ι) (p : Prog Ret ε α) (h : s.tasks i = some p) :
      Step w s (.die i) ⟨Function.update s.tasks i none, s.shared⟩
  | drift {s : Pool ι σ Ret ε α} (t : σ) (h : w.drift s.shared t) :
      Step w s .drift ⟨s.tasks, t⟩

/-- A sequence of events that satisfy `ok`, each in the pool it happens to. -/
def Run (w : Setting ι σ Ret ε α) (ok : Pool ι σ Ret ε α → Happening ι Op ε → Prop) :
    Pool ι σ Ret ε α → Pool ι σ Ret ε α → Prop :=
  Relation.ReflTransGen fun s s' => ∃ l, ok s l ∧ Step w s l s'

/-- No task is in progress. -/
def Quiet (s : Pool ι σ Ret ε α) : Prop := ∀ i, s.tasks i = none

/-- Every task in progress meets the contract from its ghost state, and no other task has one. -/
def Meets (C : Contract Q Ret ε) (P : Except ε α → Q → Prop)
    (tasks : ι → Option (Prog Ret ε α)) (qs : ι → Option Q) : Prop :=
  ∀ i, (tasks i = none ∧ qs i = none) ∨ ∃ p q, tasks i = some p ∧ qs i = some q ∧ p.wp C P q

section Ghosts

variable {qs : ι → Option Q} {i j : ι} {o : Option Q} {q : Q}

/-- The ghost state of a task after another one, or the same, changed its own. -/
theorem update_cases (h : Function.update qs i o j = some q) :
    (j = i ∧ o = some q) ∨ (j ≠ i ∧ qs j = some q) := by
  by_cases hj : j = i
  · subst hj
    rw [Function.update_self] at h
    exact Or.inl ⟨rfl, h⟩
  · rw [Function.update_of_ne hj] at h
    exact Or.inr ⟨hj, h⟩

/-- A ghost state that the changed task did not have is still there. -/
theorem update_kept (hi : qs i ≠ some q) (hj : qs j = some q) : Function.update qs i o j = some q := by
  rw [Function.update_of_ne]
  · exact hj
  · rintro rfl
    exact hi hj

end Ghosts

section Meets

variable {C : Contract Q Ret ε} {P : Except ε α → Q → Prop} {tasks : ι → Option (Prog Ret ε α)}
  {qs : ι → Option Q}

omit [DecidableEq ι] in
theorem Meets.some (h : Meets C P tasks qs) {i : ι} {p : Prog Ret ε α}
    (hi : tasks i = Option.some p) : ∃ q, qs i = Option.some q ∧ p.wp C P q := by
  rcases h i with ⟨hnone, -⟩ | ⟨p', q, hp, hq, hwp⟩
  · rw [hi] at hnone
    cases hnone
  · rw [hi] at hp
    cases hp
    exact ⟨q, hq, hwp⟩

omit [DecidableEq ι] in
theorem Meets.none (h : Meets C P tasks qs) {i : ι} (hi : tasks i = Option.none) :
    qs i = Option.none := by
  rcases h i with ⟨-, hq⟩ | ⟨p, q, hp, -, -⟩
  · exact hq
  · rw [hi] at hp
    cases hp

theorem Meets.update (h : Meets C P tasks qs) (i : ι) {p : Prog Ret ε α} {q : Q}
    (hwp : p.wp C P q) :
    Meets C P (Function.update tasks i (Option.some p))
      (Function.update qs i (Option.some q)) := by
  intro j
  by_cases hj : j = i
  · subst hj
    exact Or.inr ⟨p, q, by simp, by simp, hwp⟩
  · simpa [hj] using h j

theorem Meets.erase (h : Meets C P tasks qs) (i : ι) :
    Meets C P (Function.update tasks i Option.none) (Function.update qs i Option.none) := by
  intro j
  by_cases hj : j = i
  · subst hj
    exact Or.inl ⟨by simp, by simp⟩
  · simpa [hj] using h j

end Meets

/-- A property `J` of the ghost states and the shared state holds throughout a run, if every event
that the side condition admits preserves it. -/
theorem invariant_of_meets {w : Setting ι σ Ret ε α} {C : Contract Q Ret ε}
    {P : Except ε α → Q → Prop} {ok : Pool ι σ Ret ε α → Happening ι Op ε → Prop}
    (J : (ι → Option Q) → σ → Prop)
    (hstart : ∀ qs (s : Pool ι σ Ret ε α) i, Meets C P s.tasks qs → J qs s.shared →
      s.tasks i = none → ok s (.start i) →
      ∃ q, (w.program i).wp C P q ∧ J (Function.update qs i (some q)) s.shared)
    (hcommand : ∀ qs (s : Pool ι σ Ret ε α) i q op d, Meets C P s.tasks qs → J qs s.shared →
      qs i = some q → C.guar q op → ok s (.command i op d) →
      let x := d.outcome (w.perform i op s.shared) s.shared
      ∃ q', C.rely q ⟨op, x.1⟩ q' ∧ J (Function.update qs i (some q')) x.2)
    (hfinish : ∀ qs t i q r, J qs t → qs i = some q → P r q → J (Function.update qs i none) t)
    (hdie : ∀ qs (s : Pool ι σ Ret ε α) i p q, J qs s.shared → s.tasks i = some p →
      qs i = some q → p.wp C P q → ok s (.die i) → J (Function.update qs i none) s.shared)
    (hdrift : ∀ qs t t', J qs t → w.drift t t' → J qs t')
    {s₀ s : Pool ι σ Ret ε α} {qs₀ : ι → Option Q} (hmeets : Meets C P s₀.tasks qs₀)
    (hJ : J qs₀ s₀.shared) (hrun : Run w ok s₀ s) :
    ∃ qs, Meets C P s.tasks qs ∧ J qs s.shared := by
  induction hrun with
  | refl => exact ⟨qs₀, hmeets, hJ⟩
  | @tail s s' _ hstep ih =>
      obtain ⟨qs, hmeets, hJ⟩ := ih
      obtain ⟨l, hok, hstep⟩ := hstep
      cases hstep with
      | start i h =>
          obtain ⟨q, hwp, hJ'⟩ := hstart qs s i hmeets hJ h hok
          exact ⟨_, hmeets.update i hwp, hJ'⟩
      | command i op k d h =>
          obtain ⟨q, hq, hguar, hcont⟩ := hmeets.some h
          obtain ⟨q', hrely, hJ'⟩ := hcommand qs s i q op d hmeets hJ hq hguar hok
          exact ⟨_, hmeets.update i (hcont _ q' hrely), hJ'⟩
      | returned i a h =>
          obtain ⟨q, hq, hP⟩ := hmeets.some h
          exact ⟨_, hmeets.erase i, hfinish qs _ i q _ hJ hq hP⟩
      | raised i e h =>
          obtain ⟨q, hq, hP⟩ := hmeets.some h
          exact ⟨_, hmeets.erase i, hfinish qs _ i q _ hJ hq hP⟩
      | die i p h =>
          obtain ⟨q, hq, hwp⟩ := hmeets.some h
          exact ⟨_, hmeets.erase i, hdie qs s i p q hJ h hq hwp hok⟩
      | drift t h => exact ⟨qs, hmeets, hdrift qs _ t hJ h⟩

/-- The invariant rule for properties that no start disturbs. -/
theorem invariant {w : Setting ι σ Ret ε α} {C : Contract Q Ret ε} {P : Except ε α → Q → Prop}
    {ok : Pool ι σ Ret ε α → Happening ι Op ε → Prop} (J : (ι → Option Q) → σ → Prop)
    (hstart : ∀ qs t i, J qs t → qs i = none →
      ∃ q, (w.program i).wp C P q ∧ J (Function.update qs i (some q)) t)
    (hcommand : ∀ qs (s : Pool ι σ Ret ε α) i q op d, J qs s.shared → qs i = some q →
      C.guar q op → ok s (.command i op d) →
      let x := d.outcome (w.perform i op s.shared) s.shared
      ∃ q', C.rely q ⟨op, x.1⟩ q' ∧ J (Function.update qs i (some q')) x.2)
    (hfinish : ∀ qs t i q r, J qs t → qs i = some q → P r q → J (Function.update qs i none) t)
    (hdie : ∀ qs (s : Pool ι σ Ret ε α) i p q, J qs s.shared → s.tasks i = some p →
      qs i = some q → p.wp C P q → ok s (.die i) → J (Function.update qs i none) s.shared)
    (hdrift : ∀ qs t t', J qs t → w.drift t t' → J qs t')
    {s₀ s : Pool ι σ Ret ε α} {qs₀ : ι → Option Q} (hmeets : Meets C P s₀.tasks qs₀)
    (hJ : J qs₀ s₀.shared) (hrun : Run w ok s₀ s) :
    ∃ qs, Meets C P s.tasks qs ∧ J qs s.shared := by
  refine invariant_of_meets J ?_ ?_ hfinish hdie hdrift hmeets hJ hrun
  · intro qs s i hmeets hJ hi _
    exact hstart qs s.shared i hJ (hmeets.none hi)
  · intro qs s i q op d _ hJ hi hguar hok
    exact hcommand qs s i q op d hJ hi hguar hok

/-! ## One task alone -/

/-- The state that a task leaves when it runs alone and its operations fare as the list says; it
dies where the list ends. -/
def script (f : (op : Op) → σ → Except ε (Ret op) × σ) :
    Prog Ret ε α → List (Delivery ε) → σ → σ
  | .call op k, d :: ds, t =>
      script f (k (d.outcome (f op t) t).1) ds (d.outcome (f op t) t).2
  | _, _, t => t

theorem script_nil {f : (op : Op) → σ → Except ε (Ret op) × σ} {p : Prog Ret ε α} {t : σ} :
    script f p [] t = t := by
  cases p <;> rfl

theorem script_raise {f : (op : Op) → σ → Except ε (Ret op) × σ} {e : ε} {ds : List (Delivery ε)}
    {t : σ} : script f (.raise e : Prog Ret ε α) ds t = t := by
  cases ds <;> rfl

theorem script_pure {f : (op : Op) → σ → Except ε (Ret op) × σ} {a : α} {ds : List (Delivery ε)}
    {t : σ} : script f (Pure.pure a : Prog Ret ε α) ds t = t := by
  cases ds <;> rfl

/-- An operation, and what follows it if it is answered. -/
theorem script_await_seq {β : Type} {f : (op : Op) → σ → Except ε (Ret op) × σ} {op : Op}
    {g : Ret op → Prog Ret ε β} {d : Delivery ε} {ds : List (Delivery ε)} {t : σ} :
    script f (Prog.await op >>= g) (d :: ds) t =
      match (d.outcome (f op t) t).1 with
      | .ok a => script f (g a) ds (d.outcome (f op t) t).2
      | .error _ => (d.outcome (f op t) t).2 := by
  show script f (Prog.bind _ g) ds _ = _
  cases (d.outcome (f op t) t).1 with
  | ok a => rfl
  | error e => exact script_raise

/-- What a task returns does not show in the state it leaves. -/
theorem script_bind_pure {β : Type} {f : (op : Op) → σ → Except ε (Ret op) × σ}
    (p : Prog Ret ε α) (g : α → β) (ds : List (Delivery ε)) (t : σ) :
    script f (p >>= fun a => Pure.pure (g a)) ds t = script f p ds t := by
  induction p generalizing ds t with
  | pure a =>
      rw [show script f (.pure a) ds t = t from script_pure]
      exact script_pure
  | raise e =>
      rw [script_raise]
      exact script_raise
  | call op k ih =>
      cases ds with
      | nil => rfl
      | cons d ds => exact ih _ ds _

/-- What none of its operations changes, a task that runs alone does not change. -/
theorem script_of_asks {τ : Type} (g : σ → τ) {f : (op : Op) → σ → Except ε (Ret op) × σ}
    {ok : Op → Prop} (hf : ∀ op t, ok op → g (f op t).2 = g t) {p : Prog Ret ε α} (hp : p.Asks ok)
    (ds : List (Delivery ε)) (t : σ) : g (script f p ds t) = g t := by
  induction p generalizing ds t with
  | pure a => exact congrArg g script_pure
  | raise e => exact congrArg g script_raise
  | call op k ih =>
      cases ds with
      | nil => rfl
      | cons d ds =>
          have hfirst : g (d.outcome (f op t) t).2 = g t :=
            d.outcome_state (P := fun t' => g t' = g t) (hf op t hp.1) rfl
          exact (ih _ (hp.2 _) ds _).trans hfirst

/-- The side condition admits what happens to a task that runs alone in this way. -/
def Fares (w : Setting ι σ Ret ε α) (ok : Pool ι σ Ret ε α → Happening ι Op ε → Prop) (i : ι) :
    Prog Ret ε α → List (Delivery ε) → Pool ι σ Ret ε α → Prop
  | .call op k, d :: ds, s =>
      let x := d.outcome (w.perform i op s.shared) s.shared
      ok s (.command i op d) ∧
        Fares w ok i (k x.1) ds ⟨Function.update s.tasks i (some (k x.1)), x.2⟩
  | .call _ _, [], s => ok s (.die i)
  | _, _, s => ok s (.finish i)

/-- A side condition on starts admits whatever happens to a task that has started. -/
theorem fares_of_started {w : Setting ι σ Ret ε α}
    {ok : Pool ι σ Ret ε α → Happening ι Op ε → Prop} (hok : ∀ s l, (∀ i, l ≠ .start i) → ok s l)
    (i : ι) (p : Prog Ret ε α) (ds : List (Delivery ε)) (s : Pool ι σ Ret ε α) :
    Fares w ok i p ds s := by
  induction p generalizing ds s with
  | pure a => exact hok s _ nofun
  | raise e => exact hok s _ nofun
  | call op k ih =>
      cases ds with
      | nil => exact hok s _ nofun
      | cons d ds => exact ⟨hok s _ nofun, ih _ ds _⟩

/-- A task can run alone. -/
theorem run_script {w : Setting ι σ Ret ε α} {ok : Pool ι σ Ret ε α → Happening ι Op ε → Prop}
    {s : Pool ι σ Ret ε α} {i : ι} {p : Prog Ret ε α} (h : s.tasks i = some p)
    {ds : List (Delivery ε)} (hok : Fares w ok i p ds s) :
    Run w ok s ⟨Function.update s.tasks i none, script (w.perform i) p ds s.shared⟩ := by
  induction p generalizing s ds with
  | pure a => exact Relation.ReflTransGen.single ⟨_, hok, .returned i a h⟩
  | raise e => exact Relation.ReflTransGen.single ⟨_, hok, .raised i e h⟩
  | call op k ih =>
      cases ds with
      | nil => exact Relation.ReflTransGen.single ⟨_, hok, .die i _ h⟩
      | cons d ds =>
          obtain ⟨hfirst, hafter⟩ := hok
          have hrest := ih (d.outcome (w.perform i op s.shared) s.shared).1
            (Function.update_self ..) hafter
          dsimp only at hrest
          rw [Function.update_idem] at hrest
          exact Relation.ReflTransGen.head ⟨_, hfirst, .command i op k d h⟩ hrest

/-- A task that is started and runs alone leaves the other tasks as they were. -/
theorem run_task {w : Setting ι σ Ret ε α} {ok : Pool ι σ Ret ε α → Happening ι Op ε → Prop}
    {s : Pool ι σ Ret ε α} {i : ι} (h : s.tasks i = none) (hstart : ok s (.start i))
    {ds : List (Delivery ε)} (hok : Fares w ok i (w.program i) ds
      ⟨Function.update s.tasks i (some (w.program i)), s.shared⟩) :
    Run w ok s ⟨s.tasks, script (w.perform i) (w.program i) ds s.shared⟩ := by
  have hrun := run_script (Function.update_self ..) hok
  have htasks : Function.update s.tasks i none = s.tasks := by
    rw [← h]
    exact Function.update_eq_self ..
  dsimp only at hrun
  rw [Function.update_idem, htasks] at hrun
  exact Relation.ReflTransGen.head ⟨_, hstart, .start i h⟩ hrun

/-- What a task has left to do after it ran alone in this way. -/
def remaining (f : (op : Op) → σ → Except ε (Ret op) × σ) :
    Prog Ret ε α → List (Delivery ε) → σ → Prog Ret ε α
  | .call op k, d :: ds, t =>
      remaining f (k (d.outcome (f op t) t).1) ds (d.outcome (f op t) t).2
  | p, _, _ => p

/-- The side condition admits the operations of a task that runs alone in this way. -/
def Allows (w : Setting ι σ Ret ε α) (ok : Pool ι σ Ret ε α → Happening ι Op ε → Prop) (i : ι) :
    Prog Ret ε α → List (Delivery ε) → Pool ι σ Ret ε α → Prop
  | .call op k, d :: ds, s =>
      let x := d.outcome (w.perform i op s.shared) s.shared
      ok s (.command i op d) ∧
        Allows w ok i (k x.1) ds ⟨Function.update s.tasks i (some (k x.1)), x.2⟩
  | _, _, _ => True

theorem allows_nil {w : Setting ι σ Ret ε α} {ok : Pool ι σ Ret ε α → Happening ι Op ε → Prop} {i : ι}
    {p : Prog Ret ε α} {s : Pool ι σ Ret ε α} : Allows w ok i p [] s := by
  cases p <;> trivial

theorem run_self {w : Setting ι σ Ret ε α} {ok : Pool ι σ Ret ε α → Happening ι Op ε → Prop}
    {s : Pool ι σ Ret ε α} {i : ι} {p : Prog Ret ε α} (h : s.tasks i = some p) :
    Run w ok s ⟨Function.update s.tasks i (some p), s.shared⟩ := by
  rw [← h, Function.update_eq_self]
  exact Relation.ReflTransGen.refl

/-- A task can run alone for a while. -/
theorem run_remaining {w : Setting ι σ Ret ε α}
    {ok : Pool ι σ Ret ε α → Happening ι Op ε → Prop} {s : Pool ι σ Ret ε α} {i : ι}
    {p : Prog Ret ε α} (h : s.tasks i = some p) {ds : List (Delivery ε)}
    (hok : Allows w ok i p ds s) :
    Run w ok s ⟨Function.update s.tasks i (some (remaining (w.perform i) p ds s.shared)),
      script (w.perform i) p ds s.shared⟩ := by
  induction p generalizing s ds with
  | pure a => exact run_self h
  | raise e => exact run_self h
  | call op k ih =>
      cases ds with
      | nil => exact run_self h
      | cons d ds =>
          obtain ⟨hfirst, hafter⟩ := hok
          have hrest := ih (d.outcome (w.perform i op s.shared) s.shared).1
            (Function.update_self ..) hafter
          dsimp only at hrest
          rw [Function.update_idem] at hrest
          exact Relation.ReflTransGen.head ⟨_, hfirst, .command i op k d h⟩ hrest

/-- A task that is started can run alone for a while. -/
theorem run_started {w : Setting ι σ Ret ε α}
    {ok : Pool ι σ Ret ε α → Happening ι Op ε → Prop} {s : Pool ι σ Ret ε α} {i : ι}
    (h : s.tasks i = none) (hstart : ok s (.start i)) {ds : List (Delivery ε)}
    (hok : Allows w ok i (w.program i) ds
      ⟨Function.update s.tasks i (some (w.program i)), s.shared⟩) :
    Run w ok s
      ⟨Function.update s.tasks i (some (remaining (w.perform i) (w.program i) ds s.shared)),
        script (w.perform i) (w.program i) ds s.shared⟩ := by
  have hrun := run_remaining (Function.update_self ..) hok
  dsimp only at hrun
  rw [Function.update_idem] at hrun
  exact Relation.ReflTransGen.head ⟨_, hstart, .start i h⟩ hrun

end Pool

end FraudDetection.Async
