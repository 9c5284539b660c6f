import Mathlib.Data.List.Basic

/-!
# Effect programs: syntax, runs, and rely/guarantee preconditions

`Prog` is the type of programs that await operations of a signature and may raise exceptions: the
shape of an `async` function whose awaits are the only points where the outside world acts.

* `Prog.run` executes a program against a functional world and records every awaited operation with
  its reply and the state it was issued in; `Prog.Leads` describes a run by its result and the state
  it leaves.
* `Prog.wp` is the weakest precondition of a program under a `Contract`: what the program may ask in
  a ghost state (`guar`), and how a reply may move the ghost state (`rely`).
* `Prog.wp_run` transports a precondition to the recorded run, along any simulation of the world by
  the ghost state.
-/

namespace FraudDetection.Async

/-- A program that awaits operations `op`, each answered by a reply in `Ret op` or an exception. -/
inductive Prog {Op : Type} (Ret : Op → Type) (ε α : Type) : Type where
  | pure (a : α)
  | raise (e : ε)
  | call (op : Op) (k : Except ε (Ret op) → Prog Ret ε α)

/-- An awaited operation together with the reply it got. -/
structure Event {Op : Type} (Ret : Op → Type) (ε : Type) where
  op : Op
  reply : Except ε (Ret op)

/-- An event together with the state in which its operation was issued. -/
structure Step (σ : Type) {Op : Type} (Ret : Op → Type) (ε : Type) where
  pre : σ
  event : Event Ret ε

/-- A complete run: what the program returned or raised, its steps, and the state it left. -/
structure Execution (σ : Type) {Op : Type} (Ret : Op → Type) (ε α : Type) where
  result : Except ε α
  steps : List (Step σ Ret ε)
  final : σ

variable {Op : Type} {Ret : Op → Type} {ε α β σ Q : Type}

/-- The events of a run, in order. -/
def Execution.events (x : Execution σ Ret ε α) : List (Event Ret ε) := x.steps.map Step.event

namespace Prog

/-! ## The monad and the exception operators -/

/-- Sequential composition; an exception of the first part skips the second. -/
protected def bind : Prog Ret ε α → (α → Prog Ret ε β) → Prog Ret ε β
  | pure a, f => f a
  | raise e, _ => raise e
  | call op k, f => call op fun r => (k r).bind f

instance : Monad (Prog Ret ε) where
  pure := Prog.pure
  bind := Prog.bind

/-- Await one operation and return its reply, or raise the exception it was answered with. -/
def await (op : Op) : Prog Ret ε (Ret op) :=
  call op fun
    | .ok r => .pure r
    | .error e => .raise e

/-- A pure computation that may raise. -/
def lift : Except ε α → Prog Ret ε α
  | .ok a => .pure a
  | .error e => .raise e

/-- `try p except <catches> as e: h e`. -/
def tryExcept : Prog Ret ε α → (ε → Bool) → (ε → Prog Ret ε α) → Prog Ret ε α
  | pure a, _, _ => pure a
  | raise e, catches, h => if catches e then h e else raise e
  | call op k, catches, h => call op fun r => (k r).tryExcept catches h

/-- `try: p finally: fin`. An exception of `fin` replaces the outcome of `p`. -/
def tryFinally : Prog Ret ε α → Prog Ret ε Unit → Prog Ret ε α
  | pure a, fin => fin.bind fun _ => pure a
  | raise e, fin => fin.bind fun _ => raise e
  | call op k, fin => call op fun r => (k r).tryFinally fin

@[simp] theorem bind_eq (p : Prog Ret ε α) (f : α → Prog Ret ε β) : p.bind f = p >>= f := rfl

instance : LawfulMonad (Prog Ret ε) := LawfulMonad.mk' _
  (fun p => by
    show p.bind (fun a => .pure a) = p
    induction p with
    | pure a => rfl
    | raise e => rfl
    | call op k ih => simp only [Prog.bind]; exact congrArg (call op) (funext fun r => ih r))
  (fun _ _ => rfl)
  (fun p f g => by
    show (p.bind f).bind g = p.bind fun a => (f a).bind g
    induction p with
    | pure a => rfl
    | raise e => rfl
    | call op k ih => simp only [Prog.bind]; exact congrArg (call op) (funext fun r => ih r))

@[simp] theorem lift_ok (a : α) : (lift (.ok a) : Prog Ret ε α) = Pure.pure a := rfl

@[simp] theorem lift_error (e : ε) : (lift (.error e) : Prog Ret ε α) = raise e := rfl

@[simp] theorem raise_bind (e : ε) (f : α → Prog Ret ε β) :
    (raise e : Prog Ret ε α) >>= f = raise e := rfl

/-! ## Runs against a functional world -/

/-- Run a program against `f`, which answers each operation and moves the state. -/
def run (f : (op : Op) → σ → Except ε (Ret op) × σ) :
    Prog Ret ε α → σ → Execution σ Ret ε α
  | pure a, s => ⟨.ok a, [], s⟩
  | raise e, s => ⟨.error e, [], s⟩
  | call op k, s =>
      let x := (k (f op s).1).run f (f op s).2
      ⟨x.result, ⟨s, ⟨op, (f op s).1⟩⟩ :: x.steps, x.final⟩

variable (f : (op : Op) → σ → Except ε (Ret op) × σ)

@[simp] theorem run_pure (a : α) (s : σ) :
    (Pure.pure a : Prog Ret ε α).run f s = ⟨.ok a, [], s⟩ := rfl

@[simp] theorem run_raise (e : ε) (s : σ) :
    (raise e : Prog Ret ε α).run f s = ⟨.error e, [], s⟩ := rfl

@[simp] theorem run_await (op : Op) (s : σ) :
    (await op : Prog Ret ε (Ret op)).run f s
      = ⟨(f op s).1, [⟨s, ⟨op, (f op s).1⟩⟩], (f op s).2⟩ := by
  simp only [await, run]
  cases (f op s).1 <;> rfl

@[simp] theorem events_await (op : Op) (s : σ) :
    ((await op : Prog Ret ε (Ret op)).run f s).events = [⟨op, (f op s).1⟩] := by
  rw [run_await]
  rfl

/-- A run of `p >>= g` is the run of `p`, continued by `g` if `p` returned. -/
theorem run_bind (p : Prog Ret ε α) (g : α → Prog Ret ε β) (s : σ) :
    (p >>= g).run f s =
      match (p.run f s).result with
      | .ok a =>
          ⟨((g a).run f (p.run f s).final).result,
            (p.run f s).steps ++ ((g a).run f (p.run f s).final).steps,
            ((g a).run f (p.run f s).final).final⟩
      | .error e => ⟨.error e, (p.run f s).steps, (p.run f s).final⟩ := by
  show (p.bind g).run f s = _
  induction p generalizing s with
  | pure a => rfl
  | raise e => rfl
  | call op k ih =>
      simp only [Prog.bind, run]
      rw [ih]
      cases ((k (f op s).1).run f (f op s).2).result <;> rfl

@[simp] theorem run_map (g : α → β) (p : Prog Ret ε α) (s : σ) :
    (g <$> p).run f s = ⟨g <$> (p.run f s).result, (p.run f s).steps, (p.run f s).final⟩ := by
  rw [map_eq_pure_bind, run_bind]
  cases h : (p.run f s).result <;> simp

/-- A run of `try p except …` is the run of `p`, continued by the handler if it is caught. -/
theorem run_tryExcept (p : Prog Ret ε α) (catches : ε → Bool) (h : ε → Prog Ret ε α) (s : σ) :
    (p.tryExcept catches h).run f s =
      match (p.run f s).result with
      | .ok a => ⟨.ok a, (p.run f s).steps, (p.run f s).final⟩
      | .error e =>
          if catches e then
            ⟨((h e).run f (p.run f s).final).result,
              (p.run f s).steps ++ ((h e).run f (p.run f s).final).steps,
              ((h e).run f (p.run f s).final).final⟩
          else ⟨.error e, (p.run f s).steps, (p.run f s).final⟩ := by
  induction p generalizing s with
  | pure a => rfl
  | raise e =>
      simp only [tryExcept, run]
      split <;> simp
  | call op k ih =>
      simp only [tryExcept, run]
      rw [ih]
      cases ((k (f op s).1).run f (f op s).2).result with
      | ok a => rfl
      | error e => simp only; split <;> simp

/-- A run of `try p finally fin` runs `fin` after `p` in either case. -/
theorem run_tryFinally (p : Prog Ret ε α) (fin : Prog Ret ε Unit) (s : σ) :
    (p.tryFinally fin).run f s =
      let x := p.run f s
      let y := fin.run f x.final
      ⟨match y.result with
        | .ok _ => x.result
        | .error e => .error e,
        x.steps ++ y.steps, y.final⟩ := by
  induction p generalizing s with
  -- at the end of `p` the finalizer runs, and its exception, if any, is the result
  | pure a =>
      simp only [tryFinally, bind_eq, run_bind]
      cases h : (fin.run f s).result <;> simp [run, h]
  | raise e =>
      simp only [tryFinally, bind_eq, run_bind]
      cases h : (fin.run f s).result <;> simp [run, h]
  | call op k ih =>
      simp only [tryFinally, run]
      rw [ih]
      rfl

section Inversion

variable {f} {p : Prog Ret ε α} {g : α → Prog Ret ε β} {s : σ}

/-- A sequence returns exactly when each part of it does. -/
theorem result_bind_ok {b : β} : ((p >>= g).run f s).result = .ok b ↔
    ∃ a, (p.run f s).result = .ok a ∧ ((g a).run f (p.run f s).final).result = .ok b := by
  rw [run_bind]
  cases (p.run f s).result with
  | ok a => simp
  | error e => simp

theorem run_bind_of_ok {a : α} (h : (p.run f s).result = .ok a) :
    (p >>= g).run f s =
      ⟨((g a).run f (p.run f s).final).result,
        (p.run f s).steps ++ ((g a).run f (p.run f s).final).steps,
        ((g a).run f (p.run f s).final).final⟩ := by
  rw [run_bind, h]

theorem events_bind_of_ok {a : α} (h : (p.run f s).result = .ok a) :
    ((p >>= g).run f s).events =
      (p.run f s).events ++ ((g a).run f (p.run f s).final).events := by
  rw [run_bind_of_ok h]
  exact List.map_append

/-- A handler that awaits nothing does not show in the events. -/
theorem events_tryExcept_pure {catches : ε → Bool} {a : α} :
    ((p.tryExcept catches fun _ => Pure.pure a).run f s).events = (p.run f s).events := by
  rw [run_tryExcept]
  cases (p.run f s).result with
  | ok a => rfl
  | error e =>
      simp only
      split
      · simp [Execution.events]
      · rfl

/-- A program with a finalizer returns only what the program itself does. -/
theorem result_of_tryFinally {fin : Prog Ret ε Unit} {a : α}
    (h : ((p.tryFinally fin).run f s).result = .ok a) : (p.run f s).result = .ok a := by
  rw [run_tryFinally] at h
  simp only at h
  split at h
  · exact h
  · cases h

theorem events_tryFinally {fin : Prog Ret ε Unit} :
    ((p.tryFinally fin).run f s).events =
      (p.run f s).events ++ (fin.run f (p.run f s).final).events := by
  rw [run_tryFinally]
  exact List.map_append

end Inversion

/-- What the first part of a program does, the program does. -/
theorem mem_events_bind {p : Prog Ret ε α} (g : α → Prog Ret ε β) {s : σ} {ev : Event Ret ε}
    (h : ev ∈ (p.run f s).events) : ev ∈ ((p >>= g).run f s).events := by
  unfold Execution.events at h ⊢
  rw [run_bind]
  cases (p.run f s).result with
  | ok a =>
      simp only
      rw [List.map_append]
      exact List.mem_append_left _ h
  | error e => exact h

theorem mem_events_tryExcept {p : Prog Ret ε α} {catches : ε → Bool} {h : ε → Prog Ret ε α}
    {s : σ} {ev : Event Ret ε} (hev : ev ∈ (p.run f s).events) :
    ev ∈ ((p.tryExcept catches h).run f s).events := by
  unfold Execution.events at hev ⊢
  rw [run_tryExcept]
  cases (p.run f s).result with
  | ok a => exact hev
  | error e =>
      simp only
      split
      · rw [List.map_append]
        exact List.mem_append_left _ hev
      · exact hev

/-! ## Results and final states of runs -/

/-- A run of the program from `s` ends with a result and in a state that satisfy `P`. -/
def Leads (f : (op : Op) → σ → Except ε (Ret op) × σ) (p : Prog Ret ε α) (s : σ)
    (P : Except ε α → σ → Prop) : Prop :=
  P (p.run f s).result (p.run f s).final

section Leads

variable {P P' : Except ε α → σ → Prop} {s : σ}

@[simp] theorem leads_pure (a : α) : Leads f (Pure.pure a) s P ↔ P (.ok a) s := Iff.rfl

@[simp] theorem leads_raise (e : ε) : Leads f (raise e) s P ↔ P (.error e) s := Iff.rfl

@[simp] theorem leads_lift (x : Except ε α) : Leads f (lift x) s P ↔ P x s := by
  cases x <;> exact Iff.rfl

@[simp] theorem leads_await (op : Op) {P : Except ε (Ret op) → σ → Prop} :
    Leads f (await op) s P ↔ P (f op s).1 (f op s).2 := by
  rw [Leads, run_await]

theorem leads_bind (p : Prog Ret ε α) (g : α → Prog Ret ε β) {P : Except ε β → σ → Prop} :
    Leads f (p >>= g) s P ↔ Leads f p s fun r s' =>
      match r with
      | .ok a => Leads f (g a) s' P
      | .error e => P (.error e) s' := by
  unfold Leads
  rw [run_bind]
  cases (p.run f s).result <;> exact Iff.rfl

/-- Composition with a program whose result and final state are known. -/
theorem leads_bind_of_ok {p : Prog Ret ε α} {a : α} {s' : σ}
    (h : Leads f p s fun r t => r = .ok a ∧ t = s') (g : α → Prog Ret ε β)
    {P : Except ε β → σ → Prop} : Leads f (p >>= g) s P ↔ Leads f (g a) s' P := by
  unfold Leads at h ⊢
  rw [run_bind, h.1, h.2]

theorem leads_tryExcept (p : Prog Ret ε α) (catches : ε → Bool) (h : ε → Prog Ret ε α) :
    Leads f (p.tryExcept catches h) s P ↔ Leads f p s fun r s' =>
      match r with
      | .ok a => P (.ok a) s'
      | .error e => if catches e then Leads f (h e) s' P else P (.error e) s' := by
  unfold Leads
  rw [run_tryExcept]
  cases (p.run f s).result with
  | ok a => exact Iff.rfl
  | error e => by_cases hc : catches e = true <;> simp [hc]

theorem leads_tryFinally (p : Prog Ret ε α) (fin : Prog Ret ε Unit) :
    Leads f (p.tryFinally fin) s P ↔ Leads f p s fun r s' => Leads f fin s' fun r' s'' =>
      match r' with
      | .ok _ => P r s''
      | .error e => P (.error e) s'' := by
  unfold Leads
  rw [run_tryFinally]
  simp only
  cases (fin.run f (p.run f s).final).result <;> exact Iff.rfl

theorem Leads.mono {f : (op : Op) → σ → Except ε (Ret op) × σ} {p : Prog Ret ε α}
    (h : Leads f p s P) (hP : ∀ r s', P r s' → P' r s') : Leads f p s P' := hP _ _ h

end Leads

end Prog

/-! ## Contracts and weakest preconditions -/

/-- What a program may ask in a ghost state, and how an answered operation may move that state. -/
structure Contract (Q : Type) {Op : Type} (Ret : Op → Type) (ε : Type) where
  guar : Q → Op → Prop
  rely : Q → Event Ret ε → Q → Prop

namespace Prog

/-- Weakest precondition: under the contract's `rely`, every operation the program awaits meets
`guar`, and the outcome meets the postcondition. -/
def wp (C : Contract Q Ret ε) : Prog Ret ε α → (Except ε α → Q → Prop) → Q → Prop
  | pure a, P, q => P (.ok a) q
  | raise e, P, q => P (.error e) q
  | call op k, P, q => C.guar q op ∧ ∀ r q', C.rely q ⟨op, r⟩ q' → (k r).wp C P q'

variable (C : Contract Q Ret ε)

@[simp] theorem wp_pure (a : α) (P : Except ε α → Q → Prop) (q : Q) :
    (Pure.pure a : Prog Ret ε α).wp C P q ↔ P (.ok a) q := Iff.rfl

@[simp] theorem wp_raise (e : ε) (P : Except ε α → Q → Prop) (q : Q) :
    (raise e : Prog Ret ε α).wp C P q ↔ P (.error e) q := Iff.rfl

@[simp] theorem wp_lift (x : Except ε α) (P : Except ε α → Q → Prop) (q : Q) :
    (lift x : Prog Ret ε α).wp C P q ↔ P x q := by
  cases x <;> exact Iff.rfl

@[simp] theorem wp_await (op : Op) (P : Except ε (Ret op) → Q → Prop) (q : Q) :
    (await op : Prog Ret ε (Ret op)).wp C P q ↔
      C.guar q op ∧ ∀ r q', C.rely q ⟨op, r⟩ q' → P r q' := by
  simp only [await, wp]
  refine and_congr_right fun _ => forall_congr' fun r => ?_
  cases r <;> exact Iff.rfl

@[simp] theorem wp_bind (p : Prog Ret ε α) (g : α → Prog Ret ε β) (P : Except ε β → Q → Prop)
    (q : Q) :
    (p >>= g).wp C P q ↔
      p.wp C (fun r q' => match r with
        | .ok a => (g a).wp C P q'
        | .error e => P (.error e) q') q := by
  show (p.bind g).wp C P q ↔ _
  induction p generalizing q with
  | pure a => exact Iff.rfl
  | raise e => exact Iff.rfl
  | call op k ih =>
      simp only [Prog.bind, wp]
      exact and_congr_right fun _ => forall_congr' fun r => forall_congr' fun q' =>
        imp_congr_right fun _ => ih r q'

@[simp] theorem wp_tryExcept (p : Prog Ret ε α) (catches : ε → Bool) (h : ε → Prog Ret ε α)
    (P : Except ε α → Q → Prop) (q : Q) :
    (p.tryExcept catches h).wp C P q ↔
      p.wp C (fun r q' => match r with
        | .ok a => P (.ok a) q'
        | .error e => if catches e then (h e).wp C P q' else P (.error e) q') q := by
  induction p generalizing q with
  | pure a => exact Iff.rfl
  | raise e =>
      simp only [tryExcept, wp]
      split <;> exact Iff.rfl
  | call op k ih =>
      simp only [tryExcept, wp]
      exact and_congr_right fun _ => forall_congr' fun r => forall_congr' fun q' =>
        imp_congr_right fun _ => ih r q'

/-- A weaker postcondition is easier to meet. -/
theorem wp_mono {C : Contract Q Ret ε} {p : Prog Ret ε α} {P P' : Except ε α → Q → Prop} {q : Q}
    (h : p.wp C P q) (hP : ∀ r q', P r q' → P' r q') : p.wp C P' q := by
  induction p generalizing q with
  | pure a => exact hP _ _ h
  | raise e => exact hP _ _ h
  | call op k ih => exact ⟨h.1, fun r q' hq => ih r (h.2 r q' hq)⟩

/-- The rule for sequences: an exception of the first part passes, and the second part takes over
where the first one returns. -/
theorem wp_seq {C : Contract Q Ret ε} {p : Prog Ret ε α} {g : α → Prog Ret ε β}
    {P : Except ε α → Q → Prop} {R : Except ε β → Q → Prop} {q : Q} (hp : p.wp C P q)
    (herror : ∀ e q', P (.error e) q' → R (.error e) q')
    (hok : ∀ a q', P (.ok a) q' → (g a).wp C R q') : (p >>= g).wp C R q := by
  rw [wp_bind]
  refine wp_mono hp ?_
  rintro (e | a) q' h
  · exact herror e q' h
  · exact hok a q' h

/-- The rule for an operation and what follows it. -/
theorem wp_await_seq {C : Contract Q Ret ε} {op : Op} {g : Ret op → Prog Ret ε β}
    {R : Except ε β → Q → Prop} {q : Q} (hguar : C.guar q op)
    (herror : ∀ e q', C.rely q ⟨op, .error e⟩ q' → R (.error e) q')
    (hok : ∀ a q', C.rely q ⟨op, .ok a⟩ q' → (g a).wp C R q') : (await op >>= g).wp C R q := by
  refine wp_seq (P := fun r q' => C.rely q ⟨op, r⟩ q') ?_ herror hok
  rw [wp_await]
  exact ⟨hguar, fun r q' h => h⟩

/-- A program that meets a contract meets every contract that asks less of it and promises it
more. -/
theorem wp_of_le {C C' : Contract Q Ret ε} (hguar : ∀ q op, C.guar q op → C'.guar q op)
    (hrely : ∀ q e q', C'.rely q e q' → C.rely q e q') {p : Prog Ret ε α}
    {P : Except ε α → Q → Prop} {q : Q} (h : p.wp C P q) : p.wp C' P q := by
  induction p generalizing q with
  | pure a => exact h
  | raise e => exact h
  | call op k ih =>
      exact ⟨hguar q op h.1, fun r q' hq => ih r (h.2 r q' (hrely _ _ _ hq))⟩

end Prog

/-! ## Adequacy -/

/-- The reply recorded for a step of a run is the one the world gave. -/
theorem Prog.reply_of_mem {f : (op : Op) → σ → Except ε (Ret op) × σ} {p : Prog Ret ε α} {s : σ}
    {st : Step σ Ret ε} (hst : st ∈ (p.run f s).steps) :
    st.event.reply = (f st.event.op st.pre).1 := by
  induction p generalizing s with
  | pure a => simp [run] at hst
  | raise e => simp [run] at hst
  | call op k ih =>
      simp only [run, List.mem_cons] at hst
      rcases hst with rfl | hst
      · rfl
      · exact ih _ hst

/-- A path of the contract's `rely` through a list of steps, meeting `guar` at each of them. -/
inductive Contract.Path (C : Contract Q Ret ε) : Q → List (Event Ret ε) → Q → Prop
  | nil (q : Q) : Path C q [] q
  | cons {q q' q'' : Q} {e : Event Ret ε} {es : List (Event Ret ε)} :
      C.guar q e.op → C.rely q e q' → Path C q' es q'' → Path C q (e :: es) q''

/-- What no step of a run changes is unchanged at its end. -/
theorem Prog.final_of_steps {τ : Type} (g : σ → τ) {f : (op : Op) → σ → Except ε (Ret op) × σ}
    {p : Prog Ret ε α} {s : σ}
    (h : ∀ st ∈ (p.run f s).steps, g (f st.event.op st.pre).2 = g st.pre) :
    g (p.run f s).final = g s := by
  induction p generalizing s with
  | pure a => rfl
  | raise e => rfl
  | call op k ih =>
      have hfirst := h ⟨s, ⟨op, (f op s).1⟩⟩ (by simp [run])
      have hrest := ih (f op s).1 (s := (f op s).2) fun st hst => h st (by simp [run, hst])
      exact hrest.trans hfirst

/-- If every step of a run is simulated by a `rely` step of the ghost state, the run follows a path
of the contract and ends in the postcondition. -/
theorem Prog.wp_run {C : Contract Q Ret ε} (f : (op : Op) → σ → Except ε (Ret op) × σ)
    (R : σ → Q → Prop) {p : Prog Ret ε α} {P : Except ε α → Q → Prop} {s : σ} {q : Q}
    (hp : p.wp C P q) (hR : R s q)
    (hsim : ∀ st ∈ (p.run f s).steps, ∀ q, R st.pre q →
      ∃ q', C.rely q st.event q' ∧ R (f st.event.op st.pre).2 q') :
    ∃ q', C.Path q (p.run f s).events q' ∧ R (p.run f s).final q' ∧
      P (p.run f s).result q' := by
  induction p generalizing s q with
  | pure a => exact ⟨q, .nil q, hR, hp⟩
  | raise e => exact ⟨q, .nil q, hR, hp⟩
  | call op k ih =>
      obtain ⟨hguar, hk⟩ := hp
      obtain ⟨q₁, hrely, hR₁⟩ := hsim ⟨s, ⟨op, (f op s).1⟩⟩ (by simp [run]) q hR
      obtain ⟨q₂, hpath, hR₂, hP⟩ := ih _ (hk _ _ hrely) hR₁
        (fun st hst => hsim st (by simp [run, hst]))
      exact ⟨q₂, .cons hguar hrely hpath, hR₂, hP⟩

end FraudDetection.Async
