import Mathlib.Logic.Function.Basic
import FraudDetection.Async.Trace

/-!
# Tasks that are awaited together

Tasks that take turns at a shared state, one awaited operation at a time, until each has ended.
Where operations of different tasks are independent, the order of the turns does not matter.

* `Gathering.Separate.exec_own_first` moves the turns of one task to the front.
* `Gathering.exec_eq_inOrder` compares a schedule in which every task ends with the tasks one after the
  other.
* `Prog.carriedOut` replaces each operation of a program by a program that carries it out.
-/

namespace FraudDetection.Async

variable {ι σ Op Op' : Type} {Ret : Op → Type} {Ret' : Op' → Type} {ε α : Type}

/-- Neither operation sees the other, and it does not matter which comes first. -/
structure Independent (f : (op : Op) → σ → Except ε (Ret op) × σ) (op op' : Op) : Prop where
  reply : ∀ s, (f op (f op' s).2).1 = (f op s).1
  reply' : ∀ s, (f op' (f op s).2).1 = (f op' s).1
  state : ∀ s, (f op (f op' s).2).2 = (f op' (f op s).2).2

theorem Independent.symm {f : (op : Op) → σ → Except ε (Ret op) × σ} {op op' : Op}
    (h : Independent f op op') : Independent f op' op :=
  ⟨h.reply', h.reply, fun s => (h.state s).symm⟩

/-- What each task has left to do, and the shared state. -/
structure Gathering (ι σ : Type) {Op : Type} (Ret : Op → Type) (ε α : Type) where
  tasks : ι → Prog Ret ε α
  shared : σ

namespace Gathering

variable [DecidableEq ι] (f : (op : Op) → σ → Except ε (Ret op) × σ)

/-! ## Turns -/

/-- Let task `i` perform its next operation, if it has one. -/
def step (g : Gathering ι σ Ret ε α) (i : ι) : Gathering ι σ Ret ε α :=
  match g.tasks i with
  | .call op k => ⟨Function.update g.tasks i (k (f op g.shared).1), (f op g.shared).2⟩
  | _ => g

/-- Let the tasks of a schedule take their turns. -/
def exec (schedule : List ι) (g : Gathering ι σ Ret ε α) : Gathering ι σ Ret ε α :=
  schedule.foldl (step f) g

/-- A task has ended, with a result. -/
def Ended (g : Gathering ι σ Ret ε α) (i : ι) (result : Except ε α) : Prop :=
  g.tasks i = Prog.lift result

/-- The results of the tasks one after the other, and the state they leave. -/
def inOrder (tasks : ι → Prog Ret ε α) : List ι → σ → List (Except ε α) × σ
  | [], s => ([], s)
  | i :: is, s =>
      let x := (tasks i).run f s
      let rest := inOrder tasks is x.final
      (x.result :: rest.1, rest.2)

variable {f} {g : Gathering ι σ Ret ε α} {i j : ι} {schedule : List ι}

theorem step_of_call {op : Op} {k : Except ε (Ret op) → Prog Ret ε α} (h : g.tasks i = .call op k) :
    g.step f i = ⟨Function.update g.tasks i (k (f op g.shared).1), (f op g.shared).2⟩ := by
  unfold step
  rw [h]

theorem step_of_ended {result : Except ε α} (h : g.Ended i result) : g.step f i = g := by
  unfold step
  unfold Ended at h
  rw [h]
  cases result with
  | ok a => rfl
  | error e => rfl

omit [DecidableEq ι] in
/-- A task has ended, or has an operation to perform. -/
theorem ended_or_call (g : Gathering ι σ Ret ε α) (i : ι) :
    (∃ result, g.Ended i result) ∨ ∃ op k, g.tasks i = .call op k := by
  cases h : g.tasks i with
  | pure a => exact Or.inl ⟨.ok a, h⟩
  | raise e => exact Or.inl ⟨.error e, h⟩
  | call op k => exact Or.inr ⟨op, k, rfl⟩

/-- A turn is its task's own. -/
theorem tasks_step_of_ne (h : j ≠ i) : (g.step f i).tasks j = g.tasks j := by
  rcases g.ended_or_call i with ⟨result, hi⟩ | ⟨op, k, hi⟩
  · rw [step_of_ended hi]
  · rw [step_of_call hi]
    exact Function.update_of_ne h _ _

theorem tasks_exec_of_notMem (h : j ∉ schedule) : (exec f schedule g).tasks j = g.tasks j := by
  induction schedule generalizing g with
  | nil => rfl
  | cons i schedule ih =>
    obtain ⟨hji, hrest⟩ := not_or.mp (fun hmem => h (List.mem_cons.mpr hmem))
    show (exec f schedule (g.step f i)).tasks j = g.tasks j
    rw [ih hrest, tasks_step_of_ne hji]

theorem exec_append (before after : List ι) :
    exec f (before ++ after) g = exec f after (exec f before g) :=
  List.foldl_append

/-! ## Independent tasks -/

/-- The operations of a task are its own, and those of different tasks are independent. -/
structure Separate (f : (op : Op) → σ → Except ε (Ret op) × σ) (own : Op → ι)
    (tasks : ι → Prog Ret ε α) : Prop where
  asks : ∀ i, (tasks i).Asks fun op => own op = i
  independent : ∀ op op', own op ≠ own op' → Independent f op op'

section Independent

variable {own : Op → ι}

theorem Separate.stepped (hg : Separate f own g.tasks) (i : ι) : Separate f own (g.step f i).tasks := by
  refine ⟨?_, hg.independent⟩
  intro j
  by_cases hj : j = i
  · subst hj
    have hasks := hg.asks j
    rcases g.ended_or_call j with ⟨result, hi⟩ | ⟨op, k, hi⟩
    · rw [step_of_ended hi]
      exact hasks
    · rw [hi] at hasks
      rw [step_of_call hi]
      dsimp only
      rw [Function.update_self]
      exact hasks.2 _
  · rw [tasks_step_of_ne hj]
    exact hg.asks j

theorem Separate.executed (hg : Separate f own g.tasks) (schedule : List ι) :
    Separate f own (exec f schedule g).tasks := by
  induction schedule generalizing g with
  | nil => exact hg
  | cons i schedule ih => exact ih (hg.stepped i)

/-- Turns of different tasks commute. -/
theorem Separate.step_comm (hg : Separate f own g.tasks) (hij : i ≠ j) :
    (g.step f i).step f j = (g.step f j).step f i := by
  rcases g.ended_or_call i with ⟨result, hi⟩ | ⟨op, k, hi⟩
  · have hi' : (g.step f j).Ended i result := (tasks_step_of_ne hij).trans hi
    rw [step_of_ended hi, step_of_ended hi']
  · rcases g.ended_or_call j with ⟨result, hj⟩ | ⟨op', k', hj⟩
    · have hj' : (g.step f i).Ended j result := (tasks_step_of_ne hij.symm).trans hj
      rw [step_of_ended hj, step_of_ended hj']
    · have hi' : (g.step f j).tasks i = .call op k := (tasks_step_of_ne hij).trans hi
      have hj' : (g.step f i).tasks j = .call op' k' := (tasks_step_of_ne hij.symm).trans hj
      have hown : own op ≠ own op' := by
        have hasks := hg.asks i
        have hasks' := hg.asks j
        rw [hi] at hasks
        rw [hj] at hasks'
        rw [hasks.1, hasks'.1]
        exact hij
      have hindependent := hg.independent op op' hown
      rw [step_of_call hi', step_of_call hj', step_of_call hi, step_of_call hj]
      dsimp only
      rw [hindependent.reply, hindependent.reply', hindependent.state, Function.update_comm hij]

/-- A turn of another task can wait until those of a task are over. -/
theorem Separate.exec_step_comm (hg : Separate f own g.tasks) (h : j ∉ schedule) :
    exec f schedule (g.step f j) = (exec f schedule g).step f j := by
  induction schedule generalizing g with
  | nil => rfl
  | cons i schedule ih =>
    obtain ⟨hji, hrest⟩ := not_or.mp (fun hmem => h (List.mem_cons.mpr hmem))
    show exec f schedule ((g.step f j).step f i) = (exec f schedule (g.step f i)).step f j
    rw [hg.step_comm hji, ih (hg.stepped i) hrest]

/-- The turns of one task can come first. -/
theorem Separate.exec_own_first (hg : Separate f own g.tasks) (i : ι) (schedule : List ι) :
    exec f schedule g =
      exec f (schedule.filter (· ≠ i)) (exec f (schedule.filter (· = i)) g) := by
  induction schedule generalizing g with
  | nil => rfl
  | cons j schedule ih =>
    show exec f schedule (g.step f j) = _
    rw [ih (hg.stepped j)]
    by_cases hj : j = i
    · have hkept : (j :: schedule).filter (· = i) = j :: schedule.filter (· = i) :=
        List.filter_cons_of_pos (decide_eq_true hj)
      have hdropped : (j :: schedule).filter (· ≠ i) = schedule.filter (· ≠ i) :=
        List.filter_cons_of_neg (by simpa using hj)
      rw [hkept, hdropped]
      rfl
    · have hdropped : (j :: schedule).filter (· = i) = schedule.filter (· = i) :=
        List.filter_cons_of_neg (by simpa using hj)
      have hkept : (j :: schedule).filter (· ≠ i) = j :: schedule.filter (· ≠ i) :=
        List.filter_cons_of_pos (decide_eq_true hj)
      have hnotMem : j ∉ schedule.filter (· = i) := by
        intro hmem
        exact hj (by simpa using List.of_mem_filter hmem)
      rw [hkept, hdropped, hg.exec_step_comm hnotMem]
      rfl

end Independent

/-! ## Tasks that end -/

/-- The turns of a task until it ends are its run. -/
theorem run_of_ended (hall : ∀ j ∈ schedule, j = i) {result : Except ε α}
    (h : (exec f schedule g).Ended i result) :
    ((g.tasks i).run f g.shared).result = result ∧
      ((g.tasks i).run f g.shared).final = (exec f schedule g).shared := by
  induction schedule generalizing g with
  | nil =>
    have htask : g.tasks i = Prog.lift result := h
    rw [htask]
    cases result with
    | ok a => exact ⟨rfl, rfl⟩
    | error e => exact ⟨rfl, rfl⟩
  | cons j schedule ih =>
    obtain rfl : j = i := hall j List.mem_cons_self
    have hrest := ih (fun j' hj' => hall j' (List.mem_cons_of_mem j hj')) h
    rcases g.ended_or_call j with ⟨result', hj⟩ | ⟨op, k, hj⟩
    · rw [step_of_ended hj] at hrest
      show _ ∧ _ = (exec f schedule (g.step f j)).shared
      rw [step_of_ended hj]
      exact hrest
    · have hstep := @step_of_call _ _ _ _ _ _ _ f g j op k hj
      rw [hstep] at hrest
      dsimp only at hrest
      rw [Function.update_self] at hrest
      show _ ∧ _ = (exec f schedule (g.step f j)).shared
      rw [hj, hstep]
      exact hrest

omit [DecidableEq ι] in
theorem inOrder_congr {tasks tasks' : ι → Prog Ret ε α} {order : List ι}
    (h : ∀ i ∈ order, tasks i = tasks' i) (s : σ) :
    inOrder f tasks order s = inOrder f tasks' order s := by
  induction order generalizing s with
  | nil => rfl
  | cons i order ih =>
    rw [inOrder, inOrder, h i List.mem_cons_self]
    rw [ih fun j hj => h j (List.mem_cons_of_mem i hj)]

/-- However independent tasks take turns: once they have ended, their results and the state are
those of the tasks one after the other. -/
theorem exec_eq_inOrder {own : Op → ι} (hg : Separate f own g.tasks) {order : List ι}
    (hnodup : order.Nodup) (hmem : ∀ i ∈ schedule, i ∈ order) {results : ι → Except ε α}
    (hended : ∀ i ∈ order, (exec f schedule g).Ended i (results i)) :
    inOrder f g.tasks order g.shared = (order.map results, (exec f schedule g).shared) := by
  induction order generalizing g schedule with
  | nil =>
    have hempty : schedule = [] := List.eq_nil_iff_forall_not_mem.mpr fun i hi => by
      cases hmem i hi
    rw [hempty]
    rfl
  | cons i order ih =>
    obtain ⟨hnotMem, hnodup'⟩ := List.nodup_cons.mp hnodup
    have hsplit := hg.exec_own_first i schedule
    rw [hsplit] at hended ⊢
    -- the task at the head ends in its own turns
    have hhead : (exec f (schedule.filter (· = i)) g).Ended i (results i) := by
      have hi := hended i List.mem_cons_self
      unfold Ended at hi
      rw [tasks_exec_of_notMem] at hi
      · exact hi
      · intro hmem
        simpa using List.of_mem_filter hmem
    have hown : ∀ j ∈ schedule.filter (· = i), j = i := by
      intro j hj
      simpa using List.of_mem_filter hj
    obtain ⟨hresult, hfinal⟩ := run_of_ended hown hhead
    have hothers : ∀ j ∈ order, g.tasks j = (exec f (schedule.filter (· = i)) g).tasks j := by
      intro j hj
      refine (tasks_exec_of_notMem ?_).symm
      intro hmem
      rw [hown j hmem] at hj
      exact hnotMem hj
    have hrest := ih (hg.executed (schedule.filter (· = i))) hnodup' (by
      intro j hj
      refine (List.mem_cons.mp (hmem j (List.mem_of_mem_filter hj))).resolve_left ?_
      simpa using List.of_mem_filter hj) fun j hj => hended j (List.mem_cons_of_mem i hj)
    rw [inOrder, hresult, hfinal, inOrder_congr hothers, hrest]
    rfl

/-- A task ends if it is given enough turns, and the others stay as they are. -/
theorem exists_ended (f : (op : Op) → σ → Except ε (Ret op) × σ) (g : Gathering ι σ Ret ε α) (i : ι) :
    ∃ n result, (exec f (List.replicate n i) g).Ended i result := by
  obtain ⟨p, hp⟩ : ∃ p, g.tasks i = p := ⟨_, rfl⟩
  induction p generalizing g with
  | pure a => exact ⟨0, .ok a, hp⟩
  | raise e => exact ⟨0, .error e, hp⟩
  | call op k ih =>
    have hnext : (g.step f i).tasks i = k (f op g.shared).1 := by
      rw [step_of_call hp]
      exact Function.update_self i _ _
    obtain ⟨n, result, hended⟩ := ih _ (g.step f i) hnext
    exact ⟨n + 1, result, hended⟩

/-- There is a schedule in which the tasks end. -/
theorem exists_schedule (f : (op : Op) → σ → Except ε (Ret op) × σ) (g : Gathering ι σ Ret ε α)
    {order : List ι} (hnodup : order.Nodup) :
    ∃ schedule, (∀ i ∈ schedule, i ∈ order) ∧
      ∀ i ∈ order, ∃ result, (exec f schedule g).Ended i result := by
  induction order generalizing g with
  | nil => exact ⟨[], fun i hi => hi, fun i hi => absurd hi List.not_mem_nil⟩
  | cons i order ih =>
    obtain ⟨hnotMem, hnodup'⟩ := List.nodup_cons.mp hnodup
    obtain ⟨n, result, hended⟩ := exists_ended f g i
    obtain ⟨schedule, hmem, hrest⟩ := ih (exec f (List.replicate n i) g) hnodup'
    refine ⟨List.replicate n i ++ schedule, ?_, ?_⟩
    · intro j hj
      rcases List.mem_append.mp hj with hj | hj
      · rw [List.eq_of_mem_replicate hj]
        exact List.mem_cons_self
      · exact List.mem_cons_of_mem i (hmem j hj)
    · intro j hj
      rw [exec_append]
      rcases List.mem_cons.mp hj with rfl | hj
      · refine ⟨result, ?_⟩
        unfold Ended
        rw [tasks_exec_of_notMem fun hi => hnotMem (hmem j hi)]
        exact hended
      · exact hrest j hj

end Gathering

/-! ## Operations that are programs -/

namespace Prog

/-- The result of a program, an exception included. -/
def attempt : Prog Ret ε α → Prog Ret ε (Except ε α)
  | pure a => pure (.ok a)
  | raise e => pure (.error e)
  | call op k => call op fun r => (k r).attempt

/-- The program with each operation replaced by a program that carries it out. -/
def carriedOut (h : (op : Op) → Prog Ret' ε (Ret op)) : Prog Ret ε α → Prog Ret' ε α
  | pure a => pure a
  | raise e => raise e
  | call op k => (h op).attempt.bind fun r => (k r).carriedOut h

variable {f : (op : Op') → σ → Except ε (Ret' op) × σ} {h : (op : Op) → Prog Ret' ε (Ret op)}

theorem leads_attempt {p : Prog Ret' ε α} {s : σ} {P : Except ε (Except ε α) → σ → Prop} :
    Leads f p.attempt s P ↔ Leads f p s fun r s' => P (.ok r) s' := by
  induction p generalizing s with
  | pure a => exact Iff.rfl
  | raise e => exact Iff.rfl
  | call op k ih => exact ih _

/-- Its run is that of the program in the world that answers each operation by running it. -/
theorem leads_carriedOut {p : Prog Ret ε α} {s : σ} {P : Except ε α → σ → Prop} :
    Leads f (p.carriedOut h) s P ↔
      Leads (fun op s => (((h op).run f s).result, ((h op).run f s).final)) p s P := by
  induction p generalizing s with
  | pure a => exact Iff.rfl
  | raise e => exact Iff.rfl
  | call op k ih =>
    show Leads f ((h op).attempt >>= fun r => (k r).carriedOut h) s P ↔ _
    rw [leads_bind, leads_attempt]
    exact ih _

/-- A program that works on a part of the state, with the rest as a frame. -/
theorem leads_framed {τ : Type} {f : (op : Op) → σ → Except ε (Ret op) × σ}
    {f' : (op : Op) → τ → Except ε (Ret op) × τ} {put : σ → τ}
    (hput : ∀ op s, f' op (put s) = ((f op s).1, put (f op s).2)) {p : Prog Ret ε α} {s : σ}
    {P : Except ε α → τ → Prop} :
    Leads f' p (put s) P ↔ Leads f p s fun r s' => P r (put s') := by
  induction p generalizing s with
  | pure a => exact Iff.rfl
  | raise e => exact Iff.rfl
  | call op k ih =>
    show Leads f' (k (f' op (put s)).1) (f' op (put s)).2 P ↔ _
    rw [hput]
    exact ih _

theorem Asks.attempt {ok : Op → Prop} {p : Prog Ret ε α} (hp : p.Asks ok) : p.attempt.Asks ok := by
  induction p with
  | pure a => trivial
  | raise e => trivial
  | call op k ih => exact ⟨hp.1, fun r => ih r (hp.2 r)⟩

theorem Asks.carriedOut {ok : Op → Prop} {ok' : Op' → Prop} {p : Prog Ret ε α} (hp : p.Asks ok)
    (hh : ∀ op, ok op → (h op).Asks ok') : (p.carriedOut h).Asks ok' := by
  induction p with
  | pure a => trivial
  | raise e => trivial
  | call op k ih => exact (hh op hp.1).attempt.bind fun r => ih r (hp.2 r)

end Prog

end FraudDetection.Async
