import Mathlib.Logic.Function.Basic
import FraudDetection.Async.Trace

/-!
# Interleaved processes

Processes that take turns at a shared state, one awaited operation at a time. A schedule names the
process that moves next; `System.exec` runs it and records who moved and what happened.

* `System.exec_invariant` proves a property of all traces from a contract that every process meets
  and a step rule for each move.
* `System.pre_of_trace` recovers the shared state of each move from the moves before it.
* `System.exec_alone` compares a process with itself run alone: where the shared state answers as the
  one that the process's own operations would have left, the process does the same.
-/

namespace FraudDetection.Async

variable {ι σ τ Op : Type} {Ret : Op → Type} {ε Q : Type}

/-- What each process has left to do, the state of its own, and the shared state. -/
structure System (ι σ τ : Type) {Op : Type} (Ret : Op → Type) (ε : Type) where
  threads : ι → Prog Ret ε Unit
  locals : ι → σ
  shared : τ

/-- A move: the process that took it, and its step. -/
abbrev Move (ι σ τ : Type) {Op : Type} (Ret : Op → Type) (ε : Type) := ι × Step (σ × τ) Ret ε

namespace System

variable [DecidableEq ι] (f : ι → (op : Op) → σ × τ → Except ε (Ret op) × (σ × τ))

/-! ## Running a schedule -/

/-- Let process `i` perform its next operation, if it has one. -/
def step (s : System ι σ τ Ret ε) (i : ι) :
    Option (Step (σ × τ) Ret ε) × System ι σ τ Ret ε :=
  match s.threads i with
  | .call op k =>
      let r := f i op (s.locals i, s.shared)
      (some ⟨(s.locals i, s.shared), ⟨op, r.1⟩⟩,
        { threads := Function.update s.threads i (k r.1)
          locals := Function.update s.locals i r.2.1
          shared := r.2.2 })
  | _ => (none, s)

/-- Run a schedule: the moves made, and the system they leave. -/
def exec : List ι → System ι σ τ Ret ε → List (Move ι σ τ Ret ε) × System ι σ τ Ret ε
  | [], s => ([], s)
  | i :: is, s =>
      let r := exec is (s.step f i).2
      ((s.step f i).1.toList.map (fun st => (i, st)) ++ r.1, r.2)

/-- The moves of a schedule. -/
def trace (is : List ι) (s : System ι σ τ Ret ε) : List (Move ι σ τ Ret ε) := (s.exec f is).1

theorem trace_nil (s : System ι σ τ Ret ε) : s.trace f [] = [] := rfl

theorem trace_cons (i : ι) (is : List ι) (s : System ι σ τ Ret ε) :
    s.trace f (i :: is)
      = (s.step f i).1.toList.map (fun st => (i, st)) ++ (s.step f i).2.trace f is := rfl

/-- A process that has an operation to perform performs it. -/
theorem step_of_call {s : System ι σ τ Ret ε} {i : ι} {op : Op}
    {k : Except ε (Ret op) → Prog Ret ε Unit} (h : s.threads i = .call op k) :
    s.step f i =
      (some ⟨(s.locals i, s.shared), ⟨op, (f i op (s.locals i, s.shared)).1⟩⟩,
        { threads := Function.update s.threads i (k (f i op (s.locals i, s.shared)).1)
          locals := Function.update s.locals i (f i op (s.locals i, s.shared)).2.1
          shared := (f i op (s.locals i, s.shared)).2.2 }) := by
  unfold step
  rw [h]

/-- A process that has ended does not move. -/
theorem step_of_done {s : System ι σ τ Ret ε} {i : ι}
    (h : ∀ op k, s.threads i ≠ .call op k) : s.step f i = (none, s) := by
  unfold step
  cases hi : s.threads i with
  | pure a => rfl
  | raise e => rfl
  | call op k => exact absurd hi (h op k)

/-- A move takes an operation that the program of its process asks for, and has the reply to it. -/
theorem of_mem_trace {ok : ι → Op → Prop} {is : List ι} {s : System ι σ τ Ret ε}
    {x : Move ι σ τ Ret ε} (hasks : ∀ i, (s.threads i).Asks (ok i)) (hx : x ∈ s.trace f is) :
    ok x.1 x.2.event.op ∧ x.2.event.reply = (f x.1 x.2.event.op x.2.pre).1 := by
  induction is generalizing s with
  | nil => cases hx
  | cons i is ih =>
      by_cases hcall : ∃ op k, s.threads i = .call op k
      · obtain ⟨op, k, hi⟩ := hcall
        have hop := hasks i
        rw [hi] at hop
        rw [trace_cons, step_of_call f hi] at hx
        rcases List.mem_cons.mp hx with rfl | hx
        · exact ⟨hop.1, rfl⟩
        · refine ih ?_ hx
          intro j
          by_cases hj : j = i
          · subst hj
            simpa using hop.2 _
          · simpa [hj] using hasks j
      · rw [trace_cons, step_of_done f fun op k h => hcall ⟨op, k, h⟩] at hx
        exact ih hasks hx

/-! ## The state between moves -/

/-- The shared state that some moves leave. -/
def together (t : τ) (moves : List (Move ι σ τ Ret ε)) : τ :=
  moves.foldl (fun t x => (f x.1 x.2.event.op (x.2.pre.1, t)).2.2) t

omit [DecidableEq ι] in
theorem together_cons (t : τ) (x : Move ι σ τ Ret ε) (moves : List (Move ι σ τ Ret ε)) :
    together f t (x :: moves) = together f (f x.1 x.2.event.op (x.2.pre.1, t)).2.2 moves := rfl

/-- Every move starts from the shared state that the moves before it left. -/
theorem pre_of_trace {is : List ι} {s : System ι σ τ Ret ε} {before after : List (Move ι σ τ Ret ε)}
    {x : Move ι σ τ Ret ε} (h : s.trace f is = before ++ x :: after) :
    x.2.pre.2 = together f s.shared before := by
  induction is generalizing s before with
  | nil =>
      rw [trace_nil] at h
      simp at h
  | cons i is ih =>
      by_cases hcall : ∃ op k, s.threads i = .call op k
      · obtain ⟨op, k, hi⟩ := hcall
        rw [trace_cons, step_of_call f hi] at h
        rcases before with _ | ⟨y, before⟩
        · obtain ⟨rfl, -⟩ := List.cons.inj h
          rfl
        · obtain ⟨rfl, hrest⟩ := List.cons.inj h
          rw [together_cons]
          exact ih hrest
      · rw [trace_cons, step_of_done f fun op k h => hcall ⟨op, k, h⟩] at h
        exact ih h

/-! ## Invariants of traces -/

variable {f}

/-- A property `J` of the ghost states of the processes and the moves so far holds of every trace,
if every process meets the contract from its ghost state and every move that the contract allows
takes `J` on. Side conditions on the moves of the trace are given by `ok`. -/
theorem exec_invariant {C : Contract Q Ret ε} (J : (ι → Q) → List (Move ι σ τ Ret ε) → Prop)
    (ok : List (Move ι σ τ Ret ε) → Move ι σ τ Ret ε → Prop)
    (hstep : ∀ qs before i st, J qs before → ok before (i, st) →
      st.event.reply = (f i st.event.op st.pre).1 → C.guar (qs i) st.event.op →
      ∃ q', C.rely (qs i) st.event q' ∧ J (Function.update qs i q') (before ++ [(i, st)]))
    {qs : ι → Q} {past : List (Move ι σ τ Ret ε)} (hJ : J qs past) (is : List ι)
    (s : System ι σ τ Ret ε) (hwp : ∀ i, (s.threads i).wp C (fun _ _ => True) (qs i))
    (hok : ∀ before x after, s.trace f is = before ++ x :: after → ok (past ++ before) x) :
    ∃ qs', J qs' (past ++ s.trace f is) := by
  induction is generalizing s qs past with
  | nil => exact ⟨qs, by rwa [trace_nil, List.append_nil]⟩
  | cons i is ih =>
      by_cases hcall : ∃ op k, s.threads i = .call op k
      · obtain ⟨op, k, hi⟩ := hcall
        have hwpi := hwp i
        rw [hi] at hwpi
        obtain ⟨hguar, hcont⟩ := hwpi
        rw [trace_cons, step_of_call f hi] at hok ⊢
        have hfirst := hok [] _ _ rfl
        rw [List.append_nil] at hfirst
        obtain ⟨q', hrely, hJ'⟩ := hstep qs past i _ hJ hfirst rfl hguar
        -- the process that moved meets the contract from its new ghost state, the others as before
        have hrest := ih hJ'
          { threads := Function.update s.threads i (k (f i op (s.locals i, s.shared)).1)
            locals := Function.update s.locals i (f i op (s.locals i, s.shared)).2.1
            shared := (f i op (s.locals i, s.shared)).2.2 } ?_ ?_
        · simpa using hrest
        · intro j
          by_cases hj : j = i
          · subst hj
            simpa using hcont _ q' hrely
          · simpa [hj] using hwp j
        · intro before x after heq
          have hnext := hok ((i, ⟨(s.locals i, s.shared),
            ⟨op, (f i op (s.locals i, s.shared)).1⟩⟩) :: before) x after (by simp [heq])
          simpa using hnext
      · have hdone := step_of_done f fun op k h => hcall ⟨op, k, h⟩
        rw [trace_cons, hdone] at hok ⊢
        exact ih hJ s hwp hok

/-! ## One process alone -/

variable (f)

/-- The shared state that the moves of process `a` alone would have left. -/
def alone (a : ι) (t : τ) (moves : List (Move ι σ τ Ret ε)) : τ :=
  moves.foldl (fun t x => if x.1 = a then (f a x.2.event.op (x.2.pre.1, t)).2.2 else t) t

theorem alone_cons (a : ι) (t : τ) (x : Move ι σ τ Ret ε) (moves : List (Move ι σ τ Ret ε)) :
    alone f a t (x :: moves)
      = alone f a (if x.1 = a then (f a x.2.event.op (x.2.pre.1, t)).2.2 else t) moves := rfl

/-- The events of one process in a trace. -/
def eventsOf (a : ι) (moves : List (Move ι σ τ Ret ε)) : List (Event Ret ε) :=
  (moves.filter fun x => x.1 = a).map fun x => x.2.event

/-- If at every move of `a` the shared state answers as the one that `a` alone would have left, `a`
does what it does when no other process is scheduled. -/
theorem exec_alone (a : ι) (is : List ι) (s s' : System ι σ τ Ret ε)
    (hthread : s'.threads a = s.threads a) (hlocal : s'.locals a = s.locals a)
    (hagree : ∀ before st after, s.trace f is = before ++ (a, st) :: after →
      let r := f a st.event.op st.pre
      let r' := f a st.event.op (st.pre.1, alone f a s'.shared before)
      r.1 = r'.1 ∧ r.2.1 = r'.2.1) :
    eventsOf a (s.trace f is) = eventsOf a (s'.trace f (is.filter fun i => i = a)) := by
  induction is generalizing s s' with
  | nil => rfl
  | cons i is ih =>
      by_cases hia : i = a
      · subst hia
        rw [List.filter_cons_of_pos (by simp)]
        by_cases hcall : ∃ op k, s.threads i = .call op k
        · obtain ⟨op, k, hi⟩ := hcall
          rw [trace_cons, step_of_call f hi] at hagree ⊢
          rw [trace_cons, step_of_call f (hthread.trans hi)]
          obtain ⟨hreply, hlocal'⟩ := hagree [] _ _ rfl
          rw [hlocal]
          simp only [alone, List.foldl_nil] at hreply hlocal'
          simp only [Option.toList_some, List.map_cons, List.map_nil, List.cons_append,
            List.nil_append, eventsOf, decide_true, List.filter_cons_of_pos]
          rw [← hreply]
          -- equal replies: `a` continues with the same program and state in both runs
          refine congrArg _ (ih _ _ ?_ ?_ ?_)
          · simp [hreply]
          · simp [hlocal']
          · intro before st after heq
            have hnext := hagree ((i, ⟨(s.locals i, s.shared),
              ⟨op, (f i op (s.locals i, s.shared)).1⟩⟩) :: before) st after (by simp [heq])
            rw [alone_cons] at hnext
            simpa using hnext
        · have hdone := step_of_done f fun op k h => hcall ⟨op, k, h⟩
          have hdone' : s'.step f i = (none, s') :=
            step_of_done f fun op k h => hcall ⟨op, k, hthread.symm.trans h⟩
          rw [trace_cons, hdone] at hagree ⊢
          rw [trace_cons, hdone']
          exact ih s s' hthread hlocal hagree
      · rw [List.filter_cons_of_neg (by simpa using hia)]
        by_cases hcall : ∃ op k, s.threads i = .call op k
        · -- another process moves: `a` and the state it would have left stay as they are
          obtain ⟨op, k, hi⟩ := hcall
          have hai : a ≠ i := fun h => hia h.symm
          rw [trace_cons, step_of_call f hi] at hagree ⊢
          have hrest := ih
            { threads := Function.update s.threads i (k (f i op (s.locals i, s.shared)).1)
              locals := Function.update s.locals i (f i op (s.locals i, s.shared)).2.1
              shared := (f i op (s.locals i, s.shared)).2.2 } s'
            (by simpa [hai] using hthread) (by simpa [hai] using hlocal) ?_
          · simpa [eventsOf, hia] using hrest
          · intro before st after heq
            have hnext := hagree ((i, ⟨(s.locals i, s.shared),
              ⟨op, (f i op (s.locals i, s.shared)).1⟩⟩) :: before) st after (by simp [heq])
            rw [alone_cons, if_neg hia] at hnext
            exact hnext
        · have hdone := step_of_done f fun op k h => hcall ⟨op, k, h⟩
          rw [trace_cons, hdone] at hagree ⊢
          exact ih s s' hthread hlocal hagree

end System

end FraudDetection.Async
