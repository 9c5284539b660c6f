import FraudDetection.Async.Program

/-!
# Traces

`Prog.Asks` bounds the operations a program may await, and `Prog.Raises` the exceptions it may
raise. `Emits` describes a program by the events it awaits and the outcome it ends with, for any
replies that satisfy a predicate. The rules follow the program's structure: sequential composition
concatenates events, a caught exception continues with its handler.

A machine without programs takes one event at a time. `Throughout` says something of every event of
a history, in the state it happens in; an invariant is a property that every event keeps.
-/

namespace FraudDetection.Async

variable {Op : Type} {Ret : Op → Type} {ε α β Q σ : Type}

/-! ## The operations a program may await -/

namespace Prog

/-- Whatever the replies, every operation the program awaits is in `ok`. -/
def Asks (ok : Op → Prop) : Prog Ret ε α → Prop
  | pure _ => True
  | raise _ => True
  | call op k => ok op ∧ ∀ r, (k r).Asks ok

variable {ok : Op → Prop}

theorem asks_any (p : Prog Ret ε α) : p.Asks fun _ => True := by
  induction p with
  | pure a => trivial
  | raise e => trivial
  | call op k ih => exact ⟨trivial, ih⟩

theorem asks_lift (x : Except ε α) : (lift x : Prog Ret ε α).Asks ok := by
  cases x <;> trivial

theorem asks_await {op : Op} (h : ok op) : (await op : Prog Ret ε (Ret op)).Asks ok := by
  refine ⟨h, ?_⟩
  intro r
  cases r <;> trivial

theorem Asks.bind {p : Prog Ret ε α} {g : α → Prog Ret ε β} (hp : p.Asks ok)
    (hg : ∀ a, (g a).Asks ok) : (p >>= g).Asks ok := by
  induction p with
  | pure a => exact hg a
  | raise e => trivial
  | call op k ih => exact ⟨hp.1, fun r => ih r (hp.2 r)⟩

theorem Asks.tryExcept {p : Prog Ret ε α} {catches : ε → Bool} {h : ε → Prog Ret ε α}
    (hp : p.Asks ok) (hh : ∀ e, (h e).Asks ok) : (p.tryExcept catches h).Asks ok := by
  induction p with
  | pure a => trivial
  | raise e =>
      unfold Prog.tryExcept
      split
      · exact hh e
      · trivial
  | call op k ih => exact ⟨hp.1, fun r => ih r (hp.2 r)⟩

theorem Asks.tryFinally {p : Prog Ret ε α} {fin : Prog Ret ε Unit} (hp : p.Asks ok)
    (hfin : fin.Asks ok) : (p.tryFinally fin).Asks ok := by
  induction p with
  | pure a => exact hfin.bind fun _ => trivial
  | raise e => exact hfin.bind fun _ => trivial
  | call op k ih => exact ⟨hp.1, fun r => ih r (hp.2 r)⟩

theorem Asks.mono {ok' : Op → Prop} (h : ∀ op, ok op → ok' op) {p : Prog Ret ε α}
    (hp : p.Asks ok) : p.Asks ok' := by
  induction p with
  | pure a => trivial
  | raise e => trivial
  | call op k ih => exact ⟨h op hp.1, fun r => ih r (hp.2 r)⟩

/-- A run performs only operations the program may await. -/
theorem Asks.run {p : Prog Ret ε α} (hp : p.Asks ok) (f : (op : Op) → σ → Except ε (Ret op) × σ)
    (s : σ) : ∀ ev ∈ (p.run f s).events, ok ev.op := by
  induction p generalizing s with
  | pure a => simp [Execution.events, Prog.run]
  | raise e => simp [Execution.events, Prog.run]
  | call op k ih =>
      intro ev hev
      simp only [Execution.events, Prog.run, List.map_cons, List.mem_cons] at hev
      rcases hev with rfl | hev
      · exact hp.1
      · exact ih _ (hp.2 _) _ ev hev

/-! ## The exceptions a program may raise -/

/-- As long as the replies only raise exceptions that satisfy `bad`, so does the program. -/
def Raises (bad : ε → Prop) : Prog Ret ε α → Prop
  | pure _ => True
  | raise e => bad e
  | call _ k => ∀ r, (∀ e, r = .error e → bad e) → (k r).Raises bad

variable {bad : ε → Prop}

theorem raises_lift {x : Except ε α} (h : ∀ e, x = .error e → bad e) :
    (lift x : Prog Ret ε α).Raises bad := by
  cases x with
  | ok a => trivial
  | error e => exact h e rfl

theorem raises_await (op : Op) : (await op : Prog Ret ε (Ret op)).Raises bad := by
  intro r hr
  cases r with
  | ok a => trivial
  | error e => exact hr e rfl

theorem Raises.bind {p : Prog Ret ε α} {g : α → Prog Ret ε β} (hp : p.Raises bad)
    (hg : ∀ a, (g a).Raises bad) : (p >>= g).Raises bad := by
  induction p with
  | pure a => exact hg a
  | raise e => exact hp
  | call op k ih => exact fun r hr => ih r (hp r hr)

/-- In a world that only raises such exceptions, so does a run. -/
theorem Raises.run {p : Prog Ret ε α} (hp : p.Raises bad)
    {f : (op : Op) → σ → Except ε (Ret op) × σ} (hf : ∀ op s e, (f op s).1 = .error e → bad e)
    (s : σ) : ∀ e, (p.run f s).result = .error e → bad e := by
  induction p generalizing s with
  | pure a =>
      intro e he
      cases he
  | raise e =>
      rintro e' ⟨⟩
      exact hp
  | call op k ih => exact ih _ (hp _ (hf op s)) _

end Prog

/-- A program whose operations are allowed in a ghost state, and leave it, ends in that state. -/
theorem Prog.wp_of_asks {C : Contract Q Ret ε} {ok : Op → Prop} {p : Prog Ret ε α}
    (hp : p.Asks ok) {q : Q} (hguar : ∀ op, ok op → C.guar q op)
    (hrely : ∀ op r q', ok op → C.rely q ⟨op, r⟩ q' → q' = q) :
    p.wp C (fun _ q' => q' = q) q := by
  induction p with
  | pure a => rfl
  | raise e => rfl
  | call op k ih =>
      refine ⟨hguar op hp.1, ?_⟩
      intro r q' hstep
      rw [hrely op r q' hp.1 hstep]
      exact ih r (hp.2 r)

/-- A program raises what it may, where the replies do. -/
theorem Prog.wp_of_raises {C : Contract Q Ret ε} {bad : ε → Prop} {p : Prog Ret ε α}
    (hp : p.Raises bad) {q : Q} (hguar : ∀ op, C.guar q op)
    (hrely : ∀ op r q', C.rely q ⟨op, r⟩ q' → q' = q ∧ ∀ e, r = .error e → bad e) :
    p.wp C (fun r q' => q' = q ∧ ∀ e, r = .error e → bad e) q := by
  induction p with
  | pure a => exact ⟨rfl, fun e he => by cases he⟩
  | raise e =>
      refine ⟨rfl, ?_⟩
      rintro e' ⟨⟩
      exact hp
  | call op k ih =>
      refine ⟨hguar op, ?_⟩
      intro r q' hstep
      obtain ⟨rfl, hbad⟩ := hrely op r q' hstep
      exact ih r (hp r hbad)

/-! ## Traces -/

/-- The contract whose ghost state is the list of events so far: the operations asked for satisfy
`ok`, their replies satisfy `A`. -/
def traced (ok : Op → Prop) (A : Event Ret ε → Prop) : Contract (List (Event Ret ε)) Ret ε where
  guar := fun _ op => ok op
  rely := fun q ev q' => q' = q ++ [ev] ∧ A ev

/-- The program only awaits operations in `ok`; for replies allowed by `A` it emits events `es` and
ends with `r` such that `P r es`. -/
def Emits (ok : Op → Prop) (A : Event Ret ε → Prop) (p : Prog Ret ε α)
    (P : Except ε α → List (Event Ret ε) → Prop) : Prop :=
  ∀ q, p.wp (traced ok A) (fun r q' => ∃ es, q' = q ++ es ∧ P r es) q

variable {ok : Op → Prop} {A : Event Ret ε → Prop}

theorem Emits.mono {p : Prog Ret ε α} {P R : Except ε α → List (Event Ret ε) → Prop}
    (h : Emits ok A p P) (hP : ∀ r es, P r es → R r es) : Emits ok A p R := fun q =>
  Prog.wp_mono (h q) fun r _ ⟨es, hq, hes⟩ => ⟨es, hq, hP r es hes⟩

theorem asks_of_wp {p : Prog Ret ε α} {P : Except ε α → List (Event Ret ε) → Prop}
    {q : List (Event Ret ε)} (h : p.wp (traced ok fun _ => True) P q) : p.Asks ok := by
  induction p generalizing q with
  | pure a => trivial
  | raise e => trivial
  | call op k ih => exact ⟨h.1, fun r => ih r (h.2 r _ ⟨rfl, trivial⟩)⟩

/-- A program described by its events asks only for the operations allowed there. -/
theorem Emits.asks {p : Prog Ret ε α} {P : Except ε α → List (Event Ret ε) → Prop}
    (h : Emits ok (fun _ => True) p P) : p.Asks ok := asks_of_wp (h [])

/-- Sequential composition: the events of the parts are concatenated. -/
theorem Emits.bind {p : Prog Ret ε α} {f : α → Prog Ret ε β}
    {P : Except ε α → List (Event Ret ε) → Prop} {R : Except ε β → List (Event Ret ε) → Prop}
    (hp : Emits ok A p P)
    (hraise : ∀ x es, P (.error x) es → R (.error x) es)
    (hf : ∀ a es, P (.ok a) es → Emits ok A (f a) fun r fs => R r (es ++ fs)) :
    Emits ok A (p >>= f) R := by
  intro q
  refine Prog.wp_seq (hp q) ?_ ?_
  · rintro x _ ⟨es, rfl, hP⟩
    exact ⟨es, rfl, hraise x es hP⟩
  · rintro a _ ⟨es, rfl, hP⟩
    refine Prog.wp_mono (hf a es hP _) ?_
    rintro r _ ⟨fs, rfl, hR⟩
    exact ⟨es ++ fs, List.append_assoc _ _ _, hR⟩

theorem Emits.pure {a : α} {P : Except ε α → List (Event Ret ε) → Prop} (h : P (.ok a) []) :
    Emits ok A (Pure.pure a : Prog Ret ε α) P := fun q => ⟨[], (List.append_nil q).symm, h⟩

/-- One awaited operation emits one event. -/
theorem Emits.await {op : Op} {P : Except ε (Ret op) → List (Event Ret ε) → Prop} (hop : ok op)
    (h : ∀ r, A ⟨op, r⟩ → P r [⟨op, r⟩]) : Emits ok A (Prog.await op) P := by
  intro q
  rw [Prog.wp_await]
  refine ⟨hop, ?_⟩
  rintro r _ ⟨rfl, hA⟩
  exact ⟨[⟨op, r⟩], rfl, h r hA⟩

/-- An awaited operation followed by the rest of the program. -/
theorem Emits.await_bind {op : Op} {f : Ret op → Prog Ret ε β}
    {R : Except ε β → List (Event Ret ε) → Prop} (hop : ok op)
    (hraise : ∀ x, A ⟨op, .error x⟩ → R (.error x) [⟨op, .error x⟩])
    (hf : ∀ a, A ⟨op, .ok a⟩ → Emits ok A (f a) fun r fs => R r (⟨op, .ok a⟩ :: fs)) :
    Emits ok A (Prog.await op >>= f) R := by
  refine Emits.bind
    (Emits.await (P := fun r es => es = [⟨op, r⟩] ∧ A ⟨op, r⟩) hop fun r hA => ⟨rfl, hA⟩) ?_ ?_
  · rintro x _ ⟨rfl, hA⟩
    exact hraise x hA
  · rintro a _ ⟨rfl, hA⟩
    exact hf a hA

/-- A caught exception is replaced by the outcome of its handler. -/
theorem Emits.tryExcept {p : Prog Ret ε α} {catches : ε → Bool} {h : ε → Prog Ret ε α}
    {P R : Except ε α → List (Event Ret ε) → Prop} (hp : Emits ok A p P)
    (hok : ∀ a es, P (.ok a) es → R (.ok a) es)
    (hpass : ∀ x es, catches x = false → P (.error x) es → R (.error x) es)
    (hcatch : ∀ x es, catches x = true → P (.error x) es →
      Emits ok A (h x) fun r fs => R r (es ++ fs)) :
    Emits ok A (p.tryExcept catches h) R := by
  intro q
  rw [Prog.wp_tryExcept]
  refine Prog.wp_mono (hp q) ?_
  rintro r _ ⟨es, rfl, hP⟩
  cases r with
  | ok a => exact ⟨es, rfl, hok a es hP⟩
  | error x =>
      simp only
      split
      · rename_i hx
        refine Prog.wp_mono (hcatch x es hx hP _) ?_
        rintro r _ ⟨fs, rfl, hR⟩
        exact ⟨es ++ fs, List.append_assoc _ _ _, hR⟩
      · rename_i hx
        exact ⟨es, rfl, hpass x es (by simpa using hx) hP⟩

/-! ## Guarantees at a point of a run -/

/-- Where the ghost state is the list of events so far, the guarantee of an operation holds of
exactly the events before it. -/
theorem Contract.Path.guar_at {C : Contract (List (Event Ret ε)) Ret ε}
    (happ : ∀ q e q', C.rely q e q' → q' = q ++ [e]) {q q' : List (Event Ret ε)}
    {es : List (Event Ret ε)} (hp : C.Path q es q') {before after : List (Event Ret ε)}
    {e : Event Ret ε} (hes : es = before ++ e :: after) : C.guar (q ++ before) e.op := by
  induction hp generalizing before with
  | nil q => simp at hes
  | @cons q q₁ q₂ ev es hguar hrely hp ih =>
      cases before with
      | nil =>
          obtain ⟨rfl, -⟩ := List.cons.inj hes
          rw [List.append_nil]
          exact hguar
      | cons ev' before =>
          obtain ⟨rfl, htail⟩ := List.cons.inj hes
          have hnext := ih htail
          rw [happ _ _ _ hrely, List.append_assoc] at hnext
          exact hnext

/-- Where the ghost state is the list of events so far, it ends as the list of all events. -/
theorem Contract.Path.eq_append {C : Contract (List (Event Ret ε)) Ret ε}
    (happ : ∀ q e q', C.rely q e q' → q' = q ++ [e]) {q q' : List (Event Ret ε)}
    {es : List (Event Ret ε)} (hp : C.Path q es q') : q' = q ++ es := by
  induction hp with
  | nil q => exact (List.append_nil q).symm
  | cons _ hrely _ ih =>
      rw [ih, happ _ _ _ hrely, List.append_assoc]
      rfl

/-- A run of a program does what the program emits. -/
theorem Emits.run {p : Prog Ret ε α} {P : Except ε α → List (Event Ret ε) → Prop}
    (h : Emits ok A p P) (f : (op : Op) → σ → Except ε (Ret op) × σ) (s : σ)
    (hA : ∀ ev ∈ (p.run f s).events, A ev) : P (p.run f s).result (p.run f s).events := by
  have happ : ∀ q e q', (traced ok A).rely q e q' → q' = q ++ [e] := fun _ _ _ hrely => hrely.1
  have hsim : ∀ st ∈ (p.run f s).steps, ∀ q : List (Event Ret ε), True →
      ∃ q', (traced ok A).rely q st.event q' ∧ True := by
    intro st hst q _
    exact ⟨_, ⟨rfl, hA _ (List.mem_map_of_mem hst)⟩, trivial⟩
  obtain ⟨q, hpath, -, es, hq, hP⟩ := Prog.wp_run f (fun _ _ => True) (h []) trivial hsim
  have hend := hpath.eq_append happ
  rw [hq, List.nil_append, List.nil_append] at hend
  exact hend ▸ hP

/-! ## Machines -/

section Machines

variable {σ Event : Type} {step : σ → Event → σ} {P : σ → Event → Prop}

/-- The state after a history. -/
def runEvents (step : σ → Event → σ) (s : σ) (events : List Event) : σ := events.foldl step s

/-- Every event of the history satisfies `P` in the state it happens in. -/
def Throughout (step : σ → Event → σ) (P : σ → Event → Prop) : σ → List Event → Prop
  | _, [] => True
  | s, event :: events => P s event ∧ Throughout step P (step s event) events

/-- What every event keeps holds after the history. -/
theorem Throughout.invariant {J : σ → Prop}
    (hstep : ∀ s event, J s → P s event → J (step s event)) {s : σ} {events : List Event}
    (hP : Throughout step P s events) (hJ : J s) : J (runEvents step s events) := by
  induction events generalizing s with
  | nil => exact hJ
  | cons event events ih => exact ih hP.2 (hstep s event hJ hP.1)

theorem runEvents_concat (s : σ) (events : List Event) (event : Event) :
    runEvents step s (events ++ [event]) = step (runEvents step s events) event := by
  rw [runEvents, List.foldl_append]
  rfl

/-- One more event. -/
theorem Throughout.concat {s : σ} {events : List Event} {event : Event}
    (h : Throughout step P s events) (hlast : P (runEvents step s events) event) :
    Throughout step P s (events ++ [event]) := by
  induction events generalizing s with
  | nil => exact ⟨hlast, trivial⟩
  | cons first events ih => exact ⟨h.1, ih h.2 hlast⟩

end Machines

end FraudDetection.Async
