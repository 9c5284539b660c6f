import Mathlib.Data.Finset.Basic
import FraudDetection.Async.Pool
import FraudDetection.Python.Value

/-!
# The database manager

`DatabaseManager` owns the engine of a service and hands out sessions on it. `create_engine` and
`close` wait while an engine is disposed of, and then set the attributes without looking at them
again. So one of two calls that overlap can drop an engine that the other one has just made.

The `Phase` of a call says what it knows of the engine, and `Phase.Fits` that this is still so.
Calls that only use the engine change nothing that a phase depends on; of the calls that replace it,
`Accounted.alone` leaves one that can make an engine.
-/

namespace FraudDetection.Database

open Async Python

/-! ## Operations -/

/-- The arguments of `create_engine`. -/
structure EngineOptions where
  dsn : String
  poolSize : ℤ := 20
  maxOverflow : ℤ := 10
  poolPrePing : Bool := true
  poolRecycle : ℤ := 3600
  echo : Bool := false
  connectArgs : Option (List (String × Json)) := none

/-- The arguments of `create_async_engine`. -/
def EngineOptions.arguments (o : EngineOptions) : EngineOptions :=
  { o with connectArgs := some (o.connectArgs.getD []) }

variable {ι V α : Type}

/-- What a method awaits, or does to its manager. Engines and sessions are numbered, and a statement
inserts a row. -/
inductive DatabaseOp (V : Type) where
  | engine
  | install (o : EngineOptions)
  | dispose (e : ℕ)
  | clear
  | session
  | execute (n : ℕ) (row : V)
  | commit (n : ℕ)
  | rollback (n : ℕ)
  | closeSession (n : ℕ)
  | ping (e : ℕ)

namespace DatabaseOp

/-- The reply to an operation. -/
abbrev Ret : DatabaseOp V → Type
  | engine => Option ℕ
  | install _ => Unit
  | dispose _ => Unit
  | clear => Unit
  | session => Option ℕ
  | execute .. => Unit
  | commit _ => Unit
  | rollback _ => Unit
  | closeSession _ => Unit
  | ping _ => Option ℤ

/-- Whether an operation concerns the engine of the manager. -/
def replaces : DatabaseOp V → Bool
  | install _ => true
  | dispose _ => true
  | clear => true
  | _ => false

end DatabaseOp

/-- A method of the manager. -/
abbrev Method (V : Type) := Prog (DatabaseOp.Ret (V := V)) Exn

/-! ## The methods -/

/-- The text contains the part. -/
def hasPart (part text : String) : Bool := decide (part.toList <:+: text.toList)

/-- The error of a DSN that is not asynchronous, with the text that `repr` makes of it. -/
def dsnError (repr : String → String) (dsn : String) : Exn :=
  ⟨.other "ValueError", "DSN must use an async dialect (e.g. asyncpg). Got: " ++ repr dsn⟩

/-- `DatabaseManager.close` -/
def close : Method V Unit := do
  let engine ← Prog.await DatabaseOp.engine
  match engine with
  | none => pure ()
  | some e => do
      Prog.await (DatabaseOp.dispose e)
      -- `self._engine = None` and `self._session_factory = None`
      Prog.await DatabaseOp.clear

/-- `DatabaseManager.create_engine` -/
def createEngine (repr : String → String) (o : EngineOptions) : Method V Unit :=
  if !hasPart "asyncpg" o.dsn && !hasPart "+aiosqlite" o.dsn then
    Prog.raise (dsnError repr o.dsn)
  else do
    let engine ← Prog.await DatabaseOp.engine
    if engine.isSome then
      close
    Prog.await (DatabaseOp.install o.arguments)

/-- The error of `get_session` without an engine. -/
def notInitialised : Exn :=
  ⟨.runtimeError,
    "DatabaseManager is not initialised. Call create_engine() before requesting sessions."⟩

/-- `DatabaseManager.get_session`, around the body of an `async with`. -/
def getSession (body : ℕ → Method V α) : Method V α := do
  let session ← Prog.await DatabaseOp.session
  match session with
  | none => Prog.raise notInitialised
  | some n =>
      Prog.tryFinally
        (Prog.tryExcept
          (do
            let a ← body n
            Prog.await (DatabaseOp.commit n)
            pure a)
          Exn.isException fun x => do
            Prog.await (DatabaseOp.rollback n)
            Prog.raise x)
        (Prog.await (DatabaseOp.closeSession n))

/-- `DatabaseManager.health_check` -/
def healthCheck : Method V Bool := do
  let engine ← Prog.await DatabaseOp.engine
  match engine with
  | none => pure false
  | some e =>
      Prog.tryExcept
        (do
          let row ← Prog.await (DatabaseOp.ping e)
          pure (decide (row = some 1)))
        Exn.isException fun _ => pure false

/-! ## The service -/

/-- A call of a method. A session is called for with the body of its `async with`. -/
inductive Call (V α : Type) where
  | createEngine (o : EngineOptions)
  | close
  | getSession (body : ℕ → Method V α)
  | healthCheck

/-- What a call returns. -/
inductive Answer (α : Type) where
  | done
  | healthy (b : Bool)
  | result (a : α)

/-- The method that is called. -/
def Call.program (repr : String → String) : Call V α → Method V (Answer α)
  | createEngine o => do
      Database.createEngine repr o
      pure .done
  | close => do
      Database.close
      pure .done
  | getSession body => do
      let a ← Database.getSession body
      pure (.result a)
  | healthCheck => do
      let b ← Database.healthCheck
      pure (.healthy b)

/-- The engines made so far and those disposed of; `_engine` and the engine of `_session_factory`;
the call and the engine of each session, and whether it is open; the rows that its transaction
holds; the rows that each commit has stored; and the database's answer to `SELECT 1`. -/
structure Manager (ι V : Type) where
  engines : List EngineOptions
  disposed : Finset ℕ
  current : Option ℕ
  factory : Option ℕ
  sessions : List (ι × ℕ)
  isOpen : Finset ℕ
  pending : ℕ → List V
  commits : List (ℕ × List V)
  pong : Option ℤ

/-- `DatabaseManager()`, next to an empty table. -/
def freshManager (pong : Option ℤ) : Manager ι V :=
  ⟨[], ∅, none, none, [], ∅, fun _ => [], [], pong⟩

/-- An operation of a call. -/
def Manager.perform (i : ι) (op : DatabaseOp V) (t : Manager ι V) :
    Except Exn op.Ret × Manager ι V :=
  match op with
  | .engine => (.ok t.current, t)
  | .install o =>
      (.ok (), { t with
        engines := t.engines ++ [o]
        current := some t.engines.length
        factory := some t.engines.length })
  | .dispose e => (.ok (), { t with disposed := insert e t.disposed })
  | .clear => (.ok (), { t with current := none, factory := none })
  | .session =>
      match t.factory with
      | none => (.ok none, t)
      | some e =>
          (.ok (some t.sessions.length), { t with
            sessions := t.sessions ++ [(i, e)]
            isOpen := insert t.sessions.length t.isOpen })
  | .execute n row =>
      (.ok (), { t with pending := Function.update t.pending n (t.pending n ++ [row]) })
  | .commit n =>
      (.ok (), { t with
        pending := Function.update t.pending n []
        commits := t.commits ++ [(n, t.pending n)] })
  | .rollback n => (.ok (), { t with pending := Function.update t.pending n [] })
  | .closeSession n =>
      (.ok (), { t with
        pending := Function.update t.pending n []
        isOpen := t.isOpen.erase n })
  | .ping _ => (.ok t.pong, t)

/-- Calls in progress, and the manager. -/
abbrev ManagerPool (ι V α : Type) :=
  Pool ι (Manager ι V) (DatabaseOp.Ret (V := V)) Exn (Answer α)

/-- Calls of the methods. The database may come to answer differently. -/
def managerCalls (repr : String → String) (calls : ι → Call V α) :
    Setting ι (Manager ι V) (DatabaseOp.Ret (V := V)) Exn (Answer α) where
  program := fun i => (calls i).program repr
  perform := Manager.perform
  drift := fun t t' => t' = { t with pong := t'.pong }

/-- No call in progress, and no engine. -/
def freshPool (pong : Option ℤ) : ManagerPool ι V α := ⟨fun _ => none, freshManager pong⟩

/-- Two calls that replace the engine, of which one makes an engine. -/
def Call.clashes : Call V α → Call V α → Bool
  | createEngine _, createEngine _ => true
  | createEngine _, close => true
  | close, createEngine _ => true
  | _, _ => false

/-- No call of `create_engine` overlaps another one, or a call of `close`. -/
def Apart [DecidableEq ι] (calls : ι → Call V α) (s : ManagerPool ι V α) :
    Happening ι (DatabaseOp V) Exn → Prop
  | .start i => ∀ j, (calls i).clashes (calls j) → s.tasks j = none
  | _ => True

/-! ## Phases -/

/-- Where a call stands. `close` may be called for on its own, or by `create_engine`, which then
goes on to make an engine with the arguments `after`. -/
inductive Phase where
  | creating (o : EngineOptions)
  | closing (after : Option EngineOptions)
  | disposing (after : Option EngineOptions) (e : ℕ)
  | clearing (after : Option EngineOptions)
  | installing (o : EngineOptions)
  | created (o : EngineOptions)
  | closed
  | failed (after : Option EngineOptions)
  | uses

namespace Phase

/-- The phase in which a call starts. -/
def ofCall : Call V α → Phase
  | .createEngine o => creating o.arguments
  | .close => closing none
  | .getSession _ => uses
  | .healthCheck => uses

/-- Whether a call replaces the engine, and with what. -/
def purpose : Phase → Option (Option EngineOptions)
  | creating o => some (some o)
  | closing after => some after
  | disposing after _ => some after
  | clearing after => some after
  | installing o => some (some o)
  | created o => some (some o)
  | closed => some none
  | failed after => some after
  | uses => none

/-- The phase after an operation that failed. -/
def stopped (q : Phase) : Phase :=
  match q.purpose with
  | none => uses
  | some after => failed after

/-- The phase after `close`. -/
def afterClose : Option EngineOptions → Phase
  | none => closed
  | some o => installing o

/-- The phase after an operation. -/
def next (q : Phase) (ev : Event (DatabaseOp.Ret (V := V)) Exn) : Phase :=
  match q, ev with
  | creating o, ⟨.engine, .ok none⟩ => installing o
  | creating o, ⟨.engine, .ok (some _)⟩ => closing (some o)
  | closing after, ⟨.engine, .ok none⟩ => afterClose after
  | closing after, ⟨.engine, .ok (some e)⟩ => disposing after e
  | disposing after _, ⟨.dispose _, .ok _⟩ => clearing after
  | clearing after, ⟨.clear, .ok _⟩ => afterClose after
  | installing o, ⟨.install _, .ok _⟩ => created o
  | q, _ => q.stopped

/-- A call that returns has done what it is for. -/
def finished : Phase → Prop
  | created _ => True
  | closed => True
  | uses => True
  | _ => False

/-- What a call takes the engine to be. -/
def Fits (t : Manager ι V) : Phase → Prop
  | disposing _ e => ∀ e', t.current = some e' → e' = e
  | clearing _ => ∀ e, t.current = some e → e ∈ t.disposed
  | installing _ => t.current = none
  | created o => ∃ e, t.current = some e ∧ t.engines[e]? = some o
  | closed => t.current = none
  | _ => True

theorem purpose_stopped (q : Phase) : q.stopped.purpose = q.purpose := by
  unfold stopped
  split
  · rename_i h
    exact h.symm
  · rename_i h
    exact h.symm

theorem purpose_afterClose (after : Option EngineOptions) :
    (afterClose after).purpose = some after := by
  cases after <;> rfl

/-- A call goes on doing what it is for. -/
theorem purpose_next (q : Phase) (ev : Event (DatabaseOp.Ret (V := V)) Exn) :
    (q.next ev).purpose = q.purpose := by
  unfold next
  split
  · rfl
  · rfl
  · exact purpose_afterClose _
  · rfl
  · rfl
  · exact purpose_afterClose _
  · rfl
  · exact purpose_stopped _

theorem next_error (q : Phase) (op : DatabaseOp V) (x : Exn) :
    q.next ⟨op, .error x⟩ = q.stopped := by
  cases q <;> cases op <;> rfl

theorem next_uses (ev : Event (DatabaseOp.Ret (V := V)) Exn) : uses.next ev = uses := by
  obtain ⟨op, r⟩ := ev
  cases op <;> rfl

theorem fits_stopped (t : Manager ι V) (q : Phase) : q.stopped.Fits t := by
  unfold stopped
  split <;> trivial

/-- A phase depends on the engine of the manager, and stays right when another one is disposed
of. -/
theorem Fits.mono {t t' : Manager ι V} {q : Phase} (h : q.Fits t)
    (hcurrent : t'.current = t.current) (hengines : t'.engines = t.engines)
    (hdisposed : t.disposed ⊆ t'.disposed) : q.Fits t' := by
  cases q with
  | disposing after e =>
      intro e' he'
      exact h e' (hcurrent ▸ he')
  | clearing after =>
      intro e he
      exact hdisposed (h e (hcurrent ▸ he))
  | installing o => exact hcurrent.trans h
  | created o =>
      obtain ⟨e, he, ho⟩ := h
      exact ⟨e, hcurrent.trans he, hengines ▸ ho⟩
  | closed => exact hcurrent.trans h
  | _ => trivial

end Phase

/-- The operations of a call, phase by phase. -/
def protocol : Contract Phase (DatabaseOp.Ret (V := V)) Exn where
  guar := fun q op =>
    match q with
    | .creating _ => op = .engine
    | .closing _ => op = .engine
    | .disposing _ e => op = .dispose e
    | .clearing _ => op = .clear
    | .installing o => op = .install o
    | .uses => op.replaces = false
    | _ => False
  rely := fun q ev q' => q' = q.next ev

/-- How a call ends. -/
def Ends (r : Except Exn α) (q : Phase) : Prop := (∃ x, r = .error x) ∨ q.finished

/-- `close`, on its own or for `create_engine`. -/
theorem wp_close (after : Option EngineOptions) :
    (close : Method V Unit).wp protocol
      (fun r q => (∃ x, r = .error x) ∨ q = Phase.afterClose after) (.closing after) := by
  refine Prog.wp_await_seq rfl ?_ ?_
  · intro x q _
    exact Or.inl ⟨x, rfl⟩
  · rintro (_ | e) q rfl
    · exact Or.inr rfl
    · refine Prog.wp_await_seq rfl ?_ ?_
      · intro x q _
        exact Or.inl ⟨x, rfl⟩
      · rintro _ q rfl
        rw [Prog.wp_await]
        refine ⟨rfl, ?_⟩
        rintro (x | _) q rfl
        · exact Or.inl ⟨x, rfl⟩
        · exact Or.inr rfl

theorem wp_install (o : EngineOptions) :
    (Prog.await (DatabaseOp.install o) : Method V Unit).wp protocol
      (fun r q => (∃ x, r = .error x) ∨ q = .created o) (.installing o) := by
  rw [Prog.wp_await]
  refine ⟨rfl, ?_⟩
  rintro (x | _) q rfl
  · exact Or.inl ⟨x, rfl⟩
  · exact Or.inr rfl

/-- `create_engine` closes the engine that is there, and makes one. -/
theorem wp_createEngine (repr : String → String) (o : EngineOptions) :
    (createEngine repr o : Method V Unit).wp protocol
      (fun r q => (∃ x, r = .error x) ∨ q = .created o.arguments) (.creating o.arguments) := by
  unfold createEngine
  split
  · exact Or.inl ⟨_, rfl⟩
  · refine Prog.wp_await_seq rfl ?_ ?_
    · intro x q _
      exact Or.inl ⟨x, rfl⟩
    · rintro (_ | e) q rfl
      · exact wp_install o.arguments
      · refine Prog.wp_seq (wp_close (some o.arguments)) ?_ ?_
        · intro x q _
          exact Or.inl ⟨x, rfl⟩
        · rintro _ q (⟨x, ⟨⟩⟩ | rfl)
          exact wp_install o.arguments

/-- A method that leaves the engine alone may ask for anything else. -/
theorem wp_uses {p : Method V α} (hp : p.Asks fun op => op.replaces = false) :
    p.wp protocol Ends .uses := by
  refine Prog.wp_mono (Prog.wp_of_asks hp (fun op hop => hop) ?_) ?_
  · intro op r q' _ hq'
    exact hq'.trans (Phase.next_uses _)
  · rintro r q rfl
    exact Or.inr trivial

theorem asks_getSession {body : ℕ → Method V α}
    (hbody : ∀ n, (body n).Asks fun op => op.replaces = false) :
    (getSession body).Asks fun op => op.replaces = false := by
  unfold getSession
  refine Prog.Asks.bind (Prog.asks_await ?_) ?_
  · rfl
  · rintro (_ | n)
    · trivial
    · refine Prog.Asks.tryFinally (Prog.Asks.tryExcept ?_ ?_) (Prog.asks_await ?_)
      · refine (hbody n).bind fun a => Prog.Asks.bind (Prog.asks_await ?_) fun _ => trivial
        rfl
      · intro x
        refine Prog.Asks.bind (Prog.asks_await ?_) fun _ => trivial
        rfl
      · rfl

theorem asks_healthCheck : (healthCheck : Method V Bool).Asks fun op => op.replaces = false := by
  unfold healthCheck
  refine Prog.Asks.bind (Prog.asks_await ?_) ?_
  · rfl
  · rintro (_ | e)
    · trivial
    · refine Prog.Asks.tryExcept (Prog.Asks.bind (Prog.asks_await ?_) ?_) fun _ => trivial
      · rfl
      · intro _
        trivial

/-- What is done with a session does not replace the engine. -/
def Bodies (calls : ι → Call V α) : Prop :=
  ∀ i body, calls i = .getSession body → ∀ n, (body n).Asks fun op => op.replaces = false

/-- Every call keeps to the protocol. -/
theorem wp_program (repr : String → String) {calls : ι → Call V α} (hbodies : Bodies calls) (i : ι) :
    ((calls i).program repr).wp protocol Ends (.ofCall (calls i)) := by
  cases hcall : calls i with
  | createEngine o =>
      refine Prog.wp_seq (wp_createEngine repr o) ?_ ?_
      · intro x q _
        exact Or.inl ⟨x, rfl⟩
      · rintro _ q (⟨x, ⟨⟩⟩ | rfl)
        exact Or.inr trivial
  | close =>
      refine Prog.wp_seq (wp_close none) ?_ ?_
      · intro x q _
        exact Or.inl ⟨x, rfl⟩
      · rintro _ q (⟨x, ⟨⟩⟩ | rfl)
        exact Or.inr trivial
  | getSession body =>
      exact wp_uses ((asks_getSession (hbodies i body hcall)).bind fun _ => trivial)
  | healthCheck => exact wp_uses (asks_healthCheck.bind fun _ => trivial)

/-! ## The invariant -/

/-- The manager has lost no engine, and the calls in progress know what they take for granted. -/
structure Accounted (calls : ι → Call V α) (qs : ι → Option Phase) (t : Manager ι V) : Prop where
  bound : t.factory = t.current
  kept : ∀ e < t.engines.length, t.current = some e ∨ e ∈ t.disposed
  alone : ∀ i j, qs i ≠ none → qs j ≠ none → (calls i).clashes (calls j) → i = j
  purpose : ∀ i q, qs i = some q → q.purpose = (Phase.ofCall (calls i)).purpose
  fits : ∀ i q, qs i = some q → q.Fits t

/-- Two calls that replace the engine clash if one of them makes one. -/
theorem clashes_of_purpose {c c' : Call V α} {o : EngineOptions}
    (h : (Phase.ofCall c).purpose = some (some o)) (h' : (Phase.ofCall c').purpose ≠ none) :
    c.clashes c' = true ∧ c'.clashes c = true := by
  cases c with
  | createEngine o' =>
      cases c' with
      | createEngine o'' => exact ⟨rfl, rfl⟩
      | close => exact ⟨rfl, rfl⟩
      | getSession body => exact absurd rfl h'
      | healthCheck => exact absurd rfl h'
  | _ => cases h

theorem clashes_symm {c c' : Call V α} (h : c.clashes c' = true) : c'.clashes c = true := by
  cases c <;> cases c' <;> first | rfl | cases h

section Accounted

variable [DecidableEq ι] {calls : ι → Call V α} {qs : ι → Option Phase} {t t' : Manager ι V}
  {i : ι} {q q' : Phase}

/-- A step of a call, after which the phases of all the others are still right. -/
theorem Accounted.advance (h : Accounted calls qs t) (hq : qs i = some q)
    (hpurpose : q'.purpose = q.purpose) (hfits : q'.Fits t') (hbound : t'.factory = t'.current)
    (hkept : ∀ e < t'.engines.length, t'.current = some e ∨ e ∈ t'.disposed)
    (hothers : ∀ j p, j ≠ i → qs j = some p → p.Fits t → p.Fits t') :
    Accounted calls (Function.update qs i (some q')) t' := by
  have hsome : ∀ j, Function.update qs i (some q') j ≠ none → qs j ≠ none := by
    intro j hj
    by_cases hji : j = i
    · rw [hji, hq]
      simp
    · rwa [Function.update_of_ne hji] at hj
  refine ⟨hbound, hkept, ?_, ?_, ?_⟩
  · intro j j' hj hj' hclash
    exact h.alone j j' (hsome j hj) (hsome j' hj') hclash
  · intro j p hj
    rcases Pool.update_cases hj with ⟨rfl, hnew⟩ | ⟨-, hold⟩
    · cases hnew
      exact hpurpose.trans (h.purpose j q hq)
    · exact h.purpose j p hold
  · intro j p hj
    rcases Pool.update_cases hj with ⟨rfl, hnew⟩ | ⟨hji, hold⟩
    · cases hnew
      exact hfits
    · exact hothers j p hji hold (h.fits j p hold)

/-- A step that leaves the engine alone, or disposes of one. -/
theorem Accounted.quiet (h : Accounted calls qs t) (hq : qs i = some q)
    (hpurpose : q'.purpose = q.purpose) (hfits : q'.Fits t') (hengines : t'.engines = t.engines)
    (hcurrent : t'.current = t.current) (hfactory : t'.factory = t.factory)
    (hdisposed : t.disposed ⊆ t'.disposed) :
    Accounted calls (Function.update qs i (some q')) t' := by
  refine h.advance hq hpurpose hfits ?_ ?_ ?_
  · rw [hfactory, hcurrent, h.bound]
  · intro e he
    rw [hengines] at he
    rw [hcurrent]
    exact (h.kept e he).imp_right fun hmem => hdisposed hmem
  · intro j p _ _ hp
    exact hp.mono hcurrent hengines hdisposed

omit [DecidableEq ι] in
/-- A call that replaces the engine is alone with a call that makes one. -/
theorem Accounted.unique (h : Accounted calls qs t) {j : ι} {p : Phase} {o : EngineOptions}
    (hq : qs i = some q) (hp : qs j = some p) (hmakes : q.purpose = some (some o))
    (hreplaces : p.purpose ≠ none) : j = i := by
  have hclash := clashes_of_purpose ((h.purpose i q hq).symm.trans hmakes)
    (h.purpose j p hp ▸ hreplaces)
  exact h.alone j i (by simp [hp]) (by simp [hq]) hclash.2

/-- The manager forgets an engine that is disposed of. -/
theorem Accounted.clear {after : Option EngineOptions} (h : Accounted calls qs t)
    (hq : qs i = some (.clearing after)) (hpurpose : q'.purpose = some after)
    (hfits : q'.Fits { t with current := none, factory := none }) :
    Accounted calls (Function.update qs i (some q')) { t with current := none, factory := none } := by
  refine h.advance hq hpurpose hfits rfl ?_ ?_
  · intro e he
    right
    rcases h.kept e he with hcurrent | hmem
    -- the engine that is forgotten has been disposed of
    · exact h.fits i _ hq e hcurrent
    · exact hmem
  · intro j p hji hp hfit
    cases p with
    | created o =>
        -- a call that has made an engine would be alone
        exact absurd (h.unique hp hq rfl (by simp [Phase.purpose])) (Ne.symm hji)
    | disposing after' e => rintro e' ⟨⟩
    | clearing after' => rintro e' ⟨⟩
    | installing o => rfl
    | closed => rfl
    | _ => trivial

/-- The manager gets an engine where it has none. -/
theorem Accounted.install {o : EngineOptions} (h : Accounted calls qs t)
    (hq : qs i = some (.installing o)) (hpurpose : q'.purpose = some (some o))
    (hfits : q'.Fits (t.perform i (.install o)).2) :
    Accounted calls (Function.update qs i (some q')) (t.perform i (.install o)).2 := by
  have hnone : t.current = none := h.fits i _ hq
  refine h.advance hq hpurpose hfits rfl ?_ ?_
  · intro e he
    have hlt : e < t.engines.length + 1 := by
      simpa [Manager.perform] using he
    -- an older engine is not the current one, as there is none, so it is disposed of
    rcases Nat.lt_succ_iff_lt_or_eq.mp hlt with hold | rfl
    · rcases h.kept e hold with hcurrent | hmem
      · rw [hnone] at hcurrent
        cases hcurrent
      · exact Or.inr hmem
    · exact Or.inl rfl
  · intro j p hji hp hfit
    by_cases hreplaces : p.purpose = none
    · cases p with
      | uses => trivial
      | _ => cases hreplaces
    · exact absurd (h.unique hq hp rfl hreplaces) hji

omit [DecidableEq ι] in
/-- An operation that does not replace the engine. -/
theorem perform_engine {op : DatabaseOp V} (hop : op.replaces = false) :
    (t.perform i op).2.engines = t.engines ∧ (t.perform i op).2.current = t.current ∧
      (t.perform i op).2.factory = t.factory ∧ (t.perform i op).2.disposed = t.disposed := by
  cases op with
  | install o => cases hop
  | dispose e => cases hop
  | clear => cases hop
  | session =>
      unfold Manager.perform
      split <;> exact ⟨rfl, rfl, rfl, rfl⟩
  | _ => exact ⟨rfl, rfl, rfl, rfl⟩

omit [DecidableEq ι] in
/-- What a call learns from the manager is so. -/
theorem fits_engine (hguar : protocol.guar q (DatabaseOp.engine : DatabaseOp V)) :
    (q.next (⟨.engine, .ok t.current⟩ : Event (DatabaseOp.Ret (V := V)) Exn)).Fits t := by
  cases hcurrent : t.current with
  | none =>
      cases q with
      | creating o => exact hcurrent
      | closing after => cases after <;> exact hcurrent
      | uses => trivial
      | _ => cases hguar
  | some e =>
      cases q with
      | creating o => trivial
      | closing after =>
          intro e' he'
          exact Option.some.inj (he'.symm.trans hcurrent)
      | uses => trivial
      | _ => cases hguar

omit [DecidableEq ι] in
/-- The phase after an operation that is answered is right. -/
theorem fits_perform {op : DatabaseOp V} (hfits : q.Fits t) (hguar : protocol.guar q op) :
    (q.next ⟨op, (t.perform i op).1⟩).Fits (t.perform i op).2 := by
  cases q with
  | creating o =>
      obtain rfl : op = .engine := hguar
      exact fits_engine (q := .creating o) rfl
  | closing after =>
      obtain rfl : op = .engine := hguar
      exact fits_engine (q := .closing after) rfl
  | disposing after e =>
      obtain rfl : op = .dispose e := hguar
      intro e' he'
      rw [hfits e' he']
      exact Finset.mem_insert_self ..
  | clearing after =>
      obtain rfl : op = .clear := hguar
      cases after <;> rfl
  | installing o =>
      obtain rfl : op = .install o := hguar
      exact ⟨t.engines.length, rfl, List.getElem?_concat_length⟩
  | uses =>
      rw [Phase.next_uses]
      trivial
  | _ => cases hguar

/-- An operation of a call that is carried out. -/
theorem Accounted.perform (h : Accounted calls qs t) {op : DatabaseOp V} (hq : qs i = some q)
    (hguar : protocol.guar q op) (hpurpose : q'.purpose = q.purpose)
    (hfits : q'.Fits (t.perform i op).2) :
    Accounted calls (Function.update qs i (some q')) (t.perform i op).2 := by
  by_cases hop : op.replaces = true
  · cases q with
    | disposing after e =>
        obtain rfl : op = .dispose e := hguar
        exact h.quiet hq hpurpose hfits rfl rfl rfl (Finset.subset_insert _ _)
    | clearing after =>
        obtain rfl : op = .clear := hguar
        exact h.clear hq hpurpose hfits
    | installing o =>
        obtain rfl : op = .install o := hguar
        exact h.install hq hpurpose hfits
    | uses => exact absurd (hop.symm.trans hguar) (by simp)
    | creating o =>
        obtain rfl : op = .engine := hguar
        cases hop
    | closing after =>
        obtain rfl : op = .engine := hguar
        cases hop
    | _ => cases hguar
  · obtain ⟨hengines, hcurrent, hfactory, hdisposed⟩ :=
      perform_engine (t := t) (i := i) (Bool.not_eq_true _ ▸ hop)
    exact h.quiet hq hpurpose hfits hengines hcurrent hfactory hdisposed.symm.subset

/-- An operation of a call, however it fares. -/
theorem Accounted.command (h : Accounted calls qs t) {op : DatabaseOp V} {d : Delivery Exn}
    (hq : qs i = some q) (hguar : protocol.guar q op) :
    let x := d.outcome (t.perform i op) t
    Accounted calls (Function.update qs i (some (q.next ⟨op, x.1⟩))) x.2 := by
  have hstopped : ∀ (x : Exn) (t' : Manager ι V), (q.next ⟨op, .error x⟩).Fits t' := by
    intro x t'
    rw [Phase.next_error]
    exact Phase.fits_stopped t' q
  cases d with
  | answered => exact h.perform hq hguar (q.purpose_next _) (fits_perform (h.fits i q hq) hguar)
  | unanswered x => exact h.perform hq hguar (q.purpose_next _) (hstopped x _)
  | lost x => exact h.quiet hq (q.purpose_next _) (hstopped x t) rfl rfl rfl subset_rfl

/-- A call starts where no call is in progress that it clashes with. -/
theorem Accounted.start (h : Accounted calls qs t) (hfree : qs i = none)
    (hapart : ∀ j, (calls i).clashes (calls j) → qs j = none) :
    Accounted calls (Function.update qs i (some (Phase.ofCall (calls i)))) t := by
  refine ⟨h.bound, h.kept, ?_, ?_, ?_⟩
  · intro j j' hj hj' hclash
    by_cases hji : j = i
    · by_cases hji' : j' = i
      · rw [hji, hji']
      · rw [Function.update_of_ne hji'] at hj'
        rw [hji] at hclash
        exact absurd (hapart j' hclash) hj'
    · rw [Function.update_of_ne hji] at hj
      by_cases hji' : j' = i
      · rw [hji'] at hclash
        exact absurd (hapart j (clashes_symm hclash)) hj
      · rw [Function.update_of_ne hji'] at hj'
        exact h.alone j j' hj hj' hclash
  · intro j p hj
    rcases Pool.update_cases hj with ⟨rfl, hnew⟩ | ⟨-, hold⟩
    · cases hnew
      rfl
    · exact h.purpose j p hold
  · intro j p hj
    rcases Pool.update_cases hj with ⟨rfl, hnew⟩ | ⟨-, hold⟩
    · cases hnew
      cases calls j <;> trivial
    · exact h.fits j p hold

/-- A call ends. -/
theorem Accounted.erase (h : Accounted calls qs t) (i : ι) :
    Accounted calls (Function.update qs i none) t := by
  have hold : ∀ j p, Function.update qs i none j = some p → qs j = some p := by
    intro j p hj
    rcases Pool.update_cases hj with ⟨-, hnew⟩ | ⟨-, hold⟩
    · cases hnew
    · exact hold
  have hsome : ∀ j, Function.update qs i none j ≠ none → qs j ≠ none := by
    intro j hj
    obtain ⟨p, hp⟩ := Option.ne_none_iff_exists'.mp hj
    rw [hold j p hp]
    simp
  exact {
    bound := h.bound
    kept := h.kept
    alone := fun j j' hj hj' => h.alone j j' (hsome j hj) (hsome j' hj')
    purpose := fun j p hj => h.purpose j p (hold j p hj)
    fits := fun j p hj => h.fits j p (hold j p hj) }

end Accounted

/-! ## Runs -/

section Runs

variable [DecidableEq ι] {repr : String → String} {calls : ι → Call V α} {pong : Option ℤ}
  {s : ManagerPool ι V α}

omit [DecidableEq ι] in
theorem accounted_fresh (calls : ι → Call V α) (pong : Option ℤ) :
    Accounted calls (fun _ => none) (freshManager pong) := by
  refine ⟨rfl, ?_, ?_, ?_, ?_⟩
  · intro e he
    exact absurd he (Nat.not_lt_zero e)
  · intro i j hi
    exact absurd rfl hi
  · rintro i q ⟨⟩
  · rintro i q ⟨⟩

/-- As long as no call of `create_engine` overlaps another one or one of `close`, no engine is
lost. -/
theorem accounted_run (hbodies : Bodies calls)
    (hrun : Pool.Run (managerCalls repr calls) (Apart calls) (freshPool pong) s) :
    ∃ qs, Pool.Meets protocol Ends s.tasks qs ∧ Accounted calls qs s.shared := by
  have hmeets : Pool.Meets protocol Ends (freshPool pong : ManagerPool ι V α).tasks
      fun _ => none := fun i => Or.inl ⟨rfl, rfl⟩
  refine Pool.invariant_of_meets (fun qs t => Accounted calls qs t) ?_ ?_ ?_ ?_ ?_ hmeets
    (accounted_fresh calls pong) hrun
  · intro qs s i hmeets h hi hapart
    refine ⟨.ofCall (calls i), wp_program repr hbodies i, h.start (hmeets.none hi) ?_⟩
    intro j hclash
    exact hmeets.none (hapart j hclash)
  · intro qs s i q op d _ h hq hguar _
    exact ⟨_, rfl, h.command hq hguar⟩
  · intro qs t i q r h _ _
    exact h.erase i
  · intro qs s i p q h _ _ _ _
    exact h.erase i
  · intro qs t t' h ht
    rw [ht]
    exact ⟨h.bound, h.kept, h.alone, h.purpose,
      fun i q hq => (h.fits i q hq).mono rfl rfl subset_rfl⟩

omit [DecidableEq ι] in
/-- The phase of a call that has returned. -/
theorem finished_of_pure {qs : ι → Option Phase} (hmeets : Pool.Meets protocol Ends s.tasks qs)
    {i : ι} {a : Answer α} (hi : s.tasks i = some (.pure a)) : ∃ q, qs i = some q ∧ q.finished := by
  obtain ⟨q, hq, hwp⟩ := hmeets.some hi
  rcases hwp with ⟨x, ⟨⟩⟩ | hfinished
  exact ⟨q, hq, hfinished⟩

/-- As long as no call of `create_engine` overlaps another one or one of `close`: every engine made
is the current one or disposed of; sessions are made on the current engine; after a call of
`create_engine` the current engine is the one it asked for; and after a call of `close` there is
none, and every engine is disposed of. -/
theorem engines_accounted (repr : String → String) (calls : ι → Call V α) (pong : Option ℤ)
    (s : ManagerPool ι V α) (hbodies : Bodies calls)
    (hrun : Pool.Run (managerCalls repr calls) (Apart calls) (freshPool pong) s) :
    (∀ e < s.shared.engines.length, s.shared.current = some e ∨ e ∈ s.shared.disposed) ∧
      s.shared.factory = s.shared.current ∧
      (∀ i o a, calls i = .createEngine o → s.tasks i = some (.pure a) →
        ∃ e, s.shared.current = some e ∧ s.shared.engines[e]? = some o.arguments) ∧
      ∀ i a, calls i = .close → s.tasks i = some (.pure a) →
        s.shared.current = none ∧ ∀ e < s.shared.engines.length, e ∈ s.shared.disposed := by
  obtain ⟨qs, hmeets, h⟩ := accounted_run hbodies hrun
  refine ⟨h.kept, h.bound, ?_, ?_⟩
  · intro i o a hcall hi
    obtain ⟨q, hq, hfinished⟩ := finished_of_pure hmeets hi
    have hpurpose := h.purpose i q hq
    rw [hcall] at hpurpose
    cases q with
    | created o' =>
        cases hpurpose
        exact h.fits i _ hq
    | closed => cases hpurpose
    | uses => cases hpurpose
    | _ => cases hfinished
  · intro i a hcall hi
    obtain ⟨q, hq, hfinished⟩ := finished_of_pure hmeets hi
    have hpurpose := h.purpose i q hq
    rw [hcall] at hpurpose
    cases q with
    | created o => cases hpurpose
    | closed =>
        have hnone : s.shared.current = none := h.fits i _ hq
        refine ⟨hnone, ?_⟩
        intro e he
        rcases h.kept e he with hcurrent | hmem
        · rw [hnone] at hcurrent
          cases hcurrent
        · exact hmem
    | uses => cases hpurpose
    | _ => cases hfinished

end Runs

/-! ### Samples -/

/-- Three calls of `create_engine`, then calls of `close`. -/
def sampleCalls : ℕ → Call String Unit
  | 0 => .createEngine { dsn := "postgresql+asyncpg://db/fraud" }
  | 1 => .createEngine { dsn := "postgresql+asyncpg://replica/fraud" }
  | 2 => .createEngine { dsn := "postgresql+asyncpg://standby/fraud" }
  | _ => .close

/-- The service that makes these calls. -/
abbrev sampleService :
    Setting ℕ (Manager ℕ String) (DatabaseOp.Ret (V := String)) Exn (Answer Unit) :=
  managerCalls id sampleCalls

theorem bodies_sampleCalls : Bodies sampleCalls := by
  intro i body hcall
  unfold sampleCalls at hcall
  split at hcall <;> cases hcall

/-- The manager after the first call. -/
def madeManager : Manager ℕ String :=
  Pool.script (Manager.perform 0) ((sampleCalls 0).program id) [.answered, .answered]
    (freshManager (some 1))

theorem run_made {ok : ManagerPool ℕ String Unit → Happening ℕ (DatabaseOp String) Exn → Prop}
    (hstart : ∀ s : ManagerPool ℕ String Unit, (∀ i, s.tasks i = none) → ok s (.start 0))
    (hok : ∀ s l, (∀ i, l ≠ .start i) → ok s l) :
    Pool.Run sampleService ok (freshPool (some 1)) ⟨fun _ => none, madeManager⟩ :=
  Pool.run_task rfl (hstart _ fun _ => rfl) (Pool.fares_of_started hok 0 _ _ _)

/-- The service after the first call, and a call of `close` that has returned. -/
def closedPool : ManagerPool ℕ String Unit :=
  ⟨Function.update (fun _ => none) 3 (some (Pool.remaining (Manager.perform 3)
    ((sampleCalls 3).program id) [.answered, .answered, .answered] madeManager)),
    Pool.script (Manager.perform 3) ((sampleCalls 3).program id) [.answered, .answered, .answered]
      madeManager⟩

theorem run_closed : Pool.Run sampleService (Apart sampleCalls) (freshPool (some 1)) closedPool := by
  have hok : ∀ s l, (∀ i, l ≠ .start i) → Apart sampleCalls s l := by
    intro s l hl
    cases l with
    | start i => exact absurd rfl (hl i)
    | _ => trivial
  refine (run_made (fun s hs j _ => hs j) hok).trans ?_
  refine Pool.run_started (i := 3) rfl (fun j _ => rfl) ?_
  exact ⟨trivial, trivial, trivial, trivial⟩

/-- After the call of `close` the engine is disposed of. -/
theorem engines_accounted_closed :
    closedPool.shared.current = none ∧ closedPool.shared.engines.length = 1 ∧
      0 ∈ closedPool.shared.disposed := by
  have hlength : closedPool.shared.engines.length = 1 := by decide +kernel
  have hclosed := (engines_accounted id sampleCalls (some 1) closedPool bodies_sampleCalls
    run_closed).2.2.2 3 .done rfl (by rfl)
  exact ⟨hclosed.1, hlength, hclosed.2 0 (hlength ▸ Nat.zero_lt_one)⟩

/-- The operations of `create_engine` up to the end of `dispose`, and those after it. -/
abbrev untilDisposed : List (Delivery Exn) := [.answered, .answered, .answered]

abbrev afterDisposed : List (Delivery Exn) := [.answered, .answered]

/-- The manager while two calls of `create_engine` have disposed of the same engine. -/
def disposedManager : Manager ℕ String :=
  Pool.script (Manager.perform 2) ((sampleCalls 2).program id) untilDisposed
    (Pool.script (Manager.perform 1) ((sampleCalls 1).program id) untilDisposed madeManager)

/-- The manager after both have gone on, one after the other. -/
def overlappedManager : Manager ℕ String :=
  let first := Pool.remaining (Manager.perform 1) ((sampleCalls 1).program id) untilDisposed
    madeManager
  let second := Pool.remaining (Manager.perform 2) ((sampleCalls 2).program id) untilDisposed
    (Pool.script (Manager.perform 1) ((sampleCalls 1).program id) untilDisposed madeManager)
  Pool.script (Manager.perform 2) second afterDisposed
    (Pool.script (Manager.perform 1) first afterDisposed disposedManager)

theorem allows_any (i : ℕ) (p : Method String (Answer Unit)) (ds : List (Delivery Exn))
    (s : ManagerPool ℕ String Unit) : Pool.Allows sampleService (fun _ _ => True) i p ds s := by
  induction p generalizing ds s with
  | pure a => trivial
  | raise x => trivial
  | call op k ih =>
      cases ds with
      | nil => trivial
      | cons d ds => exact ⟨trivial, ih _ ds _⟩

/-- Of two calls of `create_engine` that wait for the same engine to be disposed of, the second
drops the engine that the first has made. -/
theorem overlap_loses_engine : ∃ s,
    Pool.Run sampleService (fun _ _ => True) (freshPool (some 1)) s ∧
      ∃ e < s.shared.engines.length, s.shared.current ≠ some e ∧ e ∉ s.shared.disposed := by
  have hmade : Pool.Run sampleService (fun _ _ => True) (freshPool (some 1))
      ⟨fun _ => none, madeManager⟩ := run_made (fun _ _ => trivial) fun _ _ _ => trivial
  have hfirst := hmade.trans
    (Pool.run_started (i := 1) rfl trivial (allows_any 1 _ untilDisposed _))
  have hsecond := hfirst.trans
    (Pool.run_started (i := 2) rfl trivial (allows_any 2 _ untilDisposed _))
  have hon := hsecond.trans (Pool.run_remaining (i := 1) rfl (allows_any 1 _ afterDisposed _))
  have hlast := hon.trans (Pool.run_remaining (i := 2) rfl (allows_any 2 _ afterDisposed _))
  exact ⟨_, hlast, 1, (by decide +kernel : 1 < overlappedManager.engines.length),
    (by decide +kernel : overlappedManager.current ≠ some 1),
    (by decide +kernel : 1 ∉ overlappedManager.disposed)⟩

end FraudDetection.Database
