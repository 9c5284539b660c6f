import FraudDetection.Database.Manager

/-!
# The transactions of sessions

`get_session` commits where the body of its `async with` returns, rolls back where the body raises,
and closes the session in either case. The rows of a session are stored by commits only: by those of
the body, each with what the body has written since the one before, and by that of `get_session`
after the end of the body.

`Reaches` runs the body of a session alone. `Transacted` says that the table holds of each session
what such a run stores, and `SessionPhase.Fits` how far the call has got with it. Every session
belongs to one call, so the calls do not disturb each other.
-/

namespace FraudDetection.Database

open Async Python

variable {ι V α : Type}

/-! ## Bodies -/

/-- The body writes to its session and commits it, and does not go on after an error. -/
def BodyOf (n : ℕ) : Method V α → Prop
  | .pure _ => True
  | .raise _ => True
  | .call op k =>
      ((∃ row, op = .execute n row) ∨ op = .commit n) ∧ (∀ r, BodyOf n (k (.ok r))) ∧
        ∀ x, ∃ y, k (.error x) = .raise y

/-- The body `p`, run alone and without errors, has `rest` left to do. Its commits have stored the
batches `stored`, and the rows of `pending` wait for the next one. -/
inductive Reaches (n : ℕ) (p : Method V α) : List (List V) → List V → Method V α → Prop
  | start : Reaches n p [] [] p
  | execute {stored : List (List V)} {pending : List V} {row : V}
      {k : Except Exn Unit → Method V α}
      (h : Reaches n p stored pending (.call (.execute n row) k)) :
      Reaches n p stored (pending ++ [row]) (k (.ok ()))
  | commit {stored : List (List V)} {pending : List V} {k : Except Exn Unit → Method V α}
      (h : Reaches n p stored pending (.call (.commit n) k)) :
      Reaches n p (stored ++ [pending]) [] (k (.ok ()))

/-- The body `p` has returned `a`, and everything it has written is stored: what its commits stored,
and the rest in a last batch. -/
def Complete (n : ℕ) (p : Method V α) (a : α) (batches : List (List V)) : Prop :=
  ∃ stored pending, Reaches n p stored pending (.pure a) ∧ batches = stored ++ [pending]

/-- The batches are those that the commits of the body have stored up to some point of its run, or
the body has returned and they are complete. -/
def Stores (n : ℕ) (p : Method V α) (batches : List (List V)) : Prop :=
  (∃ pending rest, Reaches n p batches pending rest) ∨ ∃ a, Complete n p a batches

namespace Manager

variable (t : Manager ι V)

/-- What the commits of a session have stored. -/
def stored (n : ℕ) : List (List V) := (t.commits.filter fun c => c.1 = n).map Prod.snd

/-- The session is one that the call has opened. -/
def Owns (i : ι) (n : ℕ) : Prop := ∃ e, t.sessions[n]? = some (i, e)

end Manager

/-! ## Phases -/

/-- Where a call stands. A body has `rest` left to do; a session is closed with what the body
returned, if that was committed. -/
inductive SessionPhase (V α : Type) where
  | opening (body : ℕ → Method V α)
  | running (n : ℕ) (rest : Method V α)
  | aborting (n : ℕ)
  | closing (n : ℕ) (returned : Option α)
  | ended (returned : Option α)
  | other

/-- Whether an operation concerns a session. -/
def DatabaseOp.transacts : DatabaseOp V → Bool
  | session => true
  | execute .. => true
  | commit _ => true
  | rollback _ => true
  | closeSession _ => true
  | _ => false

/-- An operation on the session `n`. -/
def DatabaseOp.concerns (n : ℕ) : DatabaseOp V → Prop
  | execute m _ => m = n
  | commit m => m = n
  | rollback m => m = n
  | closeSession m => m = n
  | _ => False

namespace SessionPhase

/-- The phase in which a call starts. -/
def ofCall : Call V α → SessionPhase V α
  | .getSession body => opening body
  | _ => other

/-- The session of a call. -/
def session? : SessionPhase V α → Option ℕ
  | running n _ => some n
  | aborting n => some n
  | closing n _ => some n
  | _ => none

/-- The phase after the exception `x`. Only an `Exception` is followed by a roll-back. -/
def raised (n : ℕ) (x : Exn) : SessionPhase V α :=
  if x.isException then aborting n else closing n none

/-- The phase of a body that has `rest` left to do. -/
def going (n : ℕ) : Method V α → SessionPhase V α
  | .raise x => raised n x
  | rest => running n rest

/-- The phase after the session is asked for. -/
def opened (body : ℕ → Method V α) : Event (DatabaseOp.Ret (V := V)) Exn → SessionPhase V α
  | ⟨.session, .ok (some n)⟩ => going n (body n)
  | _ => ended none

/-- The phase after the commit at the end of a body. -/
def committed (n : ℕ) (a : α) : Event (DatabaseOp.Ret (V := V)) Exn → SessionPhase V α
  | ⟨_, .ok _⟩ => closing n (some a)
  | ⟨_, .error x⟩ => raised n x

/-- The phase after the session is closed. -/
def closed (returned : Option α) : Event (DatabaseOp.Ret (V := V)) Exn → SessionPhase V α
  | ⟨_, .ok _⟩ => ended returned
  | ⟨_, .error _⟩ => ended none

/-- How far the call `i` has got with its session. -/
def Fits (calls : ι → Call V α) (t : Manager ι V) (i : ι) : SessionPhase V α → Prop
  | opening body => calls i = .getSession body
  | running n rest => t.Owns i n ∧ BodyOf n rest ∧ ∃ body, calls i = .getSession body ∧
      Reaches n (body n) (t.stored n) (t.pending n) rest
  | aborting n => t.Owns i n
  | closing n returned => t.Owns i n ∧ ∀ a, returned = some a → ∃ body,
      calls i = .getSession body ∧ Complete n (body n) a (t.stored n)
  | ended returned => ∀ a, returned = some a → ∃ n body, t.Owns i n ∧
      calls i = .getSession body ∧ Complete n (body n) a (t.stored n)
  | other => True

end SessionPhase

/-- The operations of a call, phase by phase. -/
def sessionProtocol : Contract (SessionPhase V α) (DatabaseOp.Ret (V := V)) Exn where
  guar := fun q op =>
    match q with
    | .opening _ => op = .session
    | .running n rest => (∃ k, rest = .call op k) ∨ ∃ a, rest = .pure a ∧ op = .commit n
    | .aborting n => op = .rollback n
    | .closing n _ => op = .closeSession n
    | .ended _ => False
    | .other => op.transacts = false
  rely := fun q ev q' =>
    match q with
    | .opening body => q' = .opened body ev
    | .running n rest => (∃ k, rest = .call ev.op k ∧ q' = .going n (k ev.reply)) ∨
        ∃ a, rest = .pure a ∧ q' = .committed n a ev
    | .aborting n => q' = .closing n none
    | .closing _ returned => q' = .closed returned ev
    | q => q' = q

/-- How a call ends. A call that returns for a session has committed it. -/
def SessionEnds (r : Except Exn (Answer α)) (q : SessionPhase V α) : Prop :=
  match r with
  | .ok (.result a) => q = .ended (some a)
  | .ok _ => q = .other
  | .error _ => q = .ended none ∨ q = .other

section Protocol

variable {n : ℕ}

/-- The session is closed, and the body's outcome passed on. -/
theorem wp_closing (a : α) :
    (Prog.tryFinally (Pure.pure a) (Prog.await (DatabaseOp.closeSession n)) : Method V α).wp
      sessionProtocol
      (fun r q => match r with
        | .ok a => q = .ended (some a)
        | .error _ => q = .ended none) (.closing n (some a)) := by
  refine Prog.wp_await_seq rfl ?_ ?_
  · rintro x q rfl
    rfl
  · rintro _ q rfl
    rfl

theorem wp_closing_raise (x : Exn) :
    (Prog.tryFinally (Prog.raise x) (Prog.await (DatabaseOp.closeSession n)) : Method V α).wp
      sessionProtocol
      (fun r q => match r with
        | .ok a => q = .ended (some a)
        | .error _ => q = .ended none) (.closing n none) := by
  refine Prog.wp_await_seq rfl ?_ ?_
  · rintro y q rfl
    rfl
  · rintro _ q rfl
    rfl

/-- An exception in the `try` of `get_session`. -/
theorem wp_raised (x : Exn) :
    (Prog.tryFinally
      (Prog.tryExcept (Prog.raise x) Exn.isException fun x => do
        Prog.await (DatabaseOp.rollback n)
        Prog.raise x)
      (Prog.await (DatabaseOp.closeSession n)) : Method V α).wp
      sessionProtocol
      (fun r q => match r with
        | .ok a => q = .ended (some a)
        | .error _ => q = .ended none) (.raised n x) := by
  unfold Prog.tryExcept SessionPhase.raised
  split
  · refine ⟨rfl, ?_⟩
    rintro (y | _) q rfl
    · exact wp_closing_raise y
    · exact wp_closing_raise x
  · exact wp_closing_raise x

/-- The body of a session, its commit or roll-back, and the end of the session. -/
theorem wp_going (rest : Method V α) :
    (Prog.tryFinally
      (Prog.tryExcept
        (do
          let a ← rest
          Prog.await (DatabaseOp.commit n)
          pure a)
        Exn.isException fun x => do
          Prog.await (DatabaseOp.rollback n)
          Prog.raise x)
      (Prog.await (DatabaseOp.closeSession n))).wp
      sessionProtocol
      (fun r q => match r with
        | .ok a => q = .ended (some a)
        | .error _ => q = .ended none) (.going n rest) := by
  induction rest with
  | pure a =>
      refine ⟨Or.inr ⟨a, rfl, rfl⟩, ?_⟩
      rintro (x | _) q (⟨k, ⟨⟩, -⟩ | ⟨a', ⟨⟩, rfl⟩)
      · exact wp_raised x
      · exact wp_closing a
  | raise x => exact wp_raised x
  | call op k ih =>
      refine ⟨Or.inl ⟨k, rfl⟩, ?_⟩
      rintro r q (⟨k', hk, rfl⟩ | ⟨a, ⟨⟩, -⟩)
      cases hk
      exact ih r

/-- `get_session` keeps to the protocol. -/
theorem wp_getSession (body : ℕ → Method V α) :
    (getSession body).wp sessionProtocol
      (fun r q => match r with
        | .ok a => q = .ended (some a)
        | .error _ => q = .ended none) (.opening body) := by
  refine Prog.wp_await_seq rfl ?_ ?_
  · rintro x q rfl
    rfl
  · rintro (_ | n) q rfl
    · rfl
    · exact wp_going (body n)

end Protocol

/-! ### Calls that open no session -/

theorem asks_close : (close : Method V Unit).Asks fun op => op.transacts = false := by
  unfold close
  refine Prog.Asks.bind (Prog.asks_await ?_) ?_
  · rfl
  · rintro (_ | e)
    · trivial
    · refine Prog.Asks.bind (Prog.asks_await ?_) fun _ => Prog.asks_await ?_
      · rfl
      · rfl

theorem asks_createEngine (repr : String → String) (o : EngineOptions) :
    (createEngine repr o : Method V Unit).Asks fun op => op.transacts = false := by
  unfold createEngine
  split
  · trivial
  · refine Prog.Asks.bind (Prog.asks_await ?_) ?_
    · rfl
    · rintro (_ | e)
      · exact Prog.asks_await rfl
      · exact asks_close.bind fun _ => Prog.asks_await rfl

theorem transacts_healthCheck :
    (healthCheck : Method V Bool).Asks fun op => op.transacts = false := by
  unfold healthCheck
  refine Prog.Asks.bind (Prog.asks_await ?_) ?_
  · rfl
  · rintro (_ | e)
    · trivial
    · refine Prog.Asks.tryExcept (Prog.Asks.bind (Prog.asks_await ?_) ?_) fun _ => trivial
      · rfl
      · intro _
        trivial

/-- A call without a session, with what it returns. -/
theorem wp_other {β : Type} {p : Method V β} (hp : p.Asks fun op => op.transacts = false)
    (g : β → Answer α) (hg : ∀ b a, g b ≠ .result a) :
    (do
      let b ← p
      pure (g b) : Method V (Answer α)).wp sessionProtocol SessionEnds .other := by
  refine Prog.wp_seq (Prog.wp_of_asks hp (fun op hop => hop) fun op r q' _ hq' => hq') ?_ ?_
  · rintro x q rfl
    exact Or.inr rfl
  · rintro b q rfl
    show SessionEnds (.ok (g b)) .other
    cases hb : g b with
    | result a => exact absurd hb (hg b a)
    | done => rfl
    | healthy b => rfl

/-- Every call keeps to the protocol. -/
theorem wp_sessionProgram (repr : String → String) (call : Call V α) :
    (call.program repr).wp sessionProtocol SessionEnds (.ofCall call) := by
  cases call with
  | createEngine o => exact wp_other (asks_createEngine repr o) (fun _ => .done) nofun
  | close => exact wp_other asks_close (fun _ => .done) nofun
  | healthCheck => exact wp_other transacts_healthCheck .healthy nofun
  | getSession body =>
      refine Prog.wp_seq (wp_getSession body) ?_ ?_
      · rintro x q rfl
        exact Or.inl rfl
      · rintro a q rfl
        rfl

/-! ## Operations -/

section Perform

variable {calls : ι → Call V α} {t t' : Manager ι V} {i j : ι} {n m : ℕ} {q : SessionPhase V α}

/-- Nothing has become of a session. -/
structure SameSession (t t' : Manager ι V) (n : ℕ) : Prop where
  opened : t'.sessions[n]? = t.sessions[n]?
  stored : t'.stored n = t.stored n
  pending : t'.pending n = t.pending n

theorem Owns.unique (hi : t.Owns i n) (hj : t.Owns j n) : i = j := by
  obtain ⟨e, he⟩ := hi
  obtain ⟨e', he'⟩ := hj
  rw [he] at he'
  cases he'
  rfl

theorem SameSession.owns (h : SameSession t t' n) (howns : t.Owns i n) : t'.Owns i n := by
  obtain ⟨e, he⟩ := howns
  exact ⟨e, h.opened.trans he⟩

/-- Where nothing becomes of the sessions of a call, it has got as far as before. -/
theorem SessionPhase.Fits.same (h : q.Fits calls t i)
    (hsame : ∀ n, t.Owns i n → SameSession t t' n) : q.Fits calls t' i := by
  cases q with
  | opening body => exact h
  | running n rest =>
      obtain ⟨howns, hbody, body, hcall, hreaches⟩ := h
      have hn := hsame n howns
      refine ⟨hn.owns howns, hbody, body, hcall, ?_⟩
      rwa [hn.stored, hn.pending]
  | aborting n => exact (hsame n h).owns h
  | closing n returned =>
      obtain ⟨howns, hreturned⟩ := h
      have hn := hsame n howns
      refine ⟨hn.owns howns, ?_⟩
      rwa [hn.stored]
  | ended returned =>
      intro a ha
      obtain ⟨n, body, howns, hcall, hcomplete⟩ := h a ha
      have hn := hsame n howns
      refine ⟨n, body, hn.owns howns, hcall, ?_⟩
      rwa [hn.stored]
  | other => trivial

theorem stored_commit (m : ℕ) :
    (t.perform i (.commit n)).2.stored m
      = if m = n then t.stored n ++ [t.pending n] else t.stored m := by
  show ((t.commits ++ [(n, t.pending n)]).filter _).map _ = _
  rw [List.filter_append, List.map_append]
  by_cases hm : m = n
  · subst hm
    simp [Manager.stored]
  · simp [Manager.stored, hm, Ne.symm hm]

/-- An operation on a session leaves the others alone. -/
theorem sameSession_perform {op : DatabaseOp V} (hop : op.concerns n) (hm : m ≠ n) :
    SameSession t (t.perform i op).2 m := by
  cases op with
  | execute n' row =>
      obtain rfl : n' = n := hop
      exact ⟨rfl, rfl, Function.update_of_ne hm ..⟩
  | commit n' =>
      obtain rfl : n' = n := hop
      refine ⟨rfl, ?_, Function.update_of_ne hm ..⟩
      rw [stored_commit, if_neg hm]
  | rollback n' =>
      obtain rfl : n' = n := hop
      exact ⟨rfl, rfl, Function.update_of_ne hm ..⟩
  | closeSession n' =>
      obtain rfl : n' = n := hop
      exact ⟨rfl, rfl, Function.update_of_ne hm ..⟩
  | _ => exact hop.elim

/-- Only a commit stores something. -/
theorem stored_perform {op : DatabaseOp V} (hop : op.concerns n) (hcommit : op ≠ .commit n) :
    (t.perform i op).2.stored m = t.stored m := by
  cases op with
  | commit n' =>
      obtain rfl : n' = n := hop
      exact absurd rfl hcommit
  | execute n' row => rfl
  | rollback n' => rfl
  | closeSession n' => rfl
  | _ => exact hop.elim

/-- A session keeps its call. -/
theorem owns_perform {op : DatabaseOp V} (hop : op.concerns n) (h : t.Owns i m) :
    (t.perform j op).2.Owns i m := by
  cases op with
  | session => exact hop.elim
  | _ => exact h

/-- So does every operation that is not one on a session. -/
theorem sameSession_other {op : DatabaseOp V} (hop : op.transacts = false) (m : ℕ) :
    SameSession t (t.perform i op).2 m := by
  cases op with
  | session => cases hop
  | execute n row => cases hop
  | commit n => cases hop
  | rollback n => cases hop
  | closeSession n => cases hop
  | _ => exact ⟨rfl, rfl, rfl⟩

end Perform

/-! ## The invariant -/

/-- The table holds of each session what a run of its body stores, and each call has got with its
session as far as its phase says. -/
structure Transacted (calls : ι → Call V α) (qs : ι → Option (SessionPhase V α))
    (t : Manager ι V) : Prop where
  sound : ∀ n i, t.Owns i n → ∃ body, calls i = .getSession body ∧ Stores n (body n) (t.stored n)
  fresh : ∀ n, t.sessions.length ≤ n → t.stored n = [] ∧ t.pending n = []
  fits : ∀ i q, qs i = some q → q.Fits calls t i

section Transacted

variable [DecidableEq ι] {calls : ι → Call V α} {qs : ι → Option (SessionPhase V α)}
  {t t' : Manager ι V} {i : ι} {n : ℕ} {q q' : SessionPhase V α} {op : DatabaseOp V}
  {d : Delivery Exn}

/-- A step that concerns no session. -/
theorem Transacted.same (h : Transacted calls qs t) (hfits : q'.Fits calls t' i)
    (hsame : ∀ m, SameSession t t' m) :
    Transacted calls (Function.update qs i (some q')) t' := by
  refine ⟨?_, ?_, ?_⟩
  · rintro m j ⟨e, he⟩
    rw [(hsame m).stored]
    exact h.sound m j ⟨e, (hsame m).opened.symm.trans he⟩
  · intro m hm
    rw [(hsame m).stored, (hsame m).pending]
    apply h.fresh
    rwa [← List.getElem?_eq_none_iff, ← (hsame m).opened, List.getElem?_eq_none_iff]
  · intro j p hj
    rcases Pool.update_cases hj with ⟨rfl, hnew⟩ | ⟨-, hold⟩
    · cases hnew
      exact hfits
    · exact (h.fits j p hold).same fun m _ => hsame m

/-- A step of a call with its session, or with one that it has just opened. -/
theorem Transacted.advance (h : Transacted calls qs t) (hfits : q'.Fits calls t' i)
    (howner : ∀ j, t.Owns j n → j = i) (hframe : ∀ m, m ≠ n → SameSession t t' m)
    (howns : t'.Owns i n)
    (hsound : ∃ body, calls i = .getSession body ∧ Stores n (body n) (t'.stored n)) :
    Transacted calls (Function.update qs i (some q')) t' := by
  refine ⟨?_, ?_, ?_⟩
  · intro m j hj
    by_cases hm : m = n
    · subst hm
      rw [Owns.unique hj howns]
      exact hsound
    · obtain ⟨e, he⟩ := hj
      rw [(hframe m hm).stored]
      exact h.sound m j ⟨e, (hframe m hm).opened.symm.trans he⟩
  · intro m hm
    have hne : m ≠ n := by
      rintro rfl
      obtain ⟨e, he⟩ := howns
      rw [List.getElem?_eq_none_iff.mpr hm] at he
      cases he
    rw [(hframe m hne).stored, (hframe m hne).pending]
    apply h.fresh
    rwa [← List.getElem?_eq_none_iff, ← (hframe m hne).opened, List.getElem?_eq_none_iff]
  · intro j p hj
    rcases Pool.update_cases hj with ⟨rfl, hnew⟩ | ⟨hji, hold⟩
    · cases hnew
      exact hfits
    · refine (h.fits j p hold).same ?_
      intro m hm
      apply hframe
      rintro rfl
      exact hji (howner j hm)

omit [DecidableEq ι] in
theorem fits_raised (howns : t.Owns i n) (x : Exn) :
    (SessionPhase.raised n x : SessionPhase V α).Fits calls t i := by
  unfold SessionPhase.raised
  split
  · exact howns
  · exact ⟨howns, nofun⟩

omit [DecidableEq ι] in
/-- A body that goes on. -/
theorem fits_going {body : ℕ → Method V α} {rest : Method V α} (howns : t.Owns i n)
    (hbody : BodyOf n rest) (hcall : calls i = .getSession body)
    (hreaches : Reaches n (body n) (t.stored n) (t.pending n) rest) :
    (SessionPhase.going n rest).Fits calls t i := by
  cases rest with
  | pure a => exact ⟨howns, hbody, body, hcall, hreaches⟩
  | raise x => exact fits_raised howns x
  | call op k => exact ⟨howns, hbody, body, hcall, hreaches⟩

/-- A session is opened. -/
theorem Transacted.opened (h : Transacted calls qs t) {body : ℕ → Method V α}
    (hbody : ∀ n, BodyOf n (body n)) (hq : qs i = some (.opening body)) :
    ∃ q', sessionProtocol.rely (.opening body)
        ⟨.session, (d.outcome (t.perform i .session) t).1⟩ q' ∧
      Transacted calls (Function.update qs i (some q')) (d.outcome (t.perform i .session) t).2 := by
  have hcall : calls i = .getSession body := h.fits i _ hq
  refine ⟨_, rfl, ?_⟩
  have hended : (SessionPhase.ended none : SessionPhase V α).Fits calls t i := nofun
  cases hfactory : t.factory with
  | none =>
      -- `get_session` raises, or never hears of it
      have hperform : t.perform i (.session : DatabaseOp V) = (.ok none, t) := by
        unfold Manager.perform
        rw [hfactory]
      rw [hperform]
      cases d <;> exact h.same hended fun m => ⟨rfl, rfl, rfl⟩
  | some e =>
      have hperform : t.perform i (.session : DatabaseOp V) = (.ok (some t.sessions.length),
          { t with
            sessions := t.sessions ++ [(i, e)]
            isOpen := insert t.sessions.length t.isOpen }) := by
        unfold Manager.perform
        rw [hfactory]
      obtain ⟨hstored, hpending⟩ := h.fresh t.sessions.length le_rfl
      have hadvance : ∀ q' : SessionPhase V α, q'.Fits calls (t.perform i .session).2 i →
          Transacted calls (Function.update qs i (some q')) (t.perform i .session).2 := by
        intro q' hfits
        rw [hperform] at hfits ⊢
        refine h.advance (n := t.sessions.length) hfits ?_ ?_ ⟨e, List.getElem?_concat_length⟩ ?_
        · rintro j ⟨e', he'⟩
          simp at he'
        · intro m hm
          refine ⟨?_, rfl, rfl⟩
          rcases Nat.lt_or_gt_of_ne hm with hlt | hgt
          · exact List.getElem?_append_left hlt
          · rw [List.getElem?_eq_none hgt.le, List.getElem?_eq_none]
            rw [List.length_append]
            exact hgt
        · refine ⟨body, hcall, Or.inl ⟨[], body t.sessions.length, ?_⟩⟩
          show Reaches _ _ (t.stored _) _ _
          rw [hstored]
          exact .start
      cases d with
      | answered =>
          apply hadvance
          show SessionPhase.Fits calls (t.perform i .session).2 i (.opened body ⟨.session, _⟩)
          rw [hperform]
          refine fits_going ⟨e, List.getElem?_concat_length⟩ (hbody _) hcall ?_
          show Reaches _ _ (t.stored _) (t.pending _) _
          rw [hstored, hpending]
          exact .start
      | unanswered x => exact hadvance _ nofun
      | lost x => exact h.same hended fun m => ⟨rfl, rfl, rfl⟩

/-- An operation on the session of a call. -/
theorem Transacted.onSession (h : Transacted calls qs t) (howns : t.Owns i n)
    (hop : op.concerns n) (hfits : q'.Fits calls (t.perform i op).2 i)
    (hsound : op = .commit n → ∃ body, calls i = .getSession body ∧
      Stores n (body n) (t.stored n ++ [t.pending n])) :
    Transacted calls (Function.update qs i (some q')) (t.perform i op).2 := by
  refine h.advance hfits (fun j hj => Owns.unique hj howns)
    (fun m hm => sameSession_perform hop hm) (owns_perform hop howns) ?_
  by_cases hcommit : op = .commit n
  · subst hcommit
    rw [stored_commit, if_pos rfl]
    exact hsound rfl
  · rw [stored_perform hop hcommit]
    exact h.sound n i howns

omit [DecidableEq ι] in
/-- After an operation that failed a body raises something. -/
theorem fits_going_error {k : Except Exn op.Ret → Method V α} (howns : t.Owns i n)
    (hraise : ∀ x, ∃ y, k (.error x) = .raise y) (x : Exn) :
    (SessionPhase.going n (k (.error x))).Fits calls t i := by
  obtain ⟨y, hy⟩ := hraise x
  rw [hy]
  exact fits_raised howns y

/-- An operation of a body. -/
theorem Transacted.body (h : Transacted calls qs t) {k : Except Exn op.Ret → Method V α}
    (hq : qs i = some (.running n (.call op k))) :
    Transacted calls
      (Function.update qs i
        (some (.going n (k (d.outcome (t.perform i op) t).1))))
      (d.outcome (t.perform i op) t).2 := by
  obtain ⟨howns, ⟨hop, hok, hraise⟩, body, hcall, hreaches⟩ := h.fits i _ hq
  have hon : op.concerns n := by
    rcases hop with ⟨row, rfl⟩ | rfl <;> rfl
  have hkept : (t.perform i op).2.Owns i n := owns_perform hon howns
  have hsound : op = .commit n → ∃ body, calls i = .getSession body ∧
      Stores n (body n) (t.stored n ++ [t.pending n]) := by
    rintro rfl
    exact ⟨body, hcall, Or.inl ⟨[], k (.ok ()), hreaches.commit⟩⟩
  cases d with
  | lost x =>
      exact h.same (fits_going_error howns hraise x) fun m => ⟨rfl, rfl, rfl⟩
  | unanswered x => exact h.onSession howns hon (fits_going_error hkept hraise x) hsound
  | answered =>
      refine h.onSession howns hon ?_ hsound
      rcases hop with ⟨row, rfl⟩ | rfl
      · refine fits_going hkept (hok ()) hcall ?_
        show Reaches _ _ (t.stored n) (Function.update t.pending n _ n) _
        rw [Function.update_self]
        exact hreaches.execute
      · refine fits_going hkept (hok ()) hcall ?_
        rw [stored_commit, if_pos rfl]
        show Reaches _ _ _ (Function.update t.pending n _ n) _
        rw [Function.update_self]
        exact hreaches.commit

/-- The commit at the end of a body. -/
theorem Transacted.commit (h : Transacted calls qs t) {a : α}
    (hq : qs i = some (.running n (.pure a))) :
    Transacted calls
      (Function.update qs i
        (some (.committed n a ⟨.commit n, (d.outcome (t.perform i (.commit n)) t).1⟩)))
      (d.outcome (t.perform i (.commit n)) t).2 := by
  obtain ⟨howns, -, body, hcall, hreaches⟩ := h.fits i _ hq
  have hcomplete : Complete n (body n) a (t.stored n ++ [t.pending n]) :=
    ⟨t.stored n, t.pending n, hreaches, rfl⟩
  have hkept : (t.perform i (.commit n)).2.Owns i n := howns
  cases d with
  | lost x => exact h.same (fits_raised howns x) fun m => ⟨rfl, rfl, rfl⟩
  | unanswered x =>
      refine h.onSession howns rfl ?_ fun _ => ⟨body, hcall, Or.inr ⟨a, hcomplete⟩⟩
      exact fits_raised hkept x
  | answered =>
      refine h.onSession howns rfl ?_ fun _ => ⟨body, hcall, Or.inr ⟨a, hcomplete⟩⟩
      refine ⟨howns, ?_⟩
      rintro a' ⟨⟩
      refine ⟨body, hcall, ?_⟩
      rw [stored_commit, if_pos rfl]
      exact hcomplete

/-- An operation of a call, however it fares. -/
theorem Transacted.command (h : Transacted calls qs t)
    (hbodies : ∀ i body, calls i = .getSession body → ∀ n, BodyOf n (body n))
    (hq : qs i = some q) (hguar : sessionProtocol.guar q op) :
    let x := d.outcome (t.perform i op) t
    ∃ q', sessionProtocol.rely q ⟨op, x.1⟩ q' ∧
      Transacted calls (Function.update qs i (some q')) x.2 := by
  have hfits := h.fits i q hq
  cases q with
  | opening body =>
      obtain rfl : op = .session := hguar
      exact h.opened (hbodies i body hfits) hq
  | running n rest =>
      rcases hguar with ⟨k, rfl⟩ | ⟨a, rfl, rfl⟩
      · exact ⟨_, Or.inl ⟨k, rfl, rfl⟩, h.body hq⟩
      · exact ⟨_, Or.inr ⟨a, rfl, rfl⟩, h.commit hq⟩
  | aborting n =>
      obtain rfl : op = .rollback n := hguar
      refine ⟨_, rfl, ?_⟩
      cases d with
      | lost x => exact h.same ⟨hfits, nofun⟩ fun m => ⟨rfl, rfl, rfl⟩
      | _ => exact h.onSession hfits rfl ⟨hfits, nofun⟩ nofun
  | closing n returned =>
      obtain rfl : op = .closeSession n := hguar
      obtain ⟨howns, hreturned⟩ := hfits
      refine ⟨_, rfl, ?_⟩
      cases d with
      | lost x => exact h.same nofun fun m => ⟨rfl, rfl, rfl⟩
      | unanswered x => exact h.onSession howns rfl nofun nofun
      | answered =>
          refine h.onSession howns rfl ?_ nofun
          intro a ha
          obtain ⟨body, hcall, hcomplete⟩ := hreturned a ha
          exact ⟨n, body, howns, hcall, hcomplete⟩
  | ended returned => exact hguar.elim
  | other =>
      refine ⟨_, rfl, ?_⟩
      cases d with
      | lost x => exact h.same trivial fun m => ⟨rfl, rfl, rfl⟩
      | _ => exact h.same trivial (sameSession_other hguar)

end Transacted

/-! ## Runs -/

/-- The bodies of all sessions are of the kind above. -/
def Sessions (calls : ι → Call V α) : Prop :=
  ∀ i body, calls i = .getSession body → ∀ n, BodyOf n (body n)

/-- Sessions are closed when `get_session` asks for it, and none is opened that it does not hear of;
no call is cut off. -/
def Orderly (_ : ManagerPool ι V α) : Happening ι (DatabaseOp V) Exn → Prop
  | .command _ .session d => ∀ x, d ≠ .unanswered x
  | .command _ (.closeSession _) d => ∀ x, d ≠ .lost x
  | .die _ => False
  | _ => True

/-- Every open session has a call that is not done with it. -/
def Held (qs : ι → Option (SessionPhase V α)) (t : Manager ι V) : Prop :=
  ∀ n ∈ t.isOpen, ∃ i q, qs i = some q ∧ q.session? = some n

section Runs

variable [DecidableEq ι] {repr : String → String} {calls : ι → Call V α} {pong : Option ℤ}
  {s : ManagerPool ι V α} {qs : ι → Option (SessionPhase V α)}

omit [DecidableEq ι] in
theorem transacted_fresh (calls : ι → Call V α) (pong : Option ℤ) :
    Transacted calls (fun _ => none) (freshManager pong) := by
  refine ⟨?_, ?_, ?_⟩
  · rintro n i ⟨e, he⟩
    simp [freshManager] at he
  · intro n _
    exact ⟨rfl, rfl⟩
  · rintro i q ⟨⟩

theorem Transacted.start {t : Manager ι V} (h : Transacted calls qs t) (i : ι) :
    Transacted calls (Function.update qs i (some (.ofCall (calls i)))) t := by
  refine h.same ?_ fun m => ⟨rfl, rfl, rfl⟩
  cases hcall : calls i with
  | getSession body => exact hcall
  | _ => trivial

theorem Transacted.erase {t : Manager ι V} (h : Transacted calls qs t) (i : ι) :
    Transacted calls (Function.update qs i none) t := by
  refine ⟨h.sound, h.fresh, ?_⟩
  intro j p hj
  rcases Pool.update_cases hj with ⟨-, hnew⟩ | ⟨-, hold⟩
  · cases hnew
  · exact h.fits j p hold

/-- The table holds what the bodies store, whatever fails and whoever is cut off. -/
theorem transacted_run (hsessions : Sessions calls)
    {ok : ManagerPool ι V α → Happening ι (DatabaseOp V) Exn → Prop}
    (hrun : Pool.Run (managerCalls repr calls) ok (freshPool pong) s) :
    ∃ qs, Pool.Meets sessionProtocol SessionEnds s.tasks qs ∧ Transacted calls qs s.shared := by
  have hmeets : Pool.Meets sessionProtocol SessionEnds (freshPool pong : ManagerPool ι V α).tasks
      fun _ => none := fun i => Or.inl ⟨rfl, rfl⟩
  refine Pool.invariant (fun qs t => Transacted calls qs t) ?_ ?_ ?_ ?_ ?_ hmeets
    (transacted_fresh calls pong) hrun
  · intro qs t i h _
    exact ⟨_, wp_sessionProgram repr (calls i), h.start i⟩
  · intro qs s i q op d h hq hguar _
    exact h.command hsessions hq hguar
  · intro qs t i q r h _ _
    exact h.erase i
  · intro qs s i p q h _ _ _ _
    exact h.erase i
  · intro qs t t' h ht
    rw [ht]
    exact ⟨h.sound, h.fresh, fun i q hq => (h.fits i q hq).same fun m _ => ⟨rfl, rfl, rfl⟩⟩

/-- Whatever fails, whoever is cut off, and however the calls overlap: of each session the table
holds what the commits of its body have stored up to some point of the body, or the body has
returned and the table holds everything; nothing else is in the table; and a call that returns has
everything stored. -/
theorem sessions_atomic (repr : String → String) (calls : ι → Call V α) (pong : Option ℤ)
    (s : ManagerPool ι V α) (hsessions : Sessions calls)
    (hrun : Pool.Run (managerCalls repr calls) (fun _ _ => True) (freshPool pong) s) :
    (∀ n i, s.shared.Owns i n → ∃ body, calls i = .getSession body ∧
        Stores n (body n) (s.shared.stored n)) ∧
      (∀ c ∈ s.shared.commits, ∃ i, s.shared.Owns i c.1) ∧
      ∀ i a, s.tasks i = some (.pure (.result a)) → ∃ n body, s.shared.Owns i n ∧
        calls i = .getSession body ∧ Complete n (body n) a (s.shared.stored n) := by
  obtain ⟨qs, hmeets, h⟩ := transacted_run hsessions hrun
  refine ⟨h.sound, ?_, ?_⟩
  · rintro ⟨n, rows⟩ hc
    have hlt : n < s.shared.sessions.length := by
      by_contra hge
      have hnone := (h.fresh n (not_lt.mp hge)).1
      have hmem : rows ∈ s.shared.stored n :=
        List.mem_map.mpr ⟨(n, rows), List.mem_filter.mpr ⟨hc, by simp⟩, rfl⟩
      rw [hnone] at hmem
      cases hmem
    exact ⟨s.shared.sessions[n].1, s.shared.sessions[n].2, List.getElem?_eq_getElem hlt⟩
  · intro i a hi
    obtain ⟨q, hq, hends⟩ := hmeets.some hi
    have hended : q = .ended (some a) := hends
    rw [hended] at hq
    exact h.fits i _ hq a rfl

/-! ### Sessions are closed -/

section Held

variable {t : Manager ι V} {i : ι} {n : ℕ} {q q' : SessionPhase V α} {op : DatabaseOp V}
  {d : Delivery Exn}

omit [DecidableEq ι] in
theorem session?_raised (n : ℕ) (x : Exn) :
    (SessionPhase.raised n x : SessionPhase V α).session? = some n := by
  unfold SessionPhase.raised
  split <;> rfl

omit [DecidableEq ι] in
theorem session?_going (n : ℕ) (rest : Method V α) :
    (SessionPhase.going n rest).session? = some n := by
  cases rest with
  | raise x => exact session?_raised n x
  | pure a => rfl
  | call op k => rfl

omit [DecidableEq ι] in
theorem session?_committed (n : ℕ) (a : α) (ev : Event (DatabaseOp.Ret (V := V)) Exn) :
    (SessionPhase.committed n a ev).session? = some n := by
  obtain ⟨op, x | r⟩ := ev
  · exact session?_raised n x
  · rfl

/-- A step that leaves a call the session it has. -/
theorem Held.keep (h : Held qs t) (hq : qs i = some q) {t' : Manager ι V}
    (hopen : t'.isOpen ⊆ t.isOpen)
    (hkeep : ∀ n ∈ t'.isOpen, q.session? = some n → q'.session? = some n) :
    Held (Function.update qs i (some q')) t' := by
  intro n hn
  obtain ⟨j, p, hp, hsession⟩ := h n (hopen hn)
  by_cases hji : j = i
  · subst hji
    rw [hq] at hp
    cases hp
    exact ⟨j, q', Function.update_self .., hkeep n hn hsession⟩
  · exact ⟨j, p, by rw [Function.update_of_ne hji, hp], hsession⟩

/-- A call that has no session may start, end or go on. -/
theorem Held.update (h : Held qs t) {o : Option (SessionPhase V α)}
    (hfree : ∀ q, qs i = some q → q.session? = none) : Held (Function.update qs i o) t := by
  intro n hn
  obtain ⟨j, p, hp, hsession⟩ := h n hn
  have hji : j ≠ i := by
    rintro rfl
    rw [hfree p hp] at hsession
    cases hsession
  exact ⟨j, p, by rw [Function.update_of_ne hji, hp], hsession⟩

omit [DecidableEq ι] in
/-- Only `get_session` opens a session. -/
theorem isOpen_perform (hop : op ≠ .session) : (t.perform i op).2.isOpen ⊆ t.isOpen := by
  cases op with
  | session => exact absurd rfl hop
  | closeSession n => exact Finset.erase_subset ..
  | _ => exact subset_rfl

omit [DecidableEq ι] in
theorem isOpen_outcome (hop : op ≠ .session) :
    (d.outcome (t.perform i op) t).2.isOpen ⊆ t.isOpen :=
  d.outcome_state (P := fun t' : Manager ι V => t'.isOpen ⊆ t.isOpen) (isOpen_perform hop) subset_rfl

/-- A session that is opened has the call that opens it. -/
theorem Held.opened (h : Held qs t) {body : ℕ → Method V α} (hq : qs i = some (.opening body))
    (hd : ∀ x, d ≠ .unanswered x) :
    let x := d.outcome (t.perform i .session) t
    Held (Function.update qs i (some (.opened body ⟨.session, x.1⟩))) x.2 := by
  have hfree : ∀ q, qs i = some q → q.session? = none := by
    intro q hq'
    rw [hq] at hq'
    cases hq'
    rfl
  intro x
  cases d with
  | unanswered y => exact absurd rfl (hd y)
  | lost y => exact h.update hfree
  | answered =>
      cases hfactory : t.factory with
      | none =>
          have hsame : x.2 = t := by
            show (t.perform i .session).2 = t
            unfold Manager.perform
            rw [hfactory]
          rw [hsame]
          exact h.update hfree
      | some e =>
          have hperform : t.perform i (.session : DatabaseOp V) = (.ok (some t.sessions.length),
              { t with
                sessions := t.sessions ++ [(i, e)]
                isOpen := insert t.sessions.length t.isOpen }) := by
            unfold Manager.perform
            rw [hfactory]
          intro n hn
          have hmem : n ∈ insert t.sessions.length t.isOpen := by
            have hopen : (t.perform i (.session : DatabaseOp V)).2.isOpen
                = insert t.sessions.length t.isOpen := by rw [hperform]
            exact hopen ▸ hn
          rcases Finset.mem_insert.mp hmem with rfl | hold
          · refine ⟨i, _, Function.update_self .., ?_⟩
            show (SessionPhase.opened body ⟨.session, (t.perform i .session).1⟩).session? = _
            rw [hperform]
            exact session?_going _ _
          · exact h.update hfree n hold

/-- An operation of a call in an orderly run. -/
theorem Held.command (h : Held qs s.shared) (htransacted : Transacted calls qs s.shared)
    (hq : qs i = some q) (hguar : sessionProtocol.guar q op) (hok : Orderly s (.command i op d)) :
    let x := d.outcome (s.shared.perform i op) s.shared
    ∀ q', sessionProtocol.rely q ⟨op, x.1⟩ q' → Held (Function.update qs i (some q')) x.2 := by
  intro x q' hrely
  cases q with
  | opening body =>
      obtain rfl : op = .session := hguar
      obtain rfl : q' = _ := hrely
      exact h.opened hq hok
  | running n rest =>
      obtain ⟨-, hbody, -⟩ := htransacted.fits i _ hq
      rcases hrely with ⟨k, rfl, rfl⟩ | ⟨a, rfl, rfl⟩
      · have hop : op ≠ .session := by
          rintro rfl
          rcases hbody.1 with ⟨row, hop⟩ | hop <;> cases hop
        exact h.keep hq (isOpen_outcome hop) fun m _ hm => (session?_going n _).trans hm
      · obtain rfl : op = .commit n := by
          rcases hguar with ⟨k, ⟨⟩⟩ | ⟨a', -, hop⟩
          exact hop
        exact h.keep hq (isOpen_outcome nofun) fun m _ hm => (session?_committed n a _).trans hm
  | aborting n =>
      obtain rfl : op = .rollback n := hguar
      obtain rfl : q' = _ := hrely
      exact h.keep hq (isOpen_outcome nofun) fun m _ hm => hm
  | closing n returned =>
      obtain rfl : op = .closeSession n := hguar
      refine h.keep hq (isOpen_outcome nofun) ?_
      rintro m hm ⟨⟩
      have hclosed : x.2.isOpen = s.shared.isOpen.erase n := by
        cases d with
        | answered => rfl
        | unanswered y => rfl
        | lost y => exact absurd rfl (hok y)
      rw [hclosed] at hm
      exact absurd rfl (Finset.mem_erase.mp hm).1
  | ended returned => exact hguar.elim
  | other =>
      obtain rfl : q' = .other := hrely
      refine h.keep hq (isOpen_outcome ?_) fun m _ hm => hm
      rintro rfl
      cases hguar

end Held

omit [DecidableEq ι] in
/-- A call that is done has no session. -/
theorem session?_of_ends {r : Except Exn (Answer α)} {q : SessionPhase V α}
    (hends : SessionEnds r q) : q.session? = none := by
  rcases r with x | answer
  · rcases hends with rfl | rfl <;> rfl
  · cases answer with
    | result a =>
        obtain rfl : q = .ended (some a) := hends
        rfl
    | done =>
        obtain rfl : q = .other := hends
        rfl
    | healthy b =>
        obtain rfl : q = .other := hends
        rfl

omit [DecidableEq ι] in
/-- The session of a call is one that it has opened. -/
theorem owns_of_session? {t : Manager ι V} {i : ι} {q : SessionPhase V α} {n : ℕ}
    (hfits : q.Fits calls t i) (hsession : q.session? = some n) : t.Owns i n := by
  cases q with
  | running n' rest =>
      cases hsession
      exact hfits.1
  | aborting n' =>
      cases hsession
      exact hfits
  | closing n' returned =>
      cases hsession
      exact hfits.1
  | _ => cases hsession

/-- In an orderly run every open session is held by a call. -/
theorem held_run (hsessions : Sessions calls)
    (hrun : Pool.Run (managerCalls repr calls) Orderly (freshPool pong) s) :
    ∃ qs, Pool.Meets sessionProtocol SessionEnds s.tasks qs ∧ Transacted calls qs s.shared ∧
      Held qs s.shared := by
  have hmeets : Pool.Meets sessionProtocol SessionEnds (freshPool pong : ManagerPool ι V α).tasks
      fun _ => none := fun i => Or.inl ⟨rfl, rfl⟩
  have hfresh : Held (fun _ => none : ι → Option (SessionPhase V α)) (freshManager pong) := by
    intro n hn
    cases hn
  refine Pool.invariant_of_meets (fun qs t => Transacted calls qs t ∧ Held qs t) ?_ ?_ ?_ ?_ ?_
    hmeets ⟨transacted_fresh calls pong, hfresh⟩ hrun
  · rintro qs s i hmeets ⟨h, hheld⟩ hi -
    refine ⟨_, wp_sessionProgram repr (calls i), h.start i, hheld.update ?_⟩
    intro q hq
    rw [hmeets.none hi] at hq
    cases hq
  · rintro qs s i q op d - ⟨h, hheld⟩ hq hguar hok
    obtain ⟨q', hrely, h'⟩ := h.command hsessions hq hguar
    exact ⟨q', hrely, h', hheld.command h hq hguar hok q' hrely⟩
  · rintro qs t i q r ⟨h, hheld⟩ hq hends
    refine ⟨h.erase i, hheld.update ?_⟩
    intro q' hq'
    rw [hq] at hq'
    cases hq'
    exact session?_of_ends hends
  · rintro qs s i p q - - - - ⟨⟩
  · rintro qs t t' ⟨h, hheld⟩ ht
    rw [ht]
    exact ⟨⟨h.sound, h.fresh, fun i q hq => (h.fits i q hq).same fun m _ => ⟨rfl, rfl, rfl⟩⟩, hheld⟩

/-- As long as sessions are closed when `get_session` asks for it and no call is cut off, every open
session is that of a call which has something left to do. So none is open when no call is in
progress. -/
theorem sessions_closed (repr : String → String) (calls : ι → Call V α) (pong : Option ℤ)
    (s : ManagerPool ι V α) (hsessions : Sessions calls)
    (hrun : Pool.Run (managerCalls repr calls) Orderly (freshPool pong) s) :
    ∀ n ∈ s.shared.isOpen, ∃ i, s.shared.Owns i n ∧ ∃ op k, s.tasks i = some (.call op k) := by
  obtain ⟨qs, hmeets, h, hheld⟩ := held_run hsessions hrun
  intro n hn
  obtain ⟨i, q, hq, hsession⟩ := hheld n hn
  refine ⟨i, owns_of_session? (h.fits i q hq) hsession, ?_⟩
  rcases hmeets i with ⟨-, hnone⟩ | ⟨p, q', hp, hq', hwp⟩
  · rw [hq] at hnone
    cases hnone
  · rw [hq] at hq'
    cases hq'
    cases p with
    | call op k => exact ⟨op, k, hp⟩
    | pure answer =>
        rw [session?_of_ends hwp] at hsession
        cases hsession
    | raise x =>
        rw [session?_of_ends hwp] at hsession
        cases hsession

end Runs

/-! ## The insert of a transaction -/

/-- What `create_transaction` does with its session. -/
def insertBody (row : V) (n : ℕ) : Method V Unit := do
  Prog.await (DatabaseOp.execute n row)
  Prog.await (DatabaseOp.commit n)

section Insert

variable {row : V} {n : ℕ}

theorem bodyOf_insertBody (row : V) (n : ℕ) : BodyOf n (insertBody row n) := by
  refine ⟨Or.inl ⟨row, rfl⟩, fun _ => ?_, fun x => ⟨x, rfl⟩⟩
  exact ⟨Or.inr rfl, fun _ => trivial, fun x => ⟨x, rfl⟩⟩

/-- The row waits for the commit, or is stored in the only batch. -/
theorem reaches_insertBody {stored : List (List V)} {pending : List V} {rest : Method V Unit}
    (h : Reaches n (insertBody row n) stored pending rest) :
    (stored = [] ∧ pending = [] ∧ rest = insertBody row n) ∨
      (stored = [] ∧ pending = [row] ∧ rest = Prog.await (DatabaseOp.commit n)) ∨
      (stored = [[row]] ∧ pending = [] ∧ rest = pure ()) := by
  induction h with
  | start => exact Or.inl ⟨rfl, rfl, rfl⟩
  | execute h ih =>
      rcases ih with ⟨rfl, rfl, hrest⟩ | ⟨-, -, hrest⟩ | ⟨-, -, hrest⟩
      · cases hrest
        exact Or.inr (Or.inl ⟨rfl, rfl, rfl⟩)
      · cases hrest
      · cases hrest
  | commit h ih =>
      rcases ih with ⟨-, -, hrest⟩ | ⟨rfl, rfl, hrest⟩ | ⟨-, -, hrest⟩
      · cases hrest
      · cases hrest
        exact Or.inr (Or.inr ⟨rfl, rfl, rfl⟩)
      · cases hrest

/-- The second commit, that of `get_session`, has nothing to store. -/
theorem rows_of_complete {a : Unit} {batches : List (List V)}
    (h : Complete n (insertBody row n) a batches) : batches.flatten = [row] := by
  obtain ⟨stored, pending, hreaches, rfl⟩ := h
  rcases reaches_insertBody hreaches with ⟨-, -, hrest⟩ | ⟨-, -, hrest⟩ | ⟨rfl, rfl, -⟩
  · cases hrest
  · cases hrest
  · rfl

/-- The row of a session is stored once or not at all. -/
theorem rows_of_stores {batches : List (List V)} (h : Stores n (insertBody row n) batches) :
    batches.flatten = [] ∨ batches.flatten = [row] := by
  rcases h with ⟨pending, rest, hreaches⟩ | ⟨a, hcomplete⟩
  · rcases reaches_insertBody hreaches with ⟨rfl, -⟩ | ⟨rfl, -⟩ | ⟨rfl, -⟩
    · exact Or.inl rfl
    · exact Or.inl rfl
    · exact Or.inr rfl
  · exact Or.inr (rows_of_complete hcomplete)

end Insert

/-! ### Samples -/

/-- The start of a service, and requests that insert a row. -/
def insertCalls : ℕ → Call String Unit
  | 0 => .createEngine { dsn := "postgresql+asyncpg://db/fraud" }
  | _ => .getSession (insertBody "txn-1")

theorem sessions_insertCalls : Sessions insertCalls := by
  intro i body hcall n
  unfold insertCalls at hcall
  split at hcall
  · cases hcall
  · cases hcall
    exact bodyOf_insertBody "txn-1" n

abbrev insertService :
    Setting ℕ (Manager ℕ String) (DatabaseOp.Ret (V := String)) Exn (Answer Unit) :=
  managerCalls id insertCalls

/-- The manager after the start. -/
def startedManager : Manager ℕ String :=
  Pool.script (Manager.perform 0) ((insertCalls 0).program id) [.answered, .answered]
    (freshManager (some 1))

/-- The service after the start, when `k` operations of a request are answered. -/
def insertPool (k : ℕ) : ManagerPool ℕ String Unit :=
  ⟨Function.update (fun _ => none) 1 (some (Pool.remaining (Manager.perform 1)
    ((insertCalls 1).program id) (List.replicate k .answered) startedManager)),
    Pool.script (Manager.perform 1) ((insertCalls 1).program id) (List.replicate k .answered)
      startedManager⟩

theorem orderly_alone (i : ℕ) (p : Method String (Answer Unit)) (k : ℕ)
    (s : ManagerPool ℕ String Unit) :
    Pool.Allows insertService Orderly i p (List.replicate k .answered) s := by
  induction k generalizing p s with
  | zero => cases p <;> trivial
  | succ k ih =>
      cases p with
      | call op rest =>
          refine ⟨?_, ih _ _⟩
          cases op with
          | session => exact nofun
          | closeSession n => exact nofun
          | _ => trivial
      | _ => trivial

theorem run_insert (k : ℕ) : Pool.Run insertService Orderly (freshPool (some 1)) (insertPool k) := by
  have hstart : Pool.Run insertService Orderly (freshPool (some 1))
      ⟨fun _ => none, startedManager⟩ :=
    Pool.run_task (i := 0) rfl trivial ⟨trivial, trivial, trivial⟩
  exact hstart.trans (Pool.run_started (i := 1) rfl trivial (orderly_alone 1 _ k _))

/-- A request that has returned has its row stored. -/
theorem sessions_atomic_insert : ∃ n, (insertPool 5).shared.Owns 1 n ∧
    ((insertPool 5).shared.stored n).flatten = ["txn-1"] := by
  have hrun : Pool.Run insertService (fun _ _ => True) (freshPool (some 1)) (insertPool 5) :=
    (run_insert 5).lift id fun s s' ⟨l, _, hstep⟩ => ⟨l, trivial, hstep⟩
  obtain ⟨n, body, howns, hcall, hcomplete⟩ := (sessions_atomic id insertCalls (some 1)
    (insertPool 5) sessions_insertCalls hrun).2.2 1 () (by rfl)
  cases hcall
  exact ⟨n, howns, rows_of_complete hcomplete⟩

/-- A session that is open while a request is at work is that of the request. -/
theorem sessions_closed_insert : 0 ∈ (insertPool 2).shared.isOpen ∧
    ∃ i, (insertPool 2).shared.Owns i 0 ∧ ∃ op k, (insertPool 2).tasks i = some (.call op k) := by
  have hopen : 0 ∈ (insertPool 2).shared.isOpen := by decide +kernel
  exact ⟨hopen, sessions_closed id insertCalls (some 1) (insertPool 2) sessions_insertCalls
    (run_insert 2) 0 hopen⟩

end FraudDetection.Database
