import FraudDetection.Async.Trace
import FraudDetection.Cases.Endpoints

/-!
# Calls on the case service side by side

A call finds its case in one statement and writes in another, and other calls commit in between.
Cases are never deleted, so what a call has found is still there when it commits.

A call goes through the stages of `Stage`. `Tracked` says what a stage knows about the tables, and
that the draws of the notes have been drawn. Every operation of a call takes it on.
-/

namespace FraudDetection.Cases

open Async Python Store Alerts

/-! ## Stages -/

/-- The case a request names. -/
def Call.caseId? : Call → Option String
  | .getCase caseId => some caseId
  | .addCaseNote caseId _ => some caseId
  | .updateCase caseId _ => some caseId
  | _ => none

/-- Where a call stands: before it has found its case, or once it has found it or has not; once it
has committed an update; once it has read the notes; and after a failure. -/
inductive Stage where
  | start (call : Call)
  | absent (call : Call)
  | found (call : Call) (row : Case)
  | settled (call : Call) (row : Case)
  | read (call : Call) (row : Case) (notes : List CaseNote)
  | ended (call : Call)

/-- The call. -/
def Stage.call : Stage → Call
  | start call => call
  | absent call => call
  | found call _ => call
  | settled call _ => call
  | read call _ _ => call
  | ended call => call

/-- The stage after an operation. -/
def Stage.next (q : Stage) (ev : Event CallRet Exn) : Stage :=
  match q, ev with
  | .start call, ⟨.inl (.selectCase _), .ok (some row)⟩ => .found call row
  | .start call, ⟨.inl (.selectCase _), .ok none⟩ => .absent call
  | .start call, _ => .start call
  | .found call row, ⟨.inl (.selectNotes _), .ok notes⟩ => .read call row notes
  | .found call row, ⟨.inl (.commitUpdate _ _), .ok _⟩ => .settled call row
  | q, _ => .ended q.call

/-- A call finds the case that it names, and writes to the case that it has found. -/
def steps : Contract Stage CallRet Exn where
  guar := fun q op =>
    match q, op with
    | .start call, .inl (.selectCase caseId) => call.caseId? = some caseId
    | .start _, .inl (.commitCase row seed) => ∀ new, seed = some new → new.caseId = row.caseId
    | .start _, .inl (.selectNotes _) => False
    | .start _, .inl (.commitNote _) => False
    | .start _, .inl (.commitUpdate _ _) => False
    | .start _, _ => True
    | .found call row, .inl (.selectNotes caseId) => call = .getCase caseId ∧ caseId = row.caseId
    | .found _ row, .inl (.commitNote new) => new.caseId = row.caseId
    | .found call row, .inl (.commitUpdate loaded modified) =>
        ∃ update, call = .updateCase row.caseId update ∧ loaded = row ∧ modified = update.apply row
    | _, _ => False
  rely := fun q ev q' => q' = q.next ev ∧
    (∀ caseId row, ev = ⟨.inl (.selectCase caseId), .ok (some row)⟩ → row.caseId = caseId) ∧
      ev.reply ≠ .error caseNotFound

/-- How a call ends. -/
structure Ends (r : Except Exn (Option Response)) (q : Stage) : Prop where
  absent : q.call.caseId? ≠ none → r = .error caseNotFound → q = .absent q.call
  settled : ∀ caseId update a, q.call = .updateCase caseId update → r = .ok a →
    ∃ row, q = .settled (.updateCase caseId update) row ∧ row.caseId = caseId
  read : ∀ caseId a, q.call = .getCase caseId → r = .ok a →
    ∃ row notes, a = some (.case row notes) ∧ q = .read (.getCase caseId) row notes ∧
      row.caseId = caseId

theorem call_next (q : Stage) (ev : Event CallRet Exn) : (q.next ev).call = q.call := by
  unfold Stage.next
  split <;> rfl

/-- A call that names no case ends anyhow. -/
theorem ends_of_none {r : Except Exn (Option Response)} {q : Stage} (h : q.call.caseId? = none) :
    Ends r q := by
  refine ⟨fun hsome => absurd h hsome, ?_, ?_⟩
  · intro caseId update a hcall
    rw [hcall] at h
    cases h
  · intro caseId a hcall
    rw [hcall] at h
    cases h

/-- A failure that is no response with status 404. -/
theorem ends_of_error {e : Exn} {q : Stage} (h : e ≠ caseNotFound) : Ends (.error e) q := by
  refine ⟨?_, ?_, ?_⟩
  · intro _ he
    cases he
    exact absurd rfl h
  · intro caseId update a _ ha
    cases ha
  · intro caseId a _ ha
    cases ha

/-! ## Programs -/

section Programs

/-- An operation of a call that has not found a case. -/
def Plain (op : Op) : Prop :=
  match op with
  | .selectCases _ => True
  | .uuid4 => True
  | .flush => True
  | .commitCase row seed => ∀ new, seed = some new → new.caseId = row.caseId
  | _ => False

/-- A request that names no case. -/
theorem wp_plain (call : Call) (hcall : call.caseId? = none) {p : Prog Ret Exn Response}
    (hp : p.Asks Plain) :
    (p.inl >>= fun r => pure (some r) : Prog CallRet Exn (Option Response)).wp steps Ends
      (.start call) := by
  refine Prog.wp_seq (P := fun _ q => q = .start call) ?_ ?_ ?_
  · rw [Prog.wp_inl]
    refine Prog.wp_of_asks hp ?_ ?_
    · intro op hop
      cases op with
      | commitCase row seed => exact hop
      | selectCases limit => trivial
      | uuid4 => trivial
      | flush => trivial
      | _ => exact hop.elim
    · rintro op r q' hop ⟨rfl, -, -⟩
      cases op with
      | commitCase row seed => rfl
      | selectCases limit => rfl
      | uuid4 => rfl
      | flush => rfl
      | _ => exact hop.elim
  · rintro e q rfl
    exact ends_of_none hcall
  · rintro r q rfl
    exact ends_of_none hcall

theorem asks_drawId (label : String) (n : ℕ) : (drawId label n).Asks Plain :=
  (Prog.asks_await trivial).bind fun _ => trivial

theorem asks_createCase (upper : String → String) (caseIn : CaseCreate) :
    (createCase upper caseIn).Asks Plain := by
  unfold createCase
  refine Prog.Asks.bind ?_ fun alertId => (asks_drawId _ _).bind fun transactionId =>
    (asks_drawId _ _).bind fun customerId =>
      (Prog.asks_await trivial).bind fun caseId => ?_
  · unfold CaseCreate.primaryAlertId
    split
    · trivial
    · exact asks_drawId _ _
  · refine Prog.Asks.bind (Prog.asks_await ?_) fun _ => trivial
    intro new hnew
    obtain ⟨content, -, rfl⟩ := Option.map_eq_some_iff.mp hnew
    rfl

theorem asks_consumeCase (value : Json) : (consumeCase value).Asks fun _ => True := by
  unfold consumeCase
  split
  · refine (Prog.asks_lift _).bind fun payload => (Prog.asks_lift _).bind fun alertId =>
      (Prog.asks_lift _).bind fun transactionId => (Prog.asks_lift _).bind fun customerId =>
        (Prog.asks_lift _).bind fun severity => ?_
    split
    · trivial
    · exact Prog.asks_await trivial
  · trivial

/-- A request finds its case, or has status 404. -/
theorem wp_findCase {call : Call} {caseId : String} (hcall : call.caseId? = some caseId) :
    (findCase caseId).wp steps.left (fun r q => match r with
      | .ok row => q = .found call row ∧ row.caseId = caseId
      | .error e => e = caseNotFound → q = .absent call) (.start call) := by
  unfold findCase
  refine Prog.wp_await_seq hcall ?_ ?_
  · rintro e q ⟨-, -, he⟩ rfl
    exact absurd rfl he
  · rintro found q ⟨rfl, hid, -⟩
    cases found with
    | none => exact fun _ => rfl
    | some row => exact ⟨rfl, hid caseId row rfl⟩

/-- A request that finds its case, and what it does with it. -/
theorem wp_found (call : Call) {caseId : String} (hcall : call.caseId? = some caseId)
    {g : Case → Prog Ret Exn Response}
    (hg : ∀ row, row.caseId = caseId → (g row).wp steps.left
      (fun r q => Ends (r.map some) q) (.found call row)) :
    ((findCase caseId >>= g).inl >>= fun r => pure (some r) :
      Prog CallRet Exn (Option Response)).wp steps Ends (.start call) := by
  refine Prog.wp_seq (P := fun r q => Ends (r.map some) q) ?_ (fun e q h => h) fun r q h => h
  rw [Prog.wp_inl]
  refine Prog.wp_seq (wp_findCase hcall) ?_ ?_
  · intro e q habsent
    refine ⟨?_, ?_, ?_⟩
    · intro _ he
      cases he
      rw [habsent rfl]
      rfl
    · intro id update a _ ha
      cases ha
    · intro id a _ ha
      cases ha
  · rintro row q ⟨rfl, hid⟩
    exact hg row hid

/-- Every call keeps to the contract. -/
theorem wp_call (upper : String → String) (call : Call) :
    (call.program upper).wp steps Ends (.start call) := by
  cases call with
  | listCases =>
    exact wp_plain _ rfl ((Prog.asks_await trivial).bind fun _ => trivial)
  | createCase caseIn => exact wp_plain _ rfl (asks_createCase upper caseIn)
  | consumed value =>
    have hwp : (consumeCase value).wp steps.right (fun _ q => q = .start (.consumed value))
        (.start (.consumed value)) :=
      Prog.wp_of_asks (asks_consumeCase value) (fun _ _ => trivial) fun _ _ _ _ h => h.1
    refine Prog.wp_seq (Prog.wp_inr.mpr hwp) ?_ ?_
    · rintro e q rfl
      exact ends_of_none rfl
    · rintro u q rfl
      exact ends_of_none rfl
  | getCase caseId =>
    refine wp_found (.getCase caseId) rfl ?_
    intro row hid
    refine Prog.wp_await_seq ⟨rfl, hid.symm⟩ ?_ ?_
    · rintro e q ⟨-, -, he⟩
      exact ends_of_error fun h => he (congrArg _ h)
    · rintro notes q ⟨rfl, -, -⟩
      refine ⟨?_, ?_, ?_⟩
      · rintro _ ⟨⟩
      · rintro id update a ⟨⟩
      · rintro id a ⟨⟩ ⟨⟩
        exact ⟨row, notes, rfl, rfl, hid⟩
  | addCaseNote caseId note =>
    refine wp_found (.addCaseNote caseId note) rfl ?_
    intro row hid
    refine Prog.wp_await_seq hid.symm ?_ ?_
    · rintro e q ⟨-, -, he⟩
      exact ends_of_error fun h => he (congrArg _ h)
    · rintro noteId q ⟨rfl, -, -⟩
      refine ⟨?_, ?_, ?_⟩
      · rintro _ ⟨⟩
      · rintro id update a ⟨⟩
      · rintro id a ⟨⟩
  | updateCase caseId update =>
    refine wp_found (.updateCase caseId update) rfl ?_
    rintro row rfl
    refine Prog.wp_await_seq ⟨update, rfl, rfl, rfl⟩ ?_ ?_
    · rintro e q ⟨-, -, he⟩
      exact ends_of_error fun h => he (congrArg _ h)
    · rintro u q ⟨rfl, -, -⟩
      refine ⟨?_, ?_, ?_⟩
      · rintro _ ⟨⟩
      · rintro id update' a ⟨⟩ -
        exact ⟨row, rfl, rfl⟩
      · rintro id a ⟨⟩

end Programs

/-! ## Operations -/

section Operations

variable {ι : Type} {draws : Draws} {i : ι} {op : CallOp} {t : CaseServer ι}

theorem error_commitCase {db : CaseDatabase} {row : Case} {e : Exn}
    (h : db.commitCase row = .error e) : e = integrityError := by
  unfold CaseDatabase.commitCase at h
  split at h
  · cases h
  · cases h
    rfl

theorem error_commitNote {db : CaseDatabase} {note : CaseNote} {e : Exn}
    (h : db.commitNote note = .error e) : e = integrityError := by
  unfold CaseDatabase.commitNote at h
  split at h
  · split at h
    · cases h
    · cases h
      rfl
  · cases h
    rfl

theorem error_commitUpdate {db : CaseDatabase} {loaded modified : Case} {e : Exn}
    (h : db.commitUpdate loaded modified = .error e) : e = staleDataError := by
  unfold CaseDatabase.commitUpdate at h
  split at h
  · cases h
  · split at h
    · cases h
    · cases h
      rfl

theorem error_commit {R : Type} {r : R} {x : Except Exn CaseDatabase} {e : Exn}
    (h : (t.commit r x).1 = .error e) : x = .error e := by
  unfold CaseServer.commit at h
  cases x with
  | ok db => cases h
  | error e' =>
    cases h
    rfl

theorem integrityError_ne : caseNotFound ≠ integrityError := by decide

theorem staleDataError_ne : caseNotFound ≠ staleDataError := by decide

theorem refused_ne : caseNotFound ≠ refused := by decide

/-- The database refuses commits with exceptions of its own. -/
theorem perform_ne_caseNotFound : (CaseServer.perform draws i op t).1 ≠ .error caseNotFound := by
  intro h
  rcases op with op | op
  · cases op with
    | commitCase row seed =>
      cases seed with
      | none => exact integrityError_ne (error_commitCase (error_commit h))
      | some seed =>
        rcases bind_eq_error.mp (error_commit h) with hcase | ⟨db, -, hnote⟩
        · exact integrityError_ne (error_commitCase hcase)
        · exact integrityError_ne (error_commitNote hnote)
    | commitNote new => exact integrityError_ne (error_commitNote (error_commit h))
    | commitUpdate loaded modified =>
      have hupdate : (t.commitUpdate i loaded modified).1 = .error caseNotFound := h
      unfold CaseServer.commitUpdate at hupdate
      cases hdb : t.db.commitUpdate loaded modified with
      | ok db =>
        rw [hdb] at hupdate
        cases hupdate
      | error e =>
        rw [hdb] at hupdate
        exact staleDataError_ne ((Except.error.inj hupdate).symm.trans (error_commitUpdate hdb))
    | _ => cases h
  · cases op with
    | insert new =>
      unfold CaseServer.perform at h
      dsimp only at h
      split at h
      · exact integrityError_ne (error_commitCase (error_commit h))
      · exact refused_ne (Except.error.inj h).symm

/-- No failure of the database looks like a response of the service. -/
def Failing (_ : Pool ι (CaseServer ι) CallRet Exn (Option Response)) :
    Happening ι CallOp Exn → Prop
  | .command _ _ (.unanswered e) => e ≠ caseNotFound
  | .command _ _ (.lost e) => e ≠ caseNotFound
  | _ => True

/-- The contract holds of the database. -/
theorem rely_perform {s : Pool ι (CaseServer ι) CallRet Exn (Option Response)} {d : Delivery Exn}
    (hfailing : Failing s (.command i op d)) (q : Stage) :
    let x := d.outcome (CaseServer.perform draws i op t) t
    steps.rely q ⟨op, x.1⟩ (q.next ⟨op, x.1⟩) := by
  refine ⟨rfl, ?_, ?_⟩
  · intro caseId row hev
    obtain rfl : op = .inl (.selectCase caseId) := congrArg Event.op hev
    obtain ⟨-, hreply⟩ := Event.mk.inj hev
    have hx := eq_of_heq hreply
    cases d with
    | answered => exact (Table.find?_eq_some_iff.mp (Except.ok.inj hx)).2
    | unanswered e => cases hx
    | lost e => cases hx
  · cases d with
    | answered => exact perform_ne_caseNotFound
    | unanswered e =>
      intro h
      exact hfailing (Except.error.inj h)
    | lost e =>
      intro h
      exact hfailing (Except.error.inj h)

/-- What a stage that has just been reached says about the tables, where `q` is the stage before. -/
def Stage.Reached (q : Stage) (i : ι) (op : CallOp) (t t' : CaseServer ι) : Stage → Prop
  | .start call => q = .start call
  | .absent call => q = .start call ∧
      ∃ caseId, op = .inl (.selectCase caseId) ∧ t.db.cases.find? caseId = none
  | .found call row => q = .start call ∧
      ∃ caseId, op = .inl (.selectCase caseId) ∧ t.db.cases.find? caseId = some row
  | .settled call row => q = .found call row ∧
      ∃ loaded modified, op = .inl (.commitUpdate loaded modified) ∧
        t.commitUpdate i loaded modified = (.ok (), t')
  | .read call row notes => q = .found call row ∧
      ∃ caseId, op = .inl (.selectNotes caseId) ∧
        notes.Perm (t.db.notesOf caseId) ∧ t'.db = t.db
  | .ended _ => True

/-- A stage is reached by a reply. -/
theorem reached_next (q : Stage) (d : Delivery Exn) :
    let x := d.outcome (CaseServer.perform draws i op t) t
    q.Reached i op t x.2 (q.next ⟨op, x.1⟩) := by
  intro x
  obtain ⟨r, hr⟩ : ∃ r, x.1 = r := ⟨_, rfl⟩
  rw [hr]
  unfold Stage.next
  split
  · rename_i call caseId row hev
    obtain ⟨rfl, hreply⟩ := Event.mk.inj hev
    subst hreply
    cases d with
    | answered => exact ⟨rfl, caseId, rfl, Except.ok.inj hr⟩
    | unanswered e => cases hr
    | lost e => cases hr
  · rename_i call caseId hev
    obtain ⟨rfl, hreply⟩ := Event.mk.inj hev
    subst hreply
    cases d with
    | answered => exact ⟨rfl, caseId, rfl, Except.ok.inj hr⟩
    | unanswered e => cases hr
    | lost e => cases hr
  · rfl
  · rename_i call row caseId notes hev
    obtain ⟨rfl, hreply⟩ := Event.mk.inj hev
    subst hreply
    cases d with
    | answered =>
      obtain rfl : draws.noteScan.order t.scans (t.db.notesOf caseId) = notes := Except.ok.inj hr
      exact ⟨rfl, caseId, rfl, draws.noteScan.perm _ _, rfl⟩
    | unanswered e => cases hr
    | lost e => cases hr
  · rename_i call row loaded modified u hev
    obtain ⟨rfl, hreply⟩ := Event.mk.inj hev
    subst hreply
    cases d with
    | answered => exact ⟨rfl, loaded, modified, rfl, Prod.ext hr rfl⟩
    | unanswered e => cases hr
    | lost e => cases hr
  · trivial

/-- The notes have ids that have been drawn. -/
def Drawn (draws : Draws) (t : CaseServer ι) : Prop :=
  ∀ note ∈ t.db.notes.rows, ∃ k < t.notesDrawn, note.noteId = draws.note k

theorem Drawn.draw (h : Drawn draws t) : Drawn draws { t with notesDrawn := t.notesDrawn + 1 } := by
  intro note hnote
  obtain ⟨k, hk, hid⟩ := h note hnote
  exact ⟨k, hk.trans (Nat.lt_succ_self _), hid⟩

/-- A commit that adds no note but one under the id drawn last. -/
theorem Drawn.commit {R : Type} {r : R} {x : Except Exn CaseDatabase} (h : Drawn draws t)
    (hx : ∀ db, x = .ok db → ∀ note ∈ db.notes.rows, note ∈ t.db.notes.rows ∨
      ∃ k < t.notesDrawn, note.noteId = draws.note k) :
    Drawn draws (t.commit r x).2 := by
  unfold CaseServer.commit
  cases x with
  | error e => exact h
  | ok db =>
    intro note hnote
    rcases hx db rfl note hnote with hold | hnew
    · exact h note hold
    · exact hnew

theorem notes_commitCase {db db' : CaseDatabase} {row : Case} (h : db.commitCase row = .ok db') :
    db'.notes = db.notes := by
  unfold CaseDatabase.commitCase at h
  split at h
  · cases h
    rfl
  · cases h

theorem notes_commitNote {db db' : CaseDatabase} {note : CaseNote}
    (h : db.commitNote note = .ok db') : db'.notes.rows = db.notes.rows ++ [note] := by
  unfold CaseDatabase.commitNote at h
  split at h
  · split at h
    · cases h
      rfl
    · cases h
  · cases h

/-- Every operation leaves notes with ids that have been drawn. -/
theorem Drawn.perform (h : Drawn draws t) : Drawn draws (CaseServer.perform draws i op t).2 := by
  have hcase : ∀ (t' : CaseServer ι) (row : Case), Drawn draws t' →
      Drawn draws (t'.commit () (t'.db.commitCase row)).2 := by
    intro t' row h'
    refine h'.commit ?_
    intro db hdb note hnote
    rw [notes_commitCase hdb] at hnote
    exact Or.inl hnote
  rcases op with op | op
  · cases op with
    | commitCase row seed =>
      cases seed with
      | none => exact hcase t row h
      | some seed =>
        refine h.draw.commit ?_
        intro db hdb note hnote
        obtain ⟨db', hcase', hnote'⟩ := bind_eq_ok.mp hdb
        rw [notes_commitNote hnote', notes_commitCase hcase'] at hnote
        rcases List.mem_append.mp hnote with hold | hnew
        · exact Or.inl hold
        · obtain rfl := List.mem_singleton.mp hnew
          exact Or.inr ⟨t.notesDrawn, Nat.lt_succ_self _, rfl⟩
    | commitNote new =>
      refine h.draw.commit ?_
      intro db hdb note hnote
      rw [notes_commitNote hdb] at hnote
      rcases List.mem_append.mp hnote with hold | hnew
      · exact Or.inl hold
      · obtain rfl := List.mem_singleton.mp hnew
        exact Or.inr ⟨t.notesDrawn, Nat.lt_succ_self _, rfl⟩
    -- an update writes to `cases` only
    | commitUpdate loaded modified =>
      show Drawn draws (t.commitUpdate i loaded modified).2
      unfold CaseServer.commitUpdate
      cases hdb : t.db.commitUpdate loaded modified with
      | error e => exact h
      | ok db =>
        have hnotes : db.notes = t.db.notes := by
          unfold CaseDatabase.commitUpdate at hdb
          split at hdb
          · cases hdb
            rfl
          · split at hdb
            · cases hdb
              rfl
            · cases hdb
        intro note hnote
        exact h note (hnotes ▸ hnote)
    | _ => exact h
  · cases op with
    | insert new =>
      unfold CaseServer.perform
      dsimp only
      split
      · exact hcase { t with casesDrawn := t.casesDrawn + 1 } _ h
      · exact h

end Operations

/-! ## Runs -/

section Runs

variable {ι : Type} {draws : Draws} {calls : ι → Call} {upper : String → String}

/-- The service before its first call. -/
def emptyService : Pool ι (CaseServer ι) CallRet Exn (Option Response) where
  tasks _ := none
  shared := ⟨.empty, 0, 0, 0, 0, []⟩

/-- What the stages know: the calls they are of, and that the cases they have found are there. -/
structure Tracked (draws : Draws) (calls : ι → Call) (qs : ι → Option Stage) (t : CaseServer ι) :
    Prop where
  call : ∀ i q, qs i = some q → q.call = calls i
  found : ∀ i call row, qs i = some (.found call row) →
    ∃ row' ∈ t.db.cases.rows, row'.caseId = row.caseId
  notes : Drawn draws t

variable [DecidableEq ι] {qs : ι → Option Stage} {t : CaseServer ι} {i : ι}

/-- A stage that has found nothing. -/
theorem Tracked.update (h : Tracked draws calls qs t) {o : Option Stage}
    (hcall : ∀ q, o = some q → q.call = calls i)
    (hfound : ∀ call row, o = some (.found call row) →
      ∃ row' ∈ t.db.cases.rows, row'.caseId = row.caseId) :
    Tracked draws calls (Function.update qs i o) t where
  call := by
    intro j q hq
    rcases Pool.update_cases hq with ⟨rfl, hnew⟩ | ⟨-, hold⟩
    · exact hcall q hnew
    · exact h.call j q hold
  found := by
    intro j call row hq
    rcases Pool.update_cases hq with ⟨rfl, hnew⟩ | ⟨-, hold⟩
    · exact hfound call row hnew
    · exact h.found j call row hold
  notes := h.notes

/-- One operation. -/
theorem Tracked.command (h : Tracked draws calls qs t) {q : Stage} {op : CallOp} {d : Delivery Exn}
    (hi : qs i = some q) :
    let x := d.outcome (CaseServer.perform draws i op t) t
    Tracked draws calls (Function.update qs i (some (q.next ⟨op, x.1⟩))) x.2 := by
  intro x
  have hkeeps : Keeps t.db x.2.db :=
    d.outcome_state (P := fun t' : CaseServer ι => Keeps t.db t'.db) (keeps_perform draws i op t)
      (.refl _)
  have hstore : Tracked draws calls qs x.2 := by
    refine ⟨h.call, ?_, d.outcome_state (P := Drawn draws) h.notes.perform h.notes⟩
    intro j call row hj
    obtain ⟨row', hrow', hid⟩ := h.found j call row hj
    obtain ⟨row'', hrow'', hsame⟩ := hkeeps.cases row' hrow'
    exact ⟨row'', hrow'', hsame.caseId.trans hid⟩
  refine hstore.update ?_ ?_
  · rintro q' ⟨⟩
    rw [call_next]
    exact h.call i q hi
  · intro call row hq
    have hreached : q.Reached i op t x.2 (.found call row) :=
      Option.some.inj hq ▸ reached_next q d
    obtain ⟨-, caseId, -, hfind⟩ := hreached
    obtain ⟨row', hrow', hsame⟩ := hkeeps.cases row (Table.find?_eq_some_iff.mp hfind).1
    exact ⟨row', hrow', hsame.caseId⟩

/-- The invariant, in a run. -/
theorem tracked_run {s : Pool ι (CaseServer ι) CallRet Exn (Option Response)}
    (hrun : Pool.Run (caseService upper draws calls) Failing emptyService s) :
    ∃ qs, Pool.Meets steps Ends s.tasks qs ∧ Tracked draws calls qs s.shared := by
  have hempty : Tracked draws calls (fun _ => none)
      (emptyService : Pool ι (CaseServer ι) CallRet Exn (Option Response)).shared := by
    refine ⟨?_, ?_, ?_⟩
    · rintro j q ⟨⟩
    · rintro j call row ⟨⟩
    · intro note hnote
      cases hnote
  have hmeets : Pool.Meets steps Ends
      (emptyService : Pool ι (CaseServer ι) CallRet Exn (Option Response)).tasks fun _ => none :=
    fun _ => Or.inl ⟨rfl, rfl⟩
  refine Pool.invariant (Tracked draws calls) ?_ ?_ ?_ ?_ ?_ hmeets hempty hrun
  · intro qs t i h _
    refine ⟨_, wp_call upper (calls i), h.update ?_ ?_⟩
    · rintro q ⟨⟩
      rfl
    · rintro call row ⟨⟩
  · intro qs s i q op d h hi _ hfailing
    exact ⟨_, rely_perform hfailing q, h.command hi⟩
  · intro qs t i q r h _ _
    exact h.update (by rintro q ⟨⟩) (by rintro call row ⟨⟩)
  · intro qs s i p q h _ _ _ _
    exact h.update (by rintro q ⟨⟩) (by rintro call row ⟨⟩)
  · rintro qs t t' _ ⟨⟩

/-- No note and no update is refused by a constraint, whatever is committed between the read that
found the case and the commit. -/
theorem commits_accepted (upper : String → String) (draws : Draws) (hids : Function.Injective draws.note)
    (calls : ι → Call) (s : Pool ι (CaseServer ι) CallRet Exn (Option Response))
    (hrun : Pool.Run (caseService upper draws calls) Failing emptyService s) (i : ι) (op : Op)
    (k : Except Exn (Ret op) → Prog CallRet Exn (Option Response))
    (hi : s.tasks i = some (.call (.inl op) k))
    (hcommit : (∃ new, op = .commitNote new) ∨ ∃ loaded modified, op = .commitUpdate loaded modified) :
    ∃ a, (CaseServer.perform draws i (.inl op) s.shared).1 = .ok a := by
  obtain ⟨qs, hmeets, htracked⟩ := tracked_run hrun
  obtain ⟨q, hq, hguar, -⟩ := hmeets.some hi
  obtain ⟨new, rfl⟩ | ⟨loaded, modified, rfl⟩ := hcommit
  · cases q with
    | found call row =>
      obtain ⟨row', hrow', hid⟩ := htracked.found i call row hq
      -- the primary key: the id is drawn now, those of the notes were drawn before
      have hfresh : s.shared.db.notes.find? (draws.note s.shared.notesDrawn) = none := by
        refine Table.find?_eq_none_iff.mpr ?_
        intro note hnote hnew
        obtain ⟨k, hk, hdrawn⟩ := htracked.notes note hnote
        have heq : k = s.shared.notesDrawn := hids (hdrawn.symm.trans hnew)
        omega
      -- the foreign key: the case was found, and no case is ever deleted
      have hcase : ∃ r ∈ s.shared.db.cases.rows, r.caseId = new.caseId :=
        ⟨row', hrow', hid.trans (Eq.symm hguar)⟩
      refine ⟨draws.note s.shared.notesDrawn, ?_⟩
      show (CaseServer.commit _ _ (s.shared.db.commitNote _)).1 = _
      unfold CaseDatabase.commitNote
      rw [dif_pos (show s.shared.db.notes.find? (new.row _).noteId = none from hfresh),
        dif_pos (show ∃ r ∈ s.shared.db.cases.rows, r.caseId = (new.row _).caseId from hcase)]
      rfl
    | _ => exact hguar.elim
  · cases q with
    | found call row =>
      obtain ⟨update, -, hrow, -⟩ := hguar
      subst hrow
      obtain ⟨row', hrow', hid⟩ := htracked.found i call loaded hq
      have hfind : (s.shared.db.cases.find? loaded.caseId).isSome = true := by
        rw [← hid, Table.find?_of_mem hrow']
        rfl
      refine ⟨(), ?_⟩
      show (s.shared.commitUpdate i loaded modified).1 = _
      unfold CaseServer.commitUpdate CaseDatabase.commitUpdate
      split_ifs
      · rfl
      · rfl
    | _ => exact hguar.elim

end Runs

/-! ### A case, a note, an update and a reader -/

/-- Identifiers of growing length, and queries that have the newest rows first. -/
def plainDraws : Draws where
  uuid k := String.ofList (List.replicate k 'u')
  case k := "cas_" ++ String.ofList (List.replicate k 'c')
  note k := "not_" ++ String.ofList (List.replicate k 'n')
  caseScan := .newestFirst Case
  noteScan := .newestFirst CaseNote

theorem injective_note_plainDraws : Function.Injective plainDraws.note := by
  intro k k' h
  have hlists := congrArg (List.length ∘ String.toList) h
  simpa [plainDraws] using hlists

/-- A case is created, and three calls work on it. -/
def fourCalls : ℕ → Call
  | 0 => .createCase { alertIds := ["alt-1"] }
  | 1 => .addCaseNote "cas_" ⟨"analyst", "checked"⟩
  | 2 => .updateCase "cas_" { status := "IN_PROGRESS", assignedTo := some "analyst" }
  | _ => .getCase "cas_"

/-- The calls on the service. -/
def fourService : Setting ℕ (CaseServer ℕ) CallRet Exn (Option Response) :=
  caseService (fun text => String.ofList (text.toList.map Char.toUpper)) plainDraws fourCalls

/-- The pool after a call has been started and some of its operations have been answered. -/
def advanced (i n : ℕ) (s : Pool ℕ (CaseServer ℕ) CallRet Exn (Option Response)) :
    Pool ℕ (CaseServer ℕ) CallRet Exn (Option Response) where
  tasks := Function.update s.tasks i (some (Pool.remaining (fourService.perform i)
    (fourService.program i) (List.replicate n .answered) s.shared))
  shared := Pool.script (fourService.perform i) (fourService.program i)
    (List.replicate n .answered) s.shared

/-- A call whose operations are answered. -/
theorem allows_answered (i : ℕ) (p : Prog CallRet Exn (Option Response)) (n : ℕ)
    (s : Pool ℕ (CaseServer ℕ) CallRet Exn (Option Response)) :
    Pool.Allows fourService Failing i p (List.replicate n .answered) s := by
  induction p generalizing n s with
  | pure a => trivial
  | raise e => trivial
  | call op k ih =>
      cases n with
      | zero => trivial
      | succ n => exact ⟨trivial, ih _ n _⟩

theorem run_advanced {i n : ℕ} {s : Pool ℕ (CaseServer ℕ) CallRet Exn (Option Response)}
    (h : s.tasks i = none) : Pool.Run fourService Failing s (advanced i n s) :=
  Pool.run_started h trivial (allows_answered i _ n _)

/-- The case has been created. -/
def opened : Pool ℕ (CaseServer ℕ) CallRet Exn (Option Response) := advanced 0 4 emptyService

theorem run_opened : Pool.Run fourService Failing emptyService opened := run_advanced rfl

theorem commits_accepted_note :
    ∃ a, (CaseServer.perform plainDraws 1 (.inl (.commitNote ⟨"cas_", "analyst", "checked"⟩))
      (advanced 1 1 opened).shared).1 = .ok a :=
  commits_accepted _ _ injective_note_plainDraws _ (advanced 1 1 opened)
    (run_opened.trans (run_advanced rfl)) 1 _ _ rfl (Or.inl ⟨_, rfl⟩)

end FraudDetection.Cases
