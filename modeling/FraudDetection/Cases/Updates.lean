import Mathlib.Data.List.Perm.Subperm
import FraudDetection.Cases.Integrity

/-!
# What becomes of a case

Updates of one case by several calls are read and written apart. The column that a call writes is
the one it asked for, whatever it had read, and the call committed last decides.

`Knows` says what a call that began after a state knows about the case it works on, until another
call commits an update of that case. `Since` is the invariant, from that state on.
-/

namespace FraudDetection.Cases

open Async Python Store Alerts

theorem Keeps.notesOf {db db' : CaseDatabase} (h : Keeps db db') (caseId : String) :
    (db.notesOf caseId).Subperm (db'.notesOf caseId) :=
  (h.notes.filter _).sublist.subperm

/-- The case is as the request wants it. -/
structure InEffect (update : CaseUpdate) (row : Case) : Prop where
  status : row.status = update.status
  assignedTo : ∀ name, nonempty? update.assignedTo = some name → row.assignedTo = some name

/-- A case with the attributes that a request sets. -/
theorem inEffect_apply (update : CaseUpdate) (row : Case) : InEffect update (update.apply row) := by
  refine ⟨rfl, ?_⟩
  intro name hname
  show (nonempty? update.assignedTo).or row.assignedTo = some name
  rw [hname]
  rfl

/-! ## What is written -/

section Columns

theorem writeColumns_of_unchanged {loaded modified : Case} (h : unchanged loaded modified = true)
    (row : Case) : writeColumns loaded modified row = row := by
  obtain ⟨hstatus, hassigned⟩ := of_decide_eq_true h
  unfold writeColumns
  rw [if_pos hstatus, if_pos hassigned]

/-- A call that has loaded the row as it is. -/
theorem writeColumns_self (update : CaseUpdate) (row : Case) :
    writeColumns row (update.apply row) row = update.apply row := by
  unfold writeColumns
  have hstatus : (if (update.apply row).status = row.status then row.status
      else (update.apply row).status) = (update.apply row).status := by
    split
    · rename_i h
      exact h.symm
    · rfl
  have hassigned : (if (update.apply row).assignedTo = row.assignedTo then row.assignedTo
      else (update.apply row).assignedTo) = (update.apply row).assignedTo := by
    split
    · rename_i h
      exact h.symm
    · rfl
  rw [hstatus, hassigned]
  rfl

/-- Whatever it had loaded, a call writes the status it asks for or none. -/
theorem status_writeColumns (update : CaseUpdate) (loaded row : Case) :
    (writeColumns loaded (update.apply loaded) row).status = row.status ∨
      (writeColumns loaded (update.apply loaded) row).status = update.status := by
  unfold writeColumns
  dsimp only
  split
  · exact Or.inl rfl
  · exact Or.inr rfl

/-- It writes the assignment it asks for or none. -/
theorem assignedTo_writeColumns (update : CaseUpdate) (loaded row : Case) :
    (writeColumns loaded (update.apply loaded) row).assignedTo = row.assignedTo ∨
      ∃ name, nonempty? update.assignedTo = some name ∧
        (writeColumns loaded (update.apply loaded) row).assignedTo = some name := by
  unfold writeColumns
  dsimp only
  split
  · exact Or.inl rfl
  · rename_i hdiffers
    cases hname : nonempty? update.assignedTo with
    | none => exact absurd (by simp [CaseUpdate.apply, hname]) hdiffers
    | some name => exact Or.inr ⟨name, rfl, by simp [CaseUpdate.apply, hname]⟩

variable {ι : Type} {draws : Draws} {i : ι} {op : CallOp} {t t' : CaseServer ι}

/-- What a step does to the cases that are there: nothing, or it is an update of one of them. -/
def Writes (i : ι) (op : CallOp) (t t' : CaseServer ι) : Prop :=
  (t'.updates = t.updates ∧
    ∀ caseId row, t.db.cases.find? caseId = some row → t'.db.cases.find? caseId = some row) ∨
  ∃ loaded modified, op = .inl (.commitUpdate loaded modified) ∧
    t'.updates = (i, loaded.caseId) :: t.updates ∧
    ∀ caseId, t'.db.cases.find? caseId = (t.db.cases.find? caseId).map fun row =>
      if caseId = loaded.caseId then writeColumns loaded modified row else row

theorem Writes.refl (i : ι) (op : CallOp) (t : CaseServer ι) : Writes i op t t :=
  Or.inl ⟨rfl, fun _ _ h => h⟩

/-- A row that is inserted hides no other. -/
theorem find?_insert {db : CaseDatabase} {row row' : Case} {caseId : String}
    (h : db.cases.find? row.caseId = none) (hfind : db.cases.find? caseId = some row') :
    (db.cases.insert row h).find? caseId = some row' := by
  obtain ⟨hrow', hid⟩ := Table.find?_eq_some_iff.mp hfind
  exact Table.find?_eq_some_iff.mpr ⟨List.mem_append_left _ hrow', hid⟩

theorem find?_commitCase {db db' : CaseDatabase} {row row' : Case} {caseId : String}
    (h : db.commitCase row = .ok db') (hfind : db.cases.find? caseId = some row') :
    db'.cases.find? caseId = some row' := by
  unfold CaseDatabase.commitCase at h
  split at h
  · rename_i hnone
    cases h
    exact find?_insert hnone hfind
  · cases h

theorem cases_commitNote {db db' : CaseDatabase} {note : CaseNote}
    (h : db.commitNote note = .ok db') : db'.cases = db.cases := by
  unfold CaseDatabase.commitNote at h
  split at h
  · split at h
    · cases h
      rfl
    · cases h
  · cases h

/-- A commit that hides no case. -/
theorem writes_commit {R : Type} {r : R} {x : Except Exn CaseDatabase} {t₀ : CaseServer ι}
    (hupdates : t.updates = t₀.updates) (hdb : t.db = t₀.db)
    (h : ∀ db, x = .ok db → ∀ caseId row, t₀.db.cases.find? caseId = some row →
      db.cases.find? caseId = some row) :
    Writes i op t₀ (t.commit r x).2 := by
  unfold CaseServer.commit
  cases x with
  | ok db => exact Or.inl ⟨hupdates, h db rfl⟩
  | error e =>
    refine Or.inl ⟨hupdates, ?_⟩
    intro caseId row hfind
    rw [hdb]
    exact hfind

theorem find?_commitUpdate {db db' : CaseDatabase} {loaded modified : Case}
    (h : db.commitUpdate loaded modified = .ok db') (caseId : String) :
    db'.cases.find? caseId = (db.cases.find? caseId).map fun row =>
      if caseId = loaded.caseId then writeColumns loaded modified row else row := by
  unfold CaseDatabase.commitUpdate at h
  split at h
  · rename_i hunchanged
    cases h
    have hid : (fun row => if caseId = loaded.caseId then writeColumns loaded modified row
        else row) = id := by
      funext row
      rw [writeColumns_of_unchanged hunchanged, ite_self]
      rfl
    rw [hid, Option.map_id]
    rfl
  · split at h
    · cases h
      by_cases hkey : caseId = loaded.caseId
      · subst hkey
        simp only [if_true]
        exact Table.find?_modify_self (caseId_writeColumns _ _)
      · simp only [if_neg hkey, Option.map_id']
        exact Table.find?_modify_of_ne (caseId_writeColumns _ _) hkey
    · cases h

/-- Every operation. -/
theorem writes_perform : Writes i op t (CaseServer.perform draws i op t).2 := by
  rcases op with op | op
  · cases op with
    | commitCase row seed =>
      cases seed with
      | none => exact writes_commit rfl rfl fun db hdb caseId row => find?_commitCase hdb
      | some seed =>
        refine writes_commit (t := { t with notesDrawn := t.notesDrawn + 1 }) rfl rfl ?_
        intro db hdb caseId row hfind
        obtain ⟨db', hcase, hnote⟩ := bind_eq_ok.mp hdb
        rw [cases_commitNote hnote]
        exact find?_commitCase hcase hfind
    | commitNote new =>
      refine writes_commit (t := { t with notesDrawn := t.notesDrawn + 1 }) rfl rfl ?_
      intro db hdb caseId row hfind
      rw [cases_commitNote hdb]
      exact hfind
    | commitUpdate loaded modified =>
      show Writes i _ t (t.commitUpdate i loaded modified).2
      unfold CaseServer.commitUpdate
      cases hdb : t.db.commitUpdate loaded modified with
      | ok db => exact Or.inr ⟨loaded, modified, rfl, rfl, find?_commitUpdate hdb⟩
      | error e => exact .refl i _ t
    | _ => exact Or.inl ⟨rfl, fun _ _ h => h⟩
  · cases op with
    | insert new =>
      unfold CaseServer.perform
      dsimp only
      split
      · exact writes_commit (t := { t with casesDrawn := t.casesDrawn + 1 }) rfl rfl
          fun db hdb caseId row => find?_commitCase hdb
      · exact Or.inl ⟨rfl, fun _ _ h => h⟩

end Columns

/-! ## Since a state -/

section Since

variable {ι : Type} {draws : Draws} {calls : ι → Call} {upper : String → String}

/-- What the updates of `new` have made of a case: only its status and its assignment differ, and
each is as it was or as one of the updates wants it. -/
structure Follows (calls : ι → Call) (new : List (ι × String)) (row row' : Case) : Prop where
  same : SameCase row row'
  status : row'.status = row.status ∨ ∃ j update, (j, row.caseId) ∈ new ∧
    calls j = .updateCase row.caseId update ∧ row'.status = update.status
  assignedTo : row'.assignedTo = row.assignedTo ∨ ∃ j update name, (j, row.caseId) ∈ new ∧
    calls j = .updateCase row.caseId update ∧ nonempty? update.assignedTo = some name ∧
      row'.assignedTo = some name

theorem Follows.refl (row : Case) : Follows calls [] row row :=
  ⟨.refl row, Or.inl rfl, Or.inl rfl⟩

theorem Follows.cons {new : List (ι × String)} {row row' : Case} (h : Follows calls new row row')
    (x : ι × String) : Follows calls (x :: new) row row' where
  same := h.same
  status := by
    rcases h.status with hold | ⟨j, update, hj, hupdate⟩
    · exact Or.inl hold
    · exact Or.inr ⟨j, update, List.mem_cons_of_mem _ hj, hupdate⟩
  assignedTo := by
    rcases h.assignedTo with hold | ⟨j, update, name, hj, hupdate⟩
    · exact Or.inl hold
    · exact Or.inr ⟨j, update, name, List.mem_cons_of_mem _ hj, hupdate⟩

/-- One more update. -/
theorem Follows.write {new : List (ι × String)} {row row' loaded : Case} {i : ι} {update : CaseUpdate}
    (h : Follows calls new row row') (hcall : calls i = .updateCase row.caseId update) :
    Follows calls ((i, row.caseId) :: new) row
      (writeColumns loaded (update.apply loaded) row') where
  same := h.same.trans ⟨rfl, rfl, rfl, rfl, rfl⟩
  status := by
    rcases status_writeColumns update loaded row' with hold | hwritten
    · rw [hold]
      exact (h.cons _).status
    · exact Or.inr ⟨i, update, List.mem_cons_self, hcall, hwritten⟩
  assignedTo := by
    rcases assignedTo_writeColumns update loaded row' with hold | ⟨name, hname, hwritten⟩
    · rw [hold]
      exact (h.cons _).assignedTo
    · exact Or.inr ⟨i, update, name, List.mem_cons_self, hcall, hname, hwritten⟩

/-- What a call knows about its case, where `new` are the updates committed since `t₀`, before which
the call had not begun. -/
def Knows (t₀ : CaseServer ι) (new : List (ι × String)) (i : ι) (t : CaseServer ι) : Stage → Prop
  | .absent call => ∀ row ∈ t₀.db.cases.rows, call.caseId? ≠ some row.caseId
  | .found _ row =>
      ((∀ j, (j, row.caseId) ∈ new → j = i) → t.db.cases.find? row.caseId = some row) ∧
        ∀ row₀ ∈ t₀.db.cases.rows, row₀.caseId = row.caseId → SameCase row₀ row
  | .settled (.updateCase caseId update) _ => (∀ j, (j, caseId) ∈ new → j = i) →
      ∃ row, t.db.cases.find? caseId = some row ∧ InEffect update row
  | .read _ row notes =>
      (t₀.db.notesOf row.caseId).Subperm notes ∧ notes.Subperm (t.db.notesOf row.caseId) ∧
        ∀ row₀ ∈ t₀.db.cases.rows, row₀.caseId = row.caseId → SameCase row₀ row
  | _ => True

/-- What the stages and the tables say about a run since `t₀`, where the calls of `fresh` had not
begun yet. -/
structure Since (draws : Draws) (calls : ι → Call) (t₀ : CaseServer ι) (fresh : ι → Prop)
    (qs : ι → Option Stage) (t : CaseServer ι) : Prop where
  tracked : Tracked draws calls qs t
  keeps : Keeps t₀.db t.db
  log : ∃ new, t.updates = new ++ t₀.updates ∧
    (∀ row ∈ t₀.db.cases.rows, ∃ row', t.db.cases.find? row.caseId = some row' ∧
      Follows calls new row row') ∧
    ∀ i q, fresh i → qs i = some q → Knows t₀ new i t q

/-- An update that a call is about to commit is the one it was called for. -/
theorem update_of_guar {qs : ι → Option Stage} {t : CaseServer ι} (h : Tracked draws calls qs t) {i : ι}
    {q : Stage} (hi : qs i = some q) {loaded modified : Case}
    (hguar : steps.guar q (.inl (.commitUpdate loaded modified))) :
    ∃ update, calls i = .updateCase loaded.caseId update ∧ modified = update.apply loaded := by
  cases q with
  | found call row =>
    obtain ⟨update, rfl, rfl, rfl⟩ := hguar
    exact ⟨update, (h.call i _ hi).symm, rfl⟩
  | _ => exact hguar.elim

variable {t₀ t t' : CaseServer ι} {new new' : List (ι × String)} {i : ι} {q : Stage} {op : CallOp}

/-- A call keeps what it knows as long as what it says of its case is still so, unless another call
has committed an update. -/
theorem Knows.mono (h : Knows t₀ new i t q) (hnew : ∀ x ∈ new, x ∈ new') (hkeeps : Keeps t.db t'.db)
    (hfind : ∀ caseId row, (∀ j, (j, caseId) ∈ new' → j = i) →
      t.db.cases.find? caseId = some row → t'.db.cases.find? caseId = some row) :
    Knows t₀ new' i t' q := by
  cases q with
  | absent call => exact h
  | found call row =>
    refine ⟨?_, h.2⟩
    intro halone
    exact hfind _ _ halone (h.1 fun j hj => halone j (hnew _ hj))
  | settled call row =>
    cases call with
    | updateCase caseId update =>
      intro halone
      obtain ⟨row', hrow', heffect⟩ := h fun j hj => halone j (hnew _ hj)
      exact ⟨row', hfind _ _ halone hrow', heffect⟩
    | _ => trivial
  | read call row notes =>
    exact ⟨h.1, h.2.1.trans (hkeeps.notesOf row.caseId), h.2.2⟩
  | _ => trivial

/-- What a call knows that has just taken an operation. -/
theorem knows_reached {q' : Stage} (hkeeps : Keeps t₀.db t.db)
    (hfollows : ∀ row ∈ t₀.db.cases.rows, ∃ row', t.db.cases.find? row.caseId = some row' ∧
      Follows calls new row row')
    (hknows : Knows t₀ new i t q) (hguar : steps.guar q op) (hwrites : Writes i op t t')
    (hnew : ∀ x ∈ new, x ∈ new') (hreached : q.Reached i op t t' q') : Knows t₀ new' i t' q' := by
  cases q' with
  | absent call =>
    obtain ⟨rfl, caseId, rfl, hnone⟩ := hreached
    intro row hrow hid
    obtain rfl : caseId = row.caseId := Option.some.inj (Eq.trans (Eq.symm hguar) hid)
    -- a case of `t₀` would have been found
    obtain ⟨row', hrow', -⟩ := hfollows row hrow
    rw [hnone] at hrow'
    cases hrow'
  | found call row =>
    obtain ⟨rfl, caseId, rfl, hfind⟩ := hreached
    obtain ⟨-, rfl⟩ := Table.find?_eq_some_iff.mp hfind
    refine ⟨?_, ?_⟩
    · intro _
      rcases hwrites with ⟨-, hkept⟩ | ⟨loaded, modified, hop, -⟩
      · exact hkept _ _ hfind
      · cases hop
    · intro row₀ hrow₀ hid
      obtain ⟨row', hrow', hfollow⟩ := hfollows row₀ hrow₀
      rw [hid, hfind] at hrow'
      cases hrow'
      exact hfollow.same
  | settled call row =>
    obtain ⟨rfl, loaded, modified, rfl, hcommit⟩ := hreached
    obtain ⟨update, rfl, rfl, rfl⟩ := hguar
    intro halone
    -- the row is still as it was loaded, so writing the changed columns writes them all
    have hfind := hknows.1 fun j hj => halone j (hnew _ hj)
    rcases hwrites with ⟨hsame, -⟩ | ⟨loaded', modified', hop, -, hwritten⟩
    · -- an update that is committed is noted
      unfold CaseServer.commitUpdate at hcommit
      split at hcommit
      · have hupdates := congrArg (fun x => x.2.updates.length) hcommit
        simp [hsame] at hupdates
      · cases hcommit
    · cases hop
      refine ⟨update.apply loaded, ?_, inEffect_apply update loaded⟩
      rw [hwritten, hfind, Option.map_some, if_pos rfl, writeColumns_self]
  | read call row notes =>
    obtain ⟨rfl, caseId, rfl, hnotes, hdb⟩ := hreached
    obtain ⟨-, rfl⟩ := hguar
    -- the `SELECT` has the notes of now, in some order
    refine ⟨(hkeeps.notesOf row.caseId).trans hnotes.symm.subperm, ?_, hknows.2⟩
    rw [hdb]
    exact hnotes.subperm
  | _ => trivial

/-- The cases after a step. -/
theorem follows_writes (hwrites : Writes i op t t')
    (hguar : ∀ loaded modified, op = .inl (.commitUpdate loaded modified) →
      ∃ update, calls i = .updateCase loaded.caseId update ∧ modified = update.apply loaded)
    (hlog : t.updates = new ++ t₀.updates)
    (hfollows : ∀ row ∈ t₀.db.cases.rows, ∃ row', t.db.cases.find? row.caseId = some row' ∧
      Follows calls new row row') :
    ∃ new', t'.updates = new' ++ t₀.updates ∧ (∀ x ∈ new, x ∈ new') ∧
      ∀ row ∈ t₀.db.cases.rows, ∃ row', t'.db.cases.find? row.caseId = some row' ∧
        Follows calls new' row row' := by
  rcases hwrites with ⟨hsame, hkept⟩ | ⟨loaded, modified, rfl, hnoted, hwritten⟩
  · refine ⟨new, hsame.trans hlog, fun x hx => hx, ?_⟩
    intro row hrow
    obtain ⟨row', hrow', hfollow⟩ := hfollows row hrow
    exact ⟨row', hkept _ _ hrow', hfollow⟩
  · refine ⟨(i, loaded.caseId) :: new, ?_, fun x => List.mem_cons_of_mem _, ?_⟩
    · rw [hnoted, hlog]
      rfl
    · intro row hrow
      obtain ⟨row', hrow', hfollow⟩ := hfollows row hrow
      rw [hwritten, hrow']
      refine ⟨_, rfl, ?_⟩
      split
      · rename_i hkey
        obtain ⟨update, hcall, rfl⟩ := hguar loaded modified rfl
        rw [← hkey] at hcall ⊢
        exact hfollow.write hcall
      · exact hfollow.cons _

variable [DecidableEq ι] {fresh : ι → Prop} {qs : ι → Option Stage}

/-- A stage that knows nothing. -/
theorem Since.update (h : Since draws calls t₀ fresh qs t) {o : Option Stage}
    (htracked : Tracked draws calls (Function.update qs i o) t)
    (hknows : ∀ new q, o = some q → Knows t₀ new i t q) :
    Since draws calls t₀ fresh (Function.update qs i o) t where
  tracked := htracked
  keeps := h.keeps
  log := by
    obtain ⟨new, hlog, hfollows, hold⟩ := h.log
    refine ⟨new, hlog, hfollows, ?_⟩
    intro j q hj hq
    rcases Pool.update_cases hq with ⟨rfl, hq'⟩ | ⟨-, hq'⟩
    · exact hknows new q hq'
    · exact hold j q hj hq'

/-- One operation. -/
theorem Since.command (h : Since draws calls t₀ fresh qs t) (hi : qs i = some q)
    (hguar : steps.guar q op) (d : Delivery Exn) :
    let x := d.outcome (CaseServer.perform draws i op t) t
    Since draws calls t₀ fresh (Function.update qs i (some (q.next ⟨op, x.1⟩))) x.2 := by
  intro x
  have hkeeps : Keeps t.db x.2.db :=
    d.outcome_state (P := fun t' : CaseServer ι => Keeps t.db t'.db) (keeps_perform draws i op t)
      (.refl _)
  have hwrites : Writes i op t x.2 :=
    d.outcome_state (P := Writes i op t) writes_perform (.refl i op t)
  obtain ⟨new, hlog, hfollows, hknows⟩ := h.log
  obtain ⟨new', hlog', hnew, hfollows'⟩ := follows_writes hwrites (by
    rintro loaded modified rfl
    exact update_of_guar h.tracked hi hguar) hlog hfollows
  refine ⟨h.tracked.command hi, h.keeps.trans hkeeps, new', hlog', hfollows', ?_⟩
  intro j q' hj hq'
  rcases Pool.update_cases hq' with ⟨rfl, hnext⟩ | ⟨hne, hold⟩
  · cases hnext
    exact knows_reached h.keeps hfollows (hknows j q hj hi) hguar hwrites hnew (reached_next q d)
  · refine (hknows j q' hj hold).mono hnew hkeeps ?_
    intro caseId row halone hfind
    rcases hwrites with ⟨-, hkept⟩ | ⟨loaded, modified, rfl, hnoted, hwritten⟩
    · exact hkept _ _ hfind
    · rw [hwritten, hfind, Option.map_some]
      split
      · rename_i hkey
        -- the call that writes is another one
        have hmem : (i, caseId) ∈ new' := by
          have hcons : new' = (i, loaded.caseId) :: new :=
            List.append_cancel_right (hlog'.symm.trans (hnoted.trans (by rw [hlog]; rfl)))
          rw [hcons, hkey]
          exact List.mem_cons_self
        exact absurd (halone i hmem) (Ne.symm hne)
      · rfl

end Since

/-! ## Runs -/

section Runs

variable {ι : Type} [DecidableEq ι] {draws : Draws} {calls : ι → Call} {upper : String → String}
  {s₀ s : Pool ι (CaseServer ι) CallRet Exn (Option Response)}

/-- The invariant, from a state that the service has reached. -/
theorem since_run (hreached : Pool.Run (caseService upper draws calls) Failing emptyService s₀)
    (hrun : Pool.Run (caseService upper draws calls) Failing s₀ s) :
    ∃ qs, Pool.Meets steps Ends s.tasks qs ∧
      Since draws calls s₀.shared (fun i => s₀.tasks i = none) qs s.shared := by
  obtain ⟨qs₀, hmeets₀, htracked⟩ := tracked_run hreached
  have hsince : Since draws calls s₀.shared (fun i => s₀.tasks i = none) qs₀ s₀.shared := by
    refine ⟨htracked, .refl _, [], rfl, ?_, ?_⟩
    · intro row hrow
      exact ⟨row, Table.find?_of_mem hrow, .refl row⟩
    · intro i q hi hq
      rw [hmeets₀.none hi] at hq
      cases hq
  refine Pool.invariant (Since draws calls s₀.shared fun i => s₀.tasks i = none) ?_ ?_ ?_ ?_ ?_
    hmeets₀ hsince hrun
  · intro qs t i h _
    refine ⟨_, wp_call upper (calls i), h.update (h.tracked.update ?_ ?_) ?_⟩
    · rintro q ⟨⟩
      rfl
    · rintro call row ⟨⟩
    · rintro new q ⟨⟩
      trivial
  · intro qs s i q op d h hi hguar hfailing
    exact ⟨_, rely_perform hfailing q, h.command hi hguar d⟩
  · intro qs t i q r h _ _
    exact h.update (h.tracked.update (by rintro q ⟨⟩) (by rintro call row ⟨⟩)) (by rintro new q ⟨⟩)
  · intro qs s i p q h _ _ _ _
    exact h.update (h.tracked.update (by rintro q ⟨⟩) (by rintro call row ⟨⟩)) (by rintro new q ⟨⟩)
  · rintro qs t t' _ ⟨⟩

/-- What becomes of the cases and notes of a state: they are all still there, a case differs in its
status and its assignment at most, and each of the two is as it was or as some update asked for that
was committed since. -/
theorem cases_follow_updates (upper : String → String) (draws : Draws) (calls : ι → Call)
    (s₀ s : Pool ι (CaseServer ι) CallRet Exn (Option Response))
    (hreached : Pool.Run (caseService upper draws calls) Failing emptyService s₀)
    (hrun : Pool.Run (caseService upper draws calls) Failing s₀ s) :
    s₀.shared.db.notes.rows <+: s.shared.db.notes.rows ∧
      ∃ new, s.shared.updates = new ++ s₀.shared.updates ∧
        ∀ row ∈ s₀.shared.db.cases.rows, ∃ row',
          s.shared.db.cases.find? row.caseId = some row' ∧ Follows calls new row row' := by
  obtain ⟨qs, -, hsince⟩ := since_run hreached hrun
  obtain ⟨new, hlog, hfollows, -⟩ := hsince.log
  exact ⟨hsince.keeps.notes, new, hlog, hfollows⟩

theorem cases_follow_updates_assigned :
    let s := advanced 2 2 opened
    opened.shared.db.notes.rows <+: s.shared.db.notes.rows ∧
      ∃ new, s.shared.updates = new ++ opened.shared.updates ∧
        ∀ row ∈ opened.shared.db.cases.rows, ∃ row',
          s.shared.db.cases.find? row.caseId = some row' ∧ Follows fourCalls new row row' :=
  cases_follow_updates _ _ _ opened (advanced 2 2 opened) run_opened (run_advanced rfl)

/-- An update that has succeeded is in effect, unless another call has committed an update of the
case since it began. -/
theorem update_settles (upper : String → String) (draws : Draws) (calls : ι → Call)
    (s₀ s : Pool ι (CaseServer ι) CallRet Exn (Option Response))
    (hreached : Pool.Run (caseService upper draws calls) Failing emptyService s₀)
    (hrun : Pool.Run (caseService upper draws calls) Failing s₀ s) (i : ι) (caseId : String)
    (update : CaseUpdate) (a : Option Response) (hcall : calls i = .updateCase caseId update)
    (hbegan : s₀.tasks i = none) (hi : s.tasks i = some (.pure a)) :
    ∃ new, s.shared.updates = new ++ s₀.shared.updates ∧
      ((∃ j, j ≠ i ∧ (j, caseId) ∈ new) ∨
        ∃ row, s.shared.db.cases.find? caseId = some row ∧ InEffect update row) := by
  obtain ⟨qs, hmeets, hsince⟩ := since_run hreached hrun
  obtain ⟨new, hlog, -, hknows⟩ := hsince.log
  obtain ⟨q, hq, hends⟩ := hmeets.some hi
  obtain ⟨row, rfl, -⟩ := hends.settled caseId update a
    ((hsince.tracked.call i q hq).trans hcall) rfl
  refine ⟨new, hlog, ?_⟩
  by_cases halone : ∀ j, (j, caseId) ∈ new → j = i
  · exact Or.inr (hknows i _ hbegan hq halone)
  · obtain ⟨j, hj⟩ := not_forall.mp halone
    obtain ⟨hmem, hne⟩ := Classical.not_imp.mp hj
    exact Or.inl ⟨j, hne, hmem⟩

theorem update_settles_assigned :
    let s := advanced 2 2 opened
    ∃ new, s.shared.updates = new ++ opened.shared.updates ∧
      ((∃ j, j ≠ 2 ∧ (j, "cas_") ∈ new) ∨ ∃ row, s.shared.db.cases.find? "cas_" = some row ∧
        InEffect { status := "IN_PROGRESS", assignedTo := some "analyst" } row) :=
  update_settles _ _ _ opened (advanced 2 2 opened) run_opened (run_advanced rfl) 2 _ _
    (some (.success "success" "cas_")) rfl rfl rfl

/-- A request reads its case, and in some order the notes: all those there when it began, and none
that is not there now. -/
theorem get_case_between (upper : String → String) (draws : Draws) (calls : ι → Call)
    (s₀ s : Pool ι (CaseServer ι) CallRet Exn (Option Response))
    (hreached : Pool.Run (caseService upper draws calls) Failing emptyService s₀)
    (hrun : Pool.Run (caseService upper draws calls) Failing s₀ s) (i : ι) (caseId : String)
    (a : Option Response) (hcall : calls i = .getCase caseId) (hbegan : s₀.tasks i = none)
    (hi : s.tasks i = some (.pure a)) :
    ∃ row notes, a = some (.case row notes) ∧ row.caseId = caseId ∧
      (∀ row₀ ∈ s₀.shared.db.cases.rows, row₀.caseId = caseId → SameCase row₀ row) ∧
      (s₀.shared.db.notesOf caseId).Subperm notes ∧
      notes.Subperm (s.shared.db.notesOf caseId) := by
  obtain ⟨qs, hmeets, hsince⟩ := since_run hreached hrun
  obtain ⟨new, -, -, hknows⟩ := hsince.log
  obtain ⟨q, hq, hends⟩ := hmeets.some hi
  obtain ⟨row, notes, rfl, rfl, rfl⟩ := hends.read caseId a
    ((hsince.tracked.call i q hq).trans hcall) rfl
  obtain ⟨hbefore, hafter, hsame⟩ := hknows i _ hbegan hq
  exact ⟨row, notes, rfl, rfl, hsame, hbefore, hafter⟩

theorem get_case_between_noted :
    let s₀ := advanced 1 2 opened
    let s := advanced 3 2 s₀
    ∃ row notes, s.tasks 3 = some (.pure (some (.case row notes))) ∧ row.caseId = "cas_" ∧
      (s₀.shared.db.notesOf "cas_").Subperm notes ∧
      notes.Subperm (s.shared.db.notesOf "cas_") := by
  intro s₀ s
  obtain ⟨row, notes, ha, hid, -, hbefore, hafter⟩ := get_case_between _ _ _ s₀ s
    (run_opened.trans (run_advanced rfl)) (run_advanced rfl) 3 "cas_" _ rfl rfl rfl
  exact ⟨row, notes, congrArg (fun a => some (Prog.pure a)) ha, hid, hbefore, hafter⟩

/-- No request about a case that was there before it began has a response with status 404. -/
theorem existing_case_found (upper : String → String) (draws : Draws) (calls : ι → Call)
    (s₀ s : Pool ι (CaseServer ι) CallRet Exn (Option Response))
    (hreached : Pool.Run (caseService upper draws calls) Failing emptyService s₀)
    (hrun : Pool.Run (caseService upper draws calls) Failing s₀ s) (i : ι) (row : Case)
    (hrow : row ∈ s₀.shared.db.cases.rows) (hcall : (calls i).caseId? = some row.caseId)
    (hbegan : s₀.tasks i = none) : s.tasks i ≠ some (.raise caseNotFound) := by
  intro hi
  obtain ⟨qs, hmeets, hsince⟩ := since_run hreached hrun
  obtain ⟨new, -, -, hknows⟩ := hsince.log
  obtain ⟨q, hq, hends⟩ := hmeets.some hi
  have hqcall := hsince.tracked.call i q hq
  have hnamed : q.call.caseId? = some row.caseId := by rw [hqcall, hcall]
  have habsent := hends.absent (by rw [hnamed]; exact Option.some_ne_none _) rfl
  have hknown := hknows i q hbegan hq
  rw [habsent] at hknown
  exact hknown row hrow hnamed

theorem existing_case_found_noted :
    (advanced 1 1 opened).tasks 1 ≠ some (.raise caseNotFound) :=
  existing_case_found _ _ _ opened (advanced 1 1 opened) run_opened (run_advanced rfl) 1
    (opened.shared.db.cases.rows.get ⟨0, Nat.one_pos⟩) (List.get_mem _ _) rfl rfl

end Runs

end FraudDetection.Cases
