import FraudDetection.Alerts.ConsumeCases
import FraudDetection.Store.Table

/-!
# The case management service

The endpoints of the service read and write two tables, and the consumer of the topic of cases
inserts into one of them. Each call has a session of its own: what it has read stays with it until
it commits. A commit is one step, and writes the columns that the call has changed.

Rows have no times of creation here.

`Keeps` says what an operation does to the rows that are there: they stay, with their references and
their severity. A call that has found a case finds it again when it commits.
-/

namespace FraudDetection.Cases

open Async Python Store Alerts

/-! ## Tables -/

/-- A row of the table `case_notes`. -/
structure CaseNote where
  noteId : String
  caseId : String
  author : String
  content : String

/-- The database: every note refers to a case. -/
structure CaseDatabase where
  cases : Table Case.caseId
  notes : Table CaseNote.noteId
  references : ∀ note ∈ notes.rows, ∃ row ∈ cases.rows, row.caseId = note.caseId

/-! ## Requests -/

/-- The body of `POST /cases`. -/
structure CaseCreate where
  alertIds : List String := []
  status : String := "OPEN"
  severity : String := "HIGH"
  priority : Option String := none
  title : Option String := none
  description : Option String := none
  assignedTo : Option String := none

/-- The body of `POST /cases/{case_id}/notes`. -/
structure NoteCreate where
  author : String
  content : String

/-- The body of `PATCH /cases/{case_id}`. -/
structure CaseUpdate where
  status : String
  assignedTo : Option String := none

/-- The text, if there is one that is not empty. -/
def nonempty? : Option String → Option String
  | some text => if text = "" then none else some text
  | none => none

/-- The columns of a note but its id. -/
structure NewNote where
  caseId : String
  author : String
  content : String

/-- The row of a note. -/
def NewNote.row (new : NewNote) (noteId : String) : CaseNote :=
  ⟨noteId, new.caseId, new.author, new.content⟩

/-- What a call awaits. -/
inductive Op where
  | selectCases (limit : ℕ)
  | selectCase (caseId : String)
  | selectNotes (caseId : String)
  | uuid4
  | flush
  | commitCase (row : Case) (seed : Option NewNote)
  | commitNote (new : NewNote)
  | commitUpdate (loaded modified : Case)

/-- The replies: rows, and new identifiers. -/
abbrev Ret : Op → Type
  | .selectCases _ => List Case
  | .selectCase _ => Option Case
  | .selectNotes _ => List CaseNote
  | .uuid4 => String
  | .flush => String
  | .commitCase _ _ => Unit
  | .commitNote _ => String
  | .commitUpdate _ _ => Unit

/-- What the endpoints return. -/
inductive Response where
  | cases (rows : List Case)
  | case (row : Case) (notes : List CaseNote)
  | noted (status noteId : String)
  | success (status caseId : String)

/-- `raise HTTPException(status_code=404, detail="Case not found")` -/
def caseNotFound : Exn := ⟨.other "HTTPException", "404: Case not found"⟩

/-- `list_cases` -/
def listCases : Prog Ret Exn Response := do
  let rows ← Prog.await (Op.selectCases 100)
  return .cases rows

/-- The case under an id, or a response with status 404. -/
def findCase (caseId : String) : Prog Ret Exn Case := do
  let found ← Prog.await (Op.selectCase caseId)
  match found with
  | some row => pure row
  | none => .raise caseNotFound

/-- `get_case` -/
def getCase (caseId : String) : Prog Ret Exn Response := do
  let row ← findCase caseId
  let notes ← Prog.await (Op.selectNotes caseId)
  return .case row notes

/-- `add_case_note` -/
def addCaseNote (caseId : String) (note : NoteCreate) : Prog Ret Exn Response := do
  let _ ← findCase caseId
  let noteId ← Prog.await (Op.commitNote ⟨caseId, note.author, note.content⟩)
  return .noted "success" noteId

/-- The row with the attributes that the request sets. -/
def CaseUpdate.apply (update : CaseUpdate) (row : Case) : Case :=
  { row with
    status := update.status
    assignedTo := (nonempty? update.assignedTo).or row.assignedTo }

/-- `update_case` -/
def updateCase (caseId : String) (update : CaseUpdate) : Prog Ret Exn Response := do
  let row ← findCase caseId
  Prog.await (Op.commitUpdate row (update.apply row))
  return .success "success" row.caseId

/-- `uuid.uuid4().hex[:n]` behind a prefix. -/
def drawId (label : String) (n : ℕ) : Prog Ret Exn String := do
  let hex ← Prog.await Op.uuid4
  return label ++ String.ofList (hex.toList.take n)

/-- The content of the note that a new case starts with. -/
def CaseCreate.noteContent (caseIn : CaseCreate) : Option String :=
  match nonempty? caseIn.title with
  | some title => some ("[" ++ title ++ "] " ++ caseIn.description.getD "None")
  | none => nonempty? caseIn.description

/-- The alert of a new case: the first one given, or a new one. -/
def CaseCreate.primaryAlertId (caseIn : CaseCreate) : Prog Ret Exn String :=
  match caseIn.alertIds with
  | alertId :: _ => pure alertId
  | [] => drawId "alt_" 16

/-- `create_case`, where `upper` is `str.upper`. -/
def createCase (upper : String → String) (caseIn : CaseCreate) : Prog Ret Exn Response := do
  let primaryAlertId ← caseIn.primaryAlertId
  let transactionId ← drawId "tx_" 16
  let customerId ← drawId "CUST-" 8
  let caseId ← Prog.await Op.flush
  let row : Case := {
    caseId := caseId
    alertId := primaryAlertId
    transactionId := transactionId
    customerId := customerId
    severity := upper ((nonempty? caseIn.priority).getD caseIn.severity)
    status := upper caseIn.status
    assignedTo := caseIn.assignedTo }
  Prog.await (Op.commitCase row (caseIn.noteContent.map fun content =>
    ⟨caseId, "System Seed", content⟩))
  return .success "success" caseId

/-! ## The service -/

/-- A call: a request, or a message of the topic of cases. -/
inductive Call where
  | listCases
  | getCase (caseId : String)
  | addCaseNote (caseId : String) (note : NoteCreate)
  | updateCase (caseId : String) (update : CaseUpdate)
  | createCase (caseIn : CaseCreate)
  | consumed (value : Json)

/-- The operations of the endpoints and of the consumer. -/
abbrev CallOp := Op ⊕ CaseOp

/-- The replies to them. -/
abbrev CallRet : CallOp → Type := SumRet Ret CaseRet

/-- What a call does. A message has no response. -/
def Call.program (upper : String → String) : Call → Prog CallRet Exn (Option Response)
  | .listCases => Cases.listCases.inl >>= fun r => pure (some r)
  | .getCase caseId => (Cases.getCase caseId).inl >>= fun r => pure (some r)
  | .addCaseNote caseId note => (Cases.addCaseNote caseId note).inl >>= fun r => pure (some r)
  | .updateCase caseId update => (Cases.updateCase caseId update).inl >>= fun r => pure (some r)
  | .createCase caseIn => (Cases.createCase upper caseIn).inl >>= fun r => pure (some r)
  | .consumed value => (consumeCase value).inr >>= fun _ => pure none

/-- The exception of a commit that a constraint refuses. -/
def integrityError : Exn := ⟨.other "IntegrityError", "a constraint is violated"⟩

/-- The exception of an `UPDATE` that finds no row. -/
def staleDataError : Exn := ⟨.other "StaleDataError", "UPDATE statement on table 'cases' expected to " ++
  "update 1 row(s); 0 were matched."⟩

/-- The columns in which `modified` differs from `loaded` are written. -/
def writeColumns (loaded modified row : Case) : Case :=
  { row with
    status := if modified.status = loaded.status then row.status else modified.status
    assignedTo :=
      if modified.assignedTo = loaded.assignedTo then row.assignedTo else modified.assignedTo }

/-- Nothing differs, and no `UPDATE` is emitted. -/
def unchanged (loaded modified : Case) : Bool :=
  modified.status = loaded.status ∧ modified.assignedTo = loaded.assignedTo

theorem caseId_writeColumns (loaded modified row : Case) :
    (writeColumns loaded modified row).caseId = row.caseId := rfl

namespace CaseDatabase

/-- No case and no note. -/
def empty : CaseDatabase := ⟨.empty, .empty, by simp⟩

/-- The notes of a case. -/
def notesOf (db : CaseDatabase) (caseId : String) : List CaseNote :=
  db.notes.rows.filter fun note => note.caseId = caseId

/-- Insert a case under an id that is not in use. -/
def insertCase (db : CaseDatabase) (row : Case) (h : db.cases.find? row.caseId = none) :
    CaseDatabase where
  cases := db.cases.insert row h
  notes := db.notes
  references := by
    intro note hnote
    obtain ⟨row', hrow', hid⟩ := db.references note hnote
    exact ⟨row', List.mem_append_left _ hrow', hid⟩

/-- Insert a note under an id that is not in use. -/
def insertNote (db : CaseDatabase) (note : CaseNote) (h : db.notes.find? note.noteId = none)
    (hcase : ∃ row ∈ db.cases.rows, row.caseId = note.caseId) : CaseDatabase where
  cases := db.cases
  notes := db.notes.insert note h
  references := by
    intro note' hnote'
    rcases List.mem_append.mp hnote' with hold | hnew
    · exact db.references note' hold
    · rw [List.mem_singleton.mp hnew]
      exact hcase

/-- Write columns of the case under an id. -/
def updateCase (db : CaseDatabase) (loaded modified : Case) : CaseDatabase where
  cases := db.cases.modify loaded.caseId (writeColumns loaded modified) (caseId_writeColumns _ _)
  notes := db.notes
  references := by
    intro note hnote
    obtain ⟨row, hrow, hid⟩ := db.references note hnote
    by_cases hkey : row.caseId = loaded.caseId
    · exact ⟨_, (Table.mem_modify (caseId_writeColumns _ _)).mpr (Or.inr ⟨row, hrow, hkey, rfl⟩), hid⟩
    · exact ⟨row, (Table.mem_modify (caseId_writeColumns _ _)).mpr (Or.inl ⟨hrow, hkey⟩), hid⟩

/-- The rows of the cases after an update. -/
theorem mem_updateCase {db : CaseDatabase} {loaded modified row : Case} :
    row ∈ (db.updateCase loaded modified).cases.rows ↔
      (row ∈ db.cases.rows ∧ row.caseId ≠ loaded.caseId) ∨
        ∃ row' ∈ db.cases.rows, row'.caseId = loaded.caseId ∧
          row = writeColumns loaded modified row' :=
  Table.mem_modify (caseId_writeColumns loaded modified)

/-- The commit of a note: its case exists, and its id is not in use. -/
def commitNote (db : CaseDatabase) (note : CaseNote) : Except Exn CaseDatabase :=
  if h : db.notes.find? note.noteId = none then
    if hcase : ∃ row ∈ db.cases.rows, row.caseId = note.caseId then
      .ok (db.insertNote note h hcase)
    else .error integrityError
  else .error integrityError

/-- The commit of a case: its id is not in use. -/
def commitCase (db : CaseDatabase) (row : Case) : Except Exn CaseDatabase :=
  if h : db.cases.find? row.caseId = none then .ok (db.insertCase row h)
  else .error integrityError

/-- The commit of an update. -/
def commitUpdate (db : CaseDatabase) (loaded modified : Case) : Except Exn CaseDatabase :=
  if unchanged loaded modified then .ok db
  else if (db.cases.find? loaded.caseId).isSome then .ok (db.updateCase loaded modified)
  else .error staleDataError

end CaseDatabase

/-- The database, how many ids of each kind have been drawn, how many queries have had many rows,
and the updates that have been committed, newest first, with the calls they are of. -/
structure CaseServer (ι : Type) where
  db : CaseDatabase
  uuids : ℕ
  casesDrawn : ℕ
  notesDrawn : ℕ
  scans : ℕ
  updates : List (ι × String)

/-- The identifiers that are drawn, and the orders in which the queries have their rows: none of
them has an `ORDER BY`. -/
structure Draws where
  uuid : ℕ → String
  case : ℕ → String
  note : ℕ → String
  caseScan : Scan Case
  noteScan : Scan CaseNote

variable {ι : Type}

/-- What a commit leaves. If it is refused, the database is as before. -/
def CaseServer.commit {R : Type} (t : CaseServer ι) (r : R) (x : Except Exn CaseDatabase) :
    Except Exn R × CaseServer ι :=
  match x with
  | .ok db => (.ok r, { t with db := db })
  | .error e => (.error e, t)

/-- An update of a case that is committed is noted. -/
def CaseServer.commitUpdate (t : CaseServer ι) (i : ι) (loaded modified : Case) :
    Except Exn Unit × CaseServer ι :=
  match t.db.commitUpdate loaded modified with
  | .ok db => (.ok (), { t with db := db, updates := (i, loaded.caseId) :: t.updates })
  | .error e => (.error e, t)

/-- An operation of a call. -/
def CaseServer.perform (draws : Draws) (i : ι) :
    (op : CallOp) → CaseServer ι → Except Exn (CallRet op) × CaseServer ι
  | .inl (.selectCases limit), t =>
      (.ok ((draws.caseScan.order t.scans t.db.cases.rows).take limit), { t with scans := t.scans + 1 })
  | .inl (.selectCase caseId), t => (.ok (t.db.cases.find? caseId), t)
  | .inl (.selectNotes caseId), t =>
      (.ok (draws.noteScan.order t.scans (t.db.notesOf caseId)), { t with scans := t.scans + 1 })
  | .inl .uuid4, t => (.ok (draws.uuid t.uuids), { t with uuids := t.uuids + 1 })
  | .inl .flush, t => (.ok (draws.case t.casesDrawn), { t with casesDrawn := t.casesDrawn + 1 })
  | .inl (.commitCase row none), t => t.commit () (t.db.commitCase row)
  | .inl (.commitCase row (some seed)), t =>
      CaseServer.commit { t with notesDrawn := t.notesDrawn + 1 } ()
        (t.db.commitCase row >>= fun db => db.commitNote (seed.row (draws.note t.notesDrawn)))
  | .inl (.commitNote new), t =>
      CaseServer.commit { t with notesDrawn := t.notesDrawn + 1 } (draws.note t.notesDrawn)
        (t.db.commitNote (new.row (draws.note t.notesDrawn)))
  | .inl (.commitUpdate loaded modified), t => t.commitUpdate i loaded modified
  | .inr (.insert new), t =>
      match new.row (draws.case t.casesDrawn) with
      | some row =>
          CaseServer.commit { t with casesDrawn := t.casesDrawn + 1 } () (t.db.commitCase row)
      | none => (.error refused, { t with casesDrawn := t.casesDrawn + 1 })

/-- Calls on the service. -/
def caseService (upper : String → String) (draws : Draws) (calls : ι → Call) :
    Setting ι (CaseServer ι) CallRet Exn (Option Response) where
  program i := (calls i).program upper
  perform := CaseServer.perform draws
  drift _ _ := False

/-! ## What stays -/

/-- A row that differs in its status and its assignment at most. -/
structure SameCase (row row' : Case) : Prop where
  caseId : row'.caseId = row.caseId
  alertId : row'.alertId = row.alertId
  transactionId : row'.transactionId = row.transactionId
  customerId : row'.customerId = row.customerId
  severity : row'.severity = row.severity

theorem SameCase.refl (row : Case) : SameCase row row := ⟨rfl, rfl, rfl, rfl, rfl⟩

theorem SameCase.trans {row row' row'' : Case} (h : SameCase row row') (h' : SameCase row' row'') :
    SameCase row row'' where
  caseId := h'.caseId.trans h.caseId
  alertId := h'.alertId.trans h.alertId
  transactionId := h'.transactionId.trans h.transactionId
  customerId := h'.customerId.trans h.customerId
  severity := h'.severity.trans h.severity

/-- The cases are still there, and so are the notes, in their order. -/
structure Keeps (db db' : CaseDatabase) : Prop where
  cases : ∀ row ∈ db.cases.rows, ∃ row' ∈ db'.cases.rows, SameCase row row'
  notes : db.notes.rows <+: db'.notes.rows

namespace Keeps

variable {db db' db'' : CaseDatabase}

theorem refl (db : CaseDatabase) : Keeps db db :=
  ⟨fun row hrow => ⟨row, hrow, .refl row⟩, List.prefix_rfl⟩

theorem trans (h : Keeps db db') (h' : Keeps db' db'') : Keeps db db'' where
  cases := by
    intro row hrow
    obtain ⟨row', hrow', hsame⟩ := h.cases row hrow
    obtain ⟨row'', hrow'', hsame'⟩ := h'.cases row' hrow'
    exact ⟨row'', hrow'', hsame.trans hsame'⟩
  notes := h.notes.trans h'.notes

theorem commitCase {row : Case} (h : db.commitCase row = .ok db') : Keeps db db' := by
  unfold CaseDatabase.commitCase at h
  split at h
  · cases h
    exact ⟨fun r hr => ⟨r, List.mem_append_left _ hr, .refl r⟩, List.prefix_rfl⟩
  · cases h

theorem commitNote {note : CaseNote} (h : db.commitNote note = .ok db') : Keeps db db' := by
  unfold CaseDatabase.commitNote at h
  split at h
  · split at h
    · cases h
      exact ⟨fun r hr => ⟨r, hr, .refl r⟩, List.prefix_append _ _⟩
    · cases h
  · cases h

theorem commitUpdate {loaded modified : Case} (h : db.commitUpdate loaded modified = .ok db') :
    Keeps db db' := by
  unfold CaseDatabase.commitUpdate at h
  split at h
  · cases h
    exact refl db
  · split at h
    · cases h
      refine ⟨?_, List.prefix_rfl⟩
      intro row hrow
      by_cases hkey : row.caseId = loaded.caseId
      · refine ⟨writeColumns loaded modified row, ?_, rfl, rfl, rfl, rfl, rfl⟩
        exact CaseDatabase.mem_updateCase.mpr (Or.inr ⟨row, hrow, hkey, rfl⟩)
      · exact ⟨row, CaseDatabase.mem_updateCase.mpr (Or.inl ⟨hrow, hkey⟩), .refl row⟩
    · cases h

end Keeps

/-- A commit keeps what its statements keep. -/
theorem keeps_commit {R : Type} {t : CaseServer ι} {r : R} {x : Except Exn CaseDatabase}
    (h : ∀ db, x = .ok db → Keeps t.db db) : Keeps t.db (t.commit r x).2.db := by
  unfold CaseServer.commit
  cases x with
  | ok db => exact h db rfl
  | error e => exact .refl _

/-- Every operation keeps the rows. -/
theorem keeps_perform (draws : Draws) (i : ι) (op : CallOp) (t : CaseServer ι) :
    Keeps t.db (CaseServer.perform draws i op t).2.db := by
  rcases op with op | op
  · cases op with
    | commitCase row seed =>
      cases seed with
      | none => exact keeps_commit fun db hdb => .commitCase hdb
      | some seed =>
        refine keeps_commit (t := { t with notesDrawn := t.notesDrawn + 1 }) ?_
        intro db hdb
        obtain ⟨db', hcase, hnote⟩ := bind_eq_ok.mp hdb
        exact (Keeps.commitCase hcase).trans (.commitNote hnote)
    | commitNote new =>
      exact keeps_commit (t := { t with notesDrawn := t.notesDrawn + 1 })
        fun db hdb => .commitNote hdb
    | commitUpdate loaded modified =>
      show Keeps t.db (t.commitUpdate i loaded modified).2.db
      unfold CaseServer.commitUpdate
      cases h : t.db.commitUpdate loaded modified with
      | ok db => exact .commitUpdate h
      | error e => exact .refl _
    | _ => exact .refl _
  · cases op with
    | insert new =>
      show Keeps t.db (CaseServer.perform draws i (.inr (.insert new)) t).2.db
      unfold CaseServer.perform
      dsimp only
      split
      · exact keeps_commit (t := { t with casesDrawn := t.casesDrawn + 1 })
          fun db hdb => .commitCase hdb
      · exact .refl _

end FraudDetection.Cases
