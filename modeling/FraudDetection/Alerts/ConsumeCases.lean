import FraudDetection.Async.Sum
import FraudDetection.Alerts.ConsumeAlerts

/-!
# One alert, one case

Both consumers insert a row under a new id for each message they get. A message that is delivered
again gets another row.

`Unique` says that the alerts of an event and the cases of an alert are unique, and that whoever is
about to insert one is the first to do so. The side condition `Once` of a run is about the starts
alone.
-/

namespace FraudDetection.Alerts

open Async Python

/-! ## The consumer of cases -/

/-- The columns that a new case is given. -/
structure NewCase where
  alertId : Json
  transactionId : Json
  customerId : Json
  severity : Json

/-- What a task awaits: the commit of a new case. -/
inductive CaseOp where
  | insert (new : NewCase)

/-- The reply to it. -/
abbrev CaseRet : CaseOp → Type
  | .insert _ => Unit

/-- The body of the loop of `consume_cases` -/
def consumeCase (value : Json) : Prog CaseRet Exn Unit :=
  if value.truthy then do
    let payload ← Prog.lift (value.get "payload" (.dict []))
    let alertId ← Prog.lift (payload.get "alert_id" .null)
    let transactionId ← Prog.lift (payload.get "transaction_id" .null)
    let customerId ← Prog.lift (payload.get "customer_id" .null)
    let severity ← Prog.lift (payload.get "severity" (.str "HIGH"))
    if !alertId.truthy || !transactionId.truthy then
      pure ()
    else
      Prog.await (CaseOp.insert ⟨alertId, transactionId, customerId, severity⟩)
  else
    pure ()

/-- A row of the table `cases`. -/
structure Case where
  caseId : String
  alertId : String
  transactionId : String
  customerId : String
  severity : String
  status : String
  assignedTo : Option String

/-- The row of a new case, if its values fit the columns. A severity of `None` is the default. -/
def NewCase.row (new : NewCase) (caseId : String) : Option Case :=
  match new.alertId, new.transactionId, new.customerId, new.severity with
  | .str alertId, .str transactionId, .str customerId, .str severity =>
      some ⟨caseId, alertId, transactionId, customerId, severity, "OPEN", none⟩
  | .str alertId, .str transactionId, .str customerId, .null =>
      some ⟨caseId, alertId, transactionId, customerId, "HIGH", "OPEN", none⟩
  | _, _, _, _ => none

theorem NewCase.alertId_of_row {new : NewCase} {caseId : String} {row : Case}
    (h : new.row caseId = some row) : new.alertId = .str row.alertId := by
  unfold NewCase.row at h
  split at h
  · rename_i halert _ _ _
    cases h
    exact halert
  · rename_i halert _ _ _
    cases h
    exact halert
  · cases h

/-! ## Both consumers -/

/-- The database and the broker of both services. `origin` is the event of which an alert was
made. -/
structure Desk (E : Type) where
  server : Server
  origin : String → Option E
  cases : List Case
  casesDrawn : ℕ

/-- A message that is delivered: an alert event, to a service that has started its producer or has
not, or a record of the topic of cases. -/
inductive Delivered (E : Type) where
  | alert (event : E) (producer : Bool)
  | case (record : Record)

variable {ι E : Type}

/-- The alert event of a delivery. -/
def Delivered.event? : Delivered E → Option E
  | alert event _ => some event
  | case _ => none

/-- The key of the record of a delivery, which is the id of its alert. -/
def Delivered.key? : Delivered E → Option String
  | alert _ _ => none
  | case record => some record.key

/-- What a delivery does, where `value` are the values of the alert events. -/
def Delivered.program (lib : PyLib) (value : E → Json) :
    Delivered E → Prog (SumRet Ret CaseRet) Exn Unit
  | alert event producer => (consumeAlert lib producer (value event)).inl
  | case record => (consumeCase record.value).inr

/-- The case that a commit would store: its values fit the columns, and its id is not in use. -/
def Desk.stores (t : Desk E) (caseIds : ℕ → String) (new : NewCase) : Option Case :=
  if t.cases.any fun row => row.caseId = caseIds t.casesDrawn then none
  else new.row (caseIds t.casesDrawn)

/-- An operation of a delivery. -/
def Desk.perform (ids caseIds : ℕ → String) (delivered : Delivered E) :
    (op : Op ⊕ CaseOp) → Desk E → Except Exn (SumRet Ret CaseRet op) × Desk E
  | .inl op, t =>
      ((t.server.perform ids op).1,
        { t with
          server := (t.server.perform ids op).2
          origin :=
            match op with
            | .insert alert =>
                match t.server.stores ids alert with
                | some _ => Function.update t.origin (ids t.server.drawn) delivered.event?
                | none => t.origin
            | _ => t.origin })
  | .inr (.insert new), t =>
      match t.stores caseIds new with
      | some row => (.ok (), { t with cases := t.cases ++ [row], casesDrawn := t.casesDrawn + 1 })
      | none => (.error refused, { t with casesDrawn := t.casesDrawn + 1 })

/-- Deliveries to both consumers. -/
def deskTasks (lib : PyLib) (value : E → Json) (ids caseIds : ℕ → String)
    (deliveries : ι → Delivered E) : Setting ι (Desk E) (SumRet Ret CaseRet) Exn Unit where
  program i := (deliveries i).program lib value
  perform i := Desk.perform ids caseIds (deliveries i)
  drift _ _ := False

/-- No alert and no case yet. -/
def emptyDesk : Pool ι (Desk E) (SumRet Ret CaseRet) Exn Unit where
  tasks _ := none
  shared := ⟨⟨fun _ => none, 0, []⟩, fun _ => none, [], 0⟩

/-- The deliveries of cases are those of records that the broker has accepted. -/
def Accepted (deliveries : ι → Delivered E) (s : Pool ι (Desk E) (SumRet Ret CaseRet) Exn Unit) :
    Happening ι (Op ⊕ CaseOp) Exn → Prop
  | .start i => ∀ record, deliveries i = .case record →
      record ∈ s.shared.server.events ∧ record.topic = "case.opened"
  | _ => True

/-- In addition no message is delivered while a delivery of it is in progress, or after one whose
insert was committed. -/
def Once (deliveries : ι → Delivered E) (s : Pool ι (Desk E) (SumRet Ret CaseRet) Exn Unit)
    (l : Happening ι (Op ⊕ CaseOp) Exn) : Prop :=
  Accepted deliveries s l ∧ ∀ i, l = .start i →
    (∀ event, (deliveries i).event? = some event →
      (∀ j, (deliveries j).event? = some event → s.tasks j = none) ∧
        ∀ alertId, s.shared.origin alertId ≠ some event) ∧
    ∀ key, (deliveries i).key? = some key →
      (∀ j, (deliveries j).key? = some key → s.tasks j = none) ∧
        ∀ row ∈ s.shared.cases, row.alertId ≠ key

/-- Every alert event has led to one alert and one case at most. -/
structure OneEach (t : Desk E) : Prop where
  alerts : ∀ event a b, t.origin a = some event → t.origin b = some event → a = b
  cases : t.cases.Pairwise fun c d => ∀ event, t.origin c.alertId = some event →
    t.origin d.alertId ≠ some event

/-! ## Phases -/

/-- Where a delivery of a case stands: before its insert, with the id of its alert, or after it. -/
inductive CasePhase where
  | fresh (alertId : String)
  | done

/-- The one operation of a delivery of a case. -/
def caseOperations : Contract CasePhase CaseRet Exn where
  guar := fun q op =>
    match q with
    | .fresh alertId => ∃ new, op = .insert new ∧ new.alertId = .str alertId
    | .done => False
  rely := fun _ _ q' => q' = .done

theorem wp_consumeCase {value : Json} {alertId : String}
    (h : alertIdOf value = .ok (.str alertId)) :
    (consumeCase value).wp caseOperations (fun _ _ => True) (.fresh alertId) := by
  unfold alertIdOf at h
  cases hpayload : value.getItem "payload" with
  | error e =>
    rw [hpayload] at h
    cases h
  | ok payload =>
    rw [hpayload] at h
    obtain ⟨fields, rfl, hfields⟩ := Json.getItem_ok hpayload
    have halert : payload.getItem "alert_id" = .ok (.str alertId) := h
    obtain ⟨items, rfl, hitems⟩ := Json.getItem_ok halert
    unfold consumeCase
    split
    · simp only [Json.get_dict, hfields, hitems, Option.getD_some, Prog.lift_ok, pure_bind]
      split
      · trivial
      · rw [Prog.wp_await]
        exact ⟨⟨_, rfl, rfl⟩, fun _ _ _ => trivial⟩
    · trivial

/-- The contract of both consumers. -/
def deskOperations : Contract (Phase ⊕ CasePhase) (SumRet Ret CaseRet) Exn :=
  operations.sum caseOperations

/-! ## First inserts -/

/-- Every task that is about to insert a row for a key is the only one, and there is no row yet. -/
structure Reserved {K : Type} (wants : ι → Option K) (taken : K → Prop) : Prop where
  free : ∀ i k, wants i = some k → ¬ taken k
  first : ∀ i j k, wants i = some k → wants j = some k → j = i

section Reserved

variable [DecidableEq ι] {K : Type} {wants : ι → Option K} {taken taken' : K → Prop} {i j : ι} {k : K}

theorem wants_of_update (h : Function.update wants i none j = some k) : j ≠ i ∧ wants j = some k := by
  rcases Pool.update_cases h with ⟨-, hnone⟩ | hkept
  · cases hnone
  · exact hkept

/-- A task inserts its row, or gives up. -/
theorem Reserved.take (h : Reserved wants taken)
    (htaken : ∀ k, taken' k → taken k ∨ wants i = some k) :
    Reserved (Function.update wants i none) taken' where
  free := by
    intro j k hj hk
    obtain ⟨hji, hj⟩ := wants_of_update hj
    rcases htaken k hk with hold | hi
    · exact h.free j k hj hold
    · exact hji (h.first i j k hi hj)
  first := by
    intro j j' k hj hj'
    exact h.first j j' k (wants_of_update hj).2 (wants_of_update hj').2

/-- A task starts. -/
theorem Reserved.want (h : Reserved wants taken) (hfree : ¬ taken k) (hfirst : ∀ j, wants j ≠ some k) :
    Reserved (Function.update wants i (some k)) taken where
  free := by
    intro j k' hj
    rcases Pool.update_cases hj with ⟨-, hk⟩ | ⟨-, hj⟩
    · rw [← Option.some.inj hk]
      exact hfree
    · exact h.free j k' hj
  first := by
    intro j j' k' hj hj'
    rcases Pool.update_cases hj with ⟨hji, hk⟩ | ⟨-, hkept⟩
    · rcases Pool.update_cases hj' with ⟨hji', -⟩ | ⟨-, hkept'⟩
      · exact hji'.trans hji.symm
      · exact absurd (hkept'.trans hk.symm) (hfirst j')
    · rcases Pool.update_cases hj' with ⟨-, hk⟩ | ⟨-, hkept'⟩
      · exact absurd (hkept.trans hk.symm) (hfirst j)
      · exact h.first j j' k' hkept hkept'

end Reserved

/-! ## The invariant -/

/-- The event that a delivery is about to insert an alert for. -/
def wantsAlert (deliveries : ι → Delivered E) (qs : ι → Option (Phase ⊕ CasePhase)) (i : ι) :
    Option E :=
  match qs i with
  | some (.inl (.fresh _)) => (deliveries i).event?
  | _ => none

/-- The alert that a delivery is about to insert a case for. -/
def wantsCase (qs : ι → Option (Phase ⊕ CasePhase)) (i : ι) : Option String :=
  match qs i with
  | some (.inr (.fresh alertId)) => some alertId
  | _ => none

/-- The alerts of an event and the cases of an alert are unique, and whoever is about to insert one
is the first to do so. -/
structure Unique (deliveries : ι → Delivered E) (qs : ι → Option (Phase ⊕ CasePhase))
    (t : Desk E) : Prop where
  alerts : ∀ event a b, t.origin a = some event → t.origin b = some event → a = b
  firstAlert : Reserved (wantsAlert deliveries qs) fun event => ∃ a, t.origin a = some event
  cases : t.cases.Pairwise fun c d => c.alertId ≠ d.alertId
  firstCase : Reserved (wantsCase qs) fun alertId => ∃ row ∈ t.cases, row.alertId = alertId
  keys : ∀ i alertId, wantsCase qs i = some alertId → (deliveries i).key? = some alertId
  records : ∀ record ∈ t.server.events, record.topic = "case.opened" →
    alertIdOf record.value = .ok (.str record.key)

/-- A delivery in this phase is not about to insert anything. -/
def Past : Option (Phase ⊕ CasePhase) → Prop
  | some (.inl (.fresh _)) => False
  | some (.inr (.fresh _)) => False
  | _ => True

section Wants

variable [DecidableEq ι] (deliveries : ι → Delivered E) (qs : ι → Option (Phase ⊕ CasePhase)) {i : ι}
  {o : Option (Phase ⊕ CasePhase)}

theorem wantsAlert_update : wantsAlert deliveries (Function.update qs i o)
    = Function.update (wantsAlert deliveries qs) i
        (wantsAlert deliveries (fun _ => o) i) := by
  funext j
  by_cases hj : j = i
  · rw [hj, Function.update_self, wantsAlert, Function.update_self, wantsAlert]
  · rw [Function.update_of_ne hj, wantsAlert, Function.update_of_ne hj, wantsAlert]

theorem wantsCase_update : wantsCase (Function.update qs i o)
    = Function.update (wantsCase qs) i (wantsCase (fun _ => o) i) := by
  funext j
  by_cases hj : j = i
  · rw [hj, Function.update_self, wantsCase, Function.update_self, wantsCase]
  · rw [Function.update_of_ne hj, wantsCase, Function.update_of_ne hj, wantsCase]

variable {deliveries qs}

theorem wantsAlert_past (ho : Past o) : wantsAlert deliveries (Function.update qs i o)
    = Function.update (wantsAlert deliveries qs) i none := by
  rw [wantsAlert_update]
  rcases o with _ | (q | q)
  · rfl
  · cases q with
    | fresh producer => exact ho.elim
    | _ => rfl
  · cases q <;> rfl

theorem wantsCase_past (ho : Past o) : wantsCase (Function.update qs i o)
    = Function.update (wantsCase qs) i none := by
  rw [wantsCase_update]
  rcases o with _ | (q | q)
  · rfl
  · cases q <;> rfl
  · cases q with
    | fresh alertId => exact ho.elim
    | done => rfl

end Wants

namespace Unique

variable {deliveries : ι → Delivered E} {qs : ι → Option (Phase ⊕ CasePhase)} {t t' : Desk E} {i : ι}
  {o : Option (Phase ⊕ CasePhase)}

theorem oneEach (h : Unique deliveries qs t) : OneEach t where
  alerts := h.alerts
  cases := by
    refine h.cases.imp ?_
    intro c d hne event hc hd
    exact hne (h.alerts event c.alertId d.alertId hc hd)

variable [DecidableEq ι]

/-- A delivery moves on. What it inserts is for what it was about to insert for. -/
theorem move (h : Unique deliveries qs t) (ho : Past o)
    (halerts : ∀ event a b, t'.origin a = some event → t'.origin b = some event → a = b)
    (halert : ∀ event a, t'.origin a = some event →
      (∃ b, t.origin b = some event) ∨ wantsAlert deliveries qs i = some event)
    (hcases : t'.cases = t.cases ∨ ∃ row, t'.cases = t.cases ++ [row] ∧
      wantsCase qs i = some row.alertId)
    (hrecords : ∀ record ∈ t'.server.events, record ∈ t.server.events ∨
      (record.topic = "case.opened" → alertIdOf record.value = .ok (.str record.key))) :
    Unique deliveries (Function.update qs i o) t' where
  alerts := halerts
  firstAlert := by
    rw [wantsAlert_past ho]
    refine h.firstAlert.take ?_
    rintro event ⟨a, ha⟩
    exact halert event a ha
  cases := by
    rcases hcases with hsame | ⟨row, hrow, hwants⟩
    · rw [hsame]
      exact h.cases
    · rw [hrow, List.pairwise_append]
      refine ⟨h.cases, List.pairwise_singleton _ _, ?_⟩
      intro c hc d hd heq
      rw [List.mem_singleton.mp hd] at heq
      -- an older row for the alert: but the delivery was to insert the first one
      exact h.firstCase.free i row.alertId hwants ⟨c, hc, heq⟩
  firstCase := by
    rw [wantsCase_past ho]
    refine h.firstCase.take ?_
    rintro alertId ⟨c, hc, rfl⟩
    rcases hcases with hsame | ⟨row, hrow, hwants⟩
    · rw [hsame] at hc
      exact Or.inl ⟨c, hc, rfl⟩
    · rw [hrow] at hc
      rcases List.mem_append.mp hc with hold | hnew
      · exact Or.inl ⟨c, hold, rfl⟩
      · rw [List.mem_singleton.mp hnew]
        exact Or.inr hwants
  keys := by
    intro j alertId hj
    rw [wantsCase_past ho] at hj
    exact h.keys j alertId (wants_of_update hj).2
  records := by
    intro record hrecord htopic
    rcases hrecords record hrecord with hold | hnew
    · exact h.records record hold htopic
    · exact hnew htopic

/-- A delivery moves on without an insert. -/
theorem stay (h : Unique deliveries qs t) (ho : Past o) (horigin : t'.origin = t.origin)
    (hcases : t'.cases = t.cases)
    (hrecords : ∀ record ∈ t'.server.events, record ∈ t.server.events ∨
      (record.topic = "case.opened" → alertIdOf record.value = .ok (.str record.key))) :
    Unique deliveries (Function.update qs i o) t' := by
  refine h.move ho ?_ ?_ (Or.inl hcases) hrecords
  · rw [horigin]
    exact h.alerts
  · intro event a ha
    rw [horigin] at ha
    exact Or.inl ⟨a, ha⟩

/-- The alert of a delivery is the first one of its event. -/
theorem putAlert {producer : Bool} {alertId : String} (h : Unique deliveries qs t)
    (hi : qs i = some (.inl (.fresh producer))) (ho : Past o)
    (horigin : t'.origin = Function.update t.origin alertId (deliveries i).event?)
    (hcases : t'.cases = t.cases) (hevents : t'.server.events = t.server.events) :
    Unique deliveries (Function.update qs i o) t' := by
  have hwants : wantsAlert deliveries qs i = (deliveries i).event? := by
    rw [wantsAlert, hi]
  have hfree : ∀ event a, (deliveries i).event? = some event → t.origin a ≠ some event := by
    intro event a hevent ha
    exact h.firstAlert.free i event (hwants.trans hevent) ⟨a, ha⟩
  refine h.move ho ?_ ?_ (Or.inl hcases) ?_
  · intro event a b ha hb
    rw [horigin] at ha hb
    rcases Pool.update_cases ha with ⟨rfl, hnew⟩ | ⟨-, hold⟩
    -- two alerts of one event: the new one would be the second
    · rcases Pool.update_cases hb with ⟨rfl, -⟩ | ⟨-, hold⟩
      · rfl
      · exact absurd hold (hfree event b hnew)
    · rcases Pool.update_cases hb with ⟨rfl, hnew⟩ | ⟨-, hold'⟩
      · exact absurd hold (hfree event a hnew)
      · exact h.alerts event a b hold hold'
  · intro event a ha
    rw [horigin] at ha
    rcases Pool.update_cases ha with ⟨-, hnew⟩ | ⟨-, hold⟩
    · exact Or.inr (hwants.trans hnew)
    · exact Or.inl ⟨a, hold⟩
  · rw [hevents]
    exact fun record hrecord => Or.inl hrecord

/-- The case of a delivery is the first one of its alert. -/
theorem putCase {row : Case} (h : Unique deliveries qs t)
    (hi : qs i = some (.inr (.fresh row.alertId))) (ho : Past o) (horigin : t'.origin = t.origin)
    (hcases : t'.cases = t.cases ++ [row]) (hevents : t'.server.events = t.server.events) :
    Unique deliveries (Function.update qs i o) t' := by
  refine h.move ho ?_ ?_ (Or.inr ⟨row, hcases, ?_⟩) ?_
  · rw [horigin]
    exact h.alerts
  · intro event a ha
    rw [horigin] at ha
    exact Or.inl ⟨a, ha⟩
  · rw [wantsCase, hi]
  · rw [hevents]
    exact fun record hrecord => Or.inl hrecord

/-- An alert event is delivered that has no alert and is not in progress. -/
theorem startAlert {producer : Bool} {event : E} (h : Unique deliveries qs t)
    (hevent : (deliveries i).event? = some event) (hfree : ∀ a, t.origin a ≠ some event)
    (hidle : ∀ j, (deliveries j).event? = some event → qs j = none) :
    Unique deliveries (Function.update qs i (some (.inl (.fresh producer)))) t where
  alerts := h.alerts
  firstAlert := by
    rw [wantsAlert_update]
    show Reserved (Function.update (wantsAlert deliveries qs) i (deliveries i).event?) _
    rw [hevent]
    refine h.firstAlert.want (fun ⟨a, ha⟩ => hfree a ha) ?_
    -- a delivery that is about to insert an alert for the event would be in progress
    intro j hj
    unfold wantsAlert at hj
    split at hj
    · rename_i hq
      rw [hidle j hj] at hq
      cases hq
    · cases hj
  cases := h.cases
  firstCase := by
    rw [wantsCase_update]
    exact h.firstCase.take fun _ => Or.inl
  keys := by
    intro j alertId hj
    rw [wantsCase_update] at hj
    exact h.keys j alertId (wants_of_update hj).2
  records := h.records

/-- A record is delivered that has no case and is not in progress. -/
theorem startCase {key : String} (h : Unique deliveries qs t)
    (hkey : (deliveries i).key? = some key) (hfree : ∀ row ∈ t.cases, row.alertId ≠ key)
    (hidle : ∀ j, (deliveries j).key? = some key → qs j = none) :
    Unique deliveries (Function.update qs i (some (.inr (.fresh key)))) t where
  alerts := h.alerts
  firstAlert := by
    rw [wantsAlert_update]
    exact h.firstAlert.take fun _ => Or.inl
  cases := h.cases
  firstCase := by
    rw [wantsCase_update]
    refine h.firstCase.want (fun ⟨row, hrow, hid⟩ => hfree row hrow hid) ?_
    intro j hj
    have hq := hidle j (h.keys j key hj)
    rw [wantsCase, hq] at hj
    cases hj
  keys := by
    intro j alertId hj
    rw [wantsCase_update] at hj
    rcases Pool.update_cases hj with ⟨hji, hk⟩ | ⟨-, hkept⟩
    · rw [hji, hkey]
      exact hk
    · exact h.keys j alertId hkept
  records := h.records

end Unique

/-! ## Runs -/

section Runs

variable [DecidableEq ι] {lib : PyLib} {value : E → Json} {ids caseIds : ℕ → String}
  {deliveries : ι → Delivered E} {qs : ι → Option (Phase ⊕ CasePhase)} {t : Desk E} {i : ι}
  {d : Delivery Exn}

omit [DecidableEq ι] in
theorem past_next (q : Phase) (ev : Event Ret Exn) : Past (some (.inl (q.next ev))) := by
  unfold Phase.next
  split <;> trivial

omit [DecidableEq ι] in
/-- Only a send adds to the accepted events. -/
theorem Server.events_perform {op : Op} (h : ∀ topic key value, op ≠ .sendAndWait topic key value)
    (t : Server) : (t.perform ids op).2.events = t.events := by
  cases op with
  | insert alert =>
    simp only [Server.perform]
    split <;> rfl
  | refresh alertId =>
    simp only [Server.perform]
    split <;> rfl
  | update alertId status =>
    simp only [Server.perform]
    split <;> rfl
  | sendAndWait topic key value => exact absurd rfl (h topic key value)

/-- An operation of the consumer of alerts, if it is carried out. -/
theorem Unique.alert_performed {q : Phase} {op : Op} {o : Option (Phase ⊕ CasePhase)}
    (h : Unique deliveries qs t) (hi : qs i = some (.inl q)) (hguar : operations.guar q op)
    (ho : Past o) : Unique deliveries (Function.update qs i o)
      (Desk.perform ids caseIds (deliveries i) (.inl op) t).2 := by
  have hkept : (∀ topic key value, op ≠ .sendAndWait topic key value) →
      (t.server.perform ids op).2.events = t.server.events :=
    fun hop => Server.events_perform hop t.server
  cases q with
  | fresh producer =>
    obtain ⟨alert, rfl⟩ := hguar
    have hevents := hkept nofun
    cases hstores : t.server.stores ids alert with
    | none =>
      refine h.stay ho ?_ rfl ?_
      · simp only [Desk.perform, hstores]
      · intro record hrecord
        exact Or.inl (hevents ▸ hrecord)
    | some row =>
      have horigin : (Desk.perform ids caseIds (deliveries i) (.inl (.insert alert)) t).2.origin
          = Function.update t.origin (ids t.server.drawn) (deliveries i).event? := by
        simp only [Desk.perform, hstores]
      exact h.putAlert hi ho horigin rfl hevents
  | inserted producer alertId score =>
    obtain rfl : op = .refresh alertId := hguar
    have hevents := hkept nofun
    refine h.stay ho rfl rfl ?_
    intro record hrecord
    exact Or.inl (hevents ▸ hrecord)
  | refreshed producer alertId score =>
    obtain ⟨rfl, -⟩ := hguar
    have hevents := hkept nofun
    refine h.stay ho rfl rfl ?_
    intro record hrecord
    exact Or.inl (hevents ▸ hrecord)
  | escalated producer alertId =>
    obtain ⟨value, rfl, hvalue⟩ := hguar
    refine h.stay ho rfl rfl ?_
    intro record hrecord
    rcases List.mem_append.mp hrecord with hold | hnew
    · exact Or.inl hold
    · right
      rw [List.mem_singleton.mp hnew]
      exact fun _ => hvalue
  | done => exact hguar.elim

/-- An operation of the consumer of cases, if it is carried out. -/
theorem Unique.case_performed {q : CasePhase} {op : CaseOp} {o : Option (Phase ⊕ CasePhase)}
    (h : Unique deliveries qs t) (hi : qs i = some (.inr q)) (hguar : caseOperations.guar q op)
    (ho : Past o) : Unique deliveries (Function.update qs i o)
      (Desk.perform ids caseIds (deliveries i) (.inr op) t).2 := by
  cases q with
  | done => exact hguar.elim
  | fresh alertId =>
    obtain ⟨new, rfl, halert⟩ := hguar
    cases hstores : t.stores caseIds new with
    | none =>
      simp only [Desk.perform, hstores]
      exact h.stay ho rfl rfl fun _ hrecord => Or.inl hrecord
    | some row =>
      have hrow : new.alertId = .str row.alertId := by
        unfold Desk.stores at hstores
        split at hstores
        · cases hstores
        · exact NewCase.alertId_of_row hstores
      obtain rfl : alertId = row.alertId := by
        rw [halert] at hrow
        exact Json.str.inj hrow
      simp only [Desk.perform, hstores]
      exact h.putCase hi ho rfl rfl rfl

/-- Any operation, however it fares. -/
theorem Unique.command {q : Phase ⊕ CasePhase} {op : Op ⊕ CaseOp} (h : Unique deliveries qs t)
    (hi : qs i = some q) (hguar : deskOperations.guar q op) :
    let x := d.outcome (Desk.perform ids caseIds (deliveries i) op t) t
    ∃ q', deskOperations.rely q ⟨op, x.1⟩ q' ∧
      Unique deliveries (Function.update qs i (some q')) x.2 := by
  intro x
  have hlost : ∀ {o}, Past o → Unique deliveries (Function.update qs i o) t :=
    fun ho => h.stay ho rfl rfl fun _ hrecord => Or.inl hrecord
  have hstate : ∀ {o}, Past o →
      Unique deliveries (Function.update qs i o)
        (Desk.perform ids caseIds (deliveries i) op t).2 →
      Unique deliveries (Function.update qs i o) x.2 :=
    fun ho hperformed => d.outcome_state hperformed (hlost ho)
  rcases q with q | q
  · rcases op with op | op
    · have hpast := past_next q ⟨op, x.1⟩
      exact ⟨_, ⟨_, rfl, rfl⟩, hstate hpast (h.alert_performed hi hguar hpast)⟩
    · exact hguar.elim
  · rcases op with op | op
    · exact hguar.elim
    · exact ⟨.inr .done, ⟨_, rfl, rfl⟩, hstate trivial (h.case_performed hi hguar trivial)⟩

/-- A delivery starts. -/
theorem Unique.start {s : Pool ι (Desk E) (SumRet Ret CaseRet) Exn Unit}
    (h : Unique deliveries qs s.shared)
    (hmeets : Pool.Meets deskOperations (fun _ _ => True) s.tasks qs)
    (hok : Once deliveries s (.start i)) :
    ∃ q, ((deliveries i).program lib value).wp deskOperations (fun _ _ => True) q ∧
      Unique deliveries (Function.update qs i (some q)) s.shared := by
  obtain ⟨haccepted, honce⟩ := hok
  obtain ⟨halert, hcase⟩ := honce i rfl
  cases hdelivered : deliveries i with
  | alert event producer =>
    have hevent : (deliveries i).event? = some event := by
      rw [hdelivered]
      rfl
    obtain ⟨hidle, hfree⟩ := halert event hevent
    refine ⟨.inl (.fresh producer), ?_, ?_⟩
    · exact Prog.wp_mono (Prog.wp_inl_sum (wp_consumeAlert lib producer (value event)))
        fun _ _ _ => trivial
    · exact h.startAlert hevent hfree fun j hj => hmeets.none (hidle j hj)
  | case record =>
    have hkey : (deliveries i).key? = some record.key := by
      rw [hdelivered]
      rfl
    obtain ⟨hidle, hfree⟩ := hcase record.key hkey
    obtain ⟨hrecord, htopic⟩ := haccepted record hdelivered
    refine ⟨.inr (.fresh record.key), ?_, ?_⟩
    · exact Prog.wp_mono (Prog.wp_inr_sum (wp_consumeCase (h.records record hrecord htopic)))
        fun _ _ _ => trivial
    · exact h.startCase hkey hfree fun j hj => hmeets.none (hidle j hj)

end Runs

/-- In every run of both consumers in which no message is delivered while a delivery of it is in
progress or after one whose insert was committed, every alert event has led to one alert and one
case at most. -/
theorem one_alert_one_case [DecidableEq ι] (lib : PyLib) (value : E → Json) (ids caseIds : ℕ → String)
    (deliveries : ι → Delivered E) (s : Pool ι (Desk E) (SumRet Ret CaseRet) Exn Unit)
    (hrun : Pool.Run (deskTasks lib value ids caseIds deliveries) (Once deliveries) emptyDesk s) :
    OneEach s.shared := by
  have hempty : Unique deliveries (fun _ => none) (emptyDesk (ι := ι) (E := E)).shared :=
    ⟨nofun, ⟨nofun, nofun⟩, .nil, ⟨nofun, nofun⟩, nofun, nofun⟩
  have hleave : ∀ {qs : ι → Option (Phase ⊕ CasePhase)} {t : Desk E} {i},
      Unique deliveries qs t → Unique deliveries (Function.update qs i none) t :=
    fun h => h.stay trivial rfl rfl fun _ hrecord => Or.inl hrecord
  have hinvariant : ∃ qs, Pool.Meets deskOperations (fun _ _ => True) s.tasks qs ∧
      Unique deliveries qs s.shared := by
    refine Pool.invariant_of_meets (Unique deliveries) ?_ ?_ ?_ ?_ ?_ (fun _ => Or.inl ⟨rfl, rfl⟩)
      hempty hrun
    · intro qs s i hmeets h _ hok
      exact h.start hmeets hok
    · intro qs s i q op d _ h hi hguar _
      exact h.command hi hguar
    · intro qs t i q r h _ _
      exact hleave h
    · intro qs s i p q h _ _ _ _
      exact hleave h
    · intro qs t t' _ hdrift
      exact hdrift.elim
  obtain ⟨qs, -, h⟩ := hinvariant
  exact h.oneEach

/-! ### One event, once and twice -/

/-- The record that the alert of the event leads to. -/
def openedCase : Record :=
  ⟨"case.opened", "alt_1", casePayload "alt_1" (.str "t-1") (.str "c-1")⟩

/-- The event is delivered, and the record. -/
def eventThenRecord : Bool → Delivered Unit
  | false => .alert () true
  | true => .case openedCase

/-- These deliveries. -/
def onceTasks : Setting Bool (Desk Unit) (SumRet Ret CaseRet) Exn Unit :=
  deskTasks CompactJson.compactJson (fun _ => (highScore ()).value) (fun _ => "alt_1")
    (fun _ => "cas_1") eventThenRecord

/-- What the delivery of the event leaves. -/
def afterAlert : Desk Unit :=
  Pool.script (onceTasks.perform false) (onceTasks.program false) (List.replicate 4 .answered)
    (emptyDesk (ι := Bool)).shared

/-- And then that of the record. -/
def afterCase : Desk Unit :=
  Pool.script (onceTasks.perform true) (onceTasks.program true) [.answered] afterAlert

theorem program_event : onceTasks.program false = (highScoreTasks.program ()).inl := rfl

theorem afterAlert_eq : openedCase ∈ afterAlert.server.events ∧ afterAlert.cases = [] := by
  unfold afterAlert
  rw [program_event, program_highScore]
  exact ⟨.head _, rfl⟩

theorem run_once : Pool.Run onceTasks (Once eventThenRecord) emptyDesk ⟨fun _ => none, afterCase⟩ := by
  have hstarted : ∀ (s : Pool Bool (Desk Unit) (SumRet Ret CaseRet) Exn Unit) l,
      (∀ i, l ≠ .start i) → Once eventThenRecord s l := by
    intro s l hl
    refine ⟨?_, fun i hi => absurd hi (hl i)⟩
    cases l with
    | start i => exact absurd rfl (hl i)
    | _ => trivial
  have hevent : Pool.Run onceTasks (Once eventThenRecord) emptyDesk ⟨fun _ => none, afterAlert⟩ := by
    refine Pool.run_task rfl ⟨nofun, ?_⟩ (Pool.fares_of_started hstarted _ _ _ _)
    rintro i ⟨⟩
    exact ⟨fun _ _ => ⟨fun _ _ => rfl, nofun⟩, nofun⟩
  refine hevent.trans (Pool.run_task rfl ⟨?_, ?_⟩ (Pool.fares_of_started hstarted _ _ _ _))
  · rintro record ⟨⟩
    exact ⟨afterAlert_eq.1, rfl⟩
  · rintro i ⟨⟩
    refine ⟨nofun, ?_⟩
    intro key _
    refine ⟨fun _ _ => rfl, ?_⟩
    rw [afterAlert_eq.2]
    exact fun _ hrow => absurd hrow List.not_mem_nil

/-- An event that is delivered once has one case. -/
theorem one_alert_one_case_once : afterCase.cases.length = 1 ∧ OneEach afterCase :=
  ⟨by decide +kernel, one_alert_one_case CompactJson.compactJson (fun _ => (highScore ()).value)
    (fun _ => "alt_1") (fun _ => "cas_1") eventThenRecord _ run_once⟩

/-- The event is delivered twice. -/
def twiceTasks : Setting Bool (Desk Unit) (SumRet Ret CaseRet) Exn Unit :=
  deskTasks CompactJson.compactJson (fun _ => (highScore ()).value)
    (fun n => if n = 0 then "alt_1" else "alt_2") (fun _ => "cas_1") fun _ => .alert () true

/-- What a delivery of the event leaves. -/
def delivered (i : Bool) (t : Desk Unit) : Desk Unit :=
  Pool.script (twiceTasks.perform i) (twiceTasks.program i) (List.replicate 4 .answered) t

/-- An event that is delivered twice has two alerts. -/
theorem two_alerts : ¬ ∀ s, Pool.Run twiceTasks (Accepted fun _ => .alert () true) emptyDesk s →
    OneEach s.shared := by
  intro hclaim
  have hdelivered : ∀ i t, Pool.Run twiceTasks (Accepted fun _ => .alert () true)
      ⟨fun _ => none, t⟩ ⟨fun _ => none, delivered i t⟩ := by
    intro i t
    refine Pool.run_task rfl nofun (Pool.fares_of_started ?_ _ _ _ _)
    intro s l hl
    cases l with
    | start i => exact absurd rfl (hl i)
    | _ => trivial
  have hone := hclaim _ ((hdelivered false _).trans (hdelivered true _))
  have hprogram : ∀ i, twiceTasks.program i = (highScoreTasks.program ()).inl := fun _ => rfl
  have hsame : "alt_1" = "alt_2" := by
    apply hone.alerts () "alt_1" "alt_2"
    · unfold delivered
      rw [hprogram, hprogram, program_highScore]
      rfl
    · unfold delivered
      rw [hprogram, hprogram, program_highScore]
      rfl
  exact absurd hsame (by decide)

end FraudDetection.Alerts
