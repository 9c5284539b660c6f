import Mathlib.Data.Finset.Card
import FraudDetection.Async.Pool
import FraudDetection.Async.Sum
import FraudDetection.Orchestrator.Consume

/-!
# The dashboard of the gateway

`/metrics` reads four keys one after the other, while orchestrators count under them. An
orchestrator counts a transaction first under `total_tx`, then under `blocked_tx`, and then under
`fraud_tx`; the handler reads `total_tx`, `fraud_tx` and `blocked_tx` in this order.

So an update races with a request that reads `fraud_tx` before the update counts there and
`blocked_tx` after it has counted there, or `total_tx` before and `fraud_tx` after. And an update
that breaks off between `blocked_tx` and `fraud_tx` leaves its transaction in one of them.
`Balanced` is what the runs without either keep: the updates in progress make up for the differences
between the counters.
-/

namespace FraudDetection.Gateway

open Async Python Orchestrator

/-! ## The handler -/

/-- The reads of the handler: `GET` of a counter, as `int` reads it, and of a sum, as `float`
does. -/
inductive Read where
  | get (key : String)
  | getFloat (key : String)

/-- The number under a key, if it exists. -/
abbrev Read.Ret : Read → Type
  | .get _ => Option ℤ
  | .getFloat _ => Option ℚ

/-- The response of `/metrics`. -/
structure Metrics where
  error : Option String
  totalTransactions : ℤ
  fraudTransactions : ℤ
  blockedTransactions : ℤ
  totalVolume : ℚ

/-- `get_metrics` -/
def getMetrics : Prog Read.Ret Exn Metrics :=
  Prog.tryExcept
    (do
      let totalTx ← Prog.await (Read.get "metrics:total_tx")
      let fraudTx ← Prog.await (Read.get "metrics:fraud_tx")
      let blockedTx ← Prog.await (Read.get "metrics:blocked_tx")
      let totalVolume ← Prog.await (Read.getFloat "metrics:total_volume")
      return {
        error := none
        totalTransactions := totalTx.getD 0
        fraudTransactions := fraudTx.getD 0
        blockedTransactions := blockedTx.getD 0
        totalVolume := totalVolume.getD 0 })
    Exn.isException fun e => pure ⟨some e.text, 0, 0, 0, 0⟩

/-- The blocked transactions are some of the fraudulent ones, and these some of all. -/
def Metrics.Ordered (m : Metrics) : Prop :=
  m.blockedTransactions ≤ m.fraudTransactions ∧ m.fraudTransactions ≤ m.totalTransactions

/-! ## Updates and requests side by side -/

/-- A task: the counter updates for one transaction, or a request of the dashboard. -/
inductive Task where
  | update (payload : Json) (decision : FraudDecision)
  | metrics

/-- The commands of both kinds of tasks. -/
abbrev Command := Op ⊕ Read

/-- The replies to them. -/
abbrev CommandRet : Command → Type := SumRet Ret Read.Ret

/-- What a task does. Only a request has a response. -/
def Task.program (lib : NumberLib) : Task → Prog CommandRet Exn (Option Metrics)
  | .update payload decision => (updateKpis lib payload decision).inl >>= fun _ => pure none
  | .metrics => getMetrics.inr >>= fun m => pure (some m)

/-- The keys in Redis, and for each request the updates that have counted their transaction in the
total since it read that. -/
structure KpiServer (ι : Type) where
  counters : String → Option ℤ
  sums : String → Option ℚ
  since : ι → Finset ι

/-- The number of transactions under a key. -/
def KpiServer.count {ι : Type} (t : KpiServer ι) (key : String) : ℤ := (t.counters key).getD 0

variable {ι : Type} [DecidableEq ι]

/-- `INCR` -/
def KpiServer.incr (t : KpiServer ι) (i : ι) (key : String) : KpiServer ι :=
  { t with
    counters := Function.update t.counters key (some (t.count key + 1))
    since := if key = "metrics:total_tx" then fun j => insert i (t.since j) else t.since }

/-- `INCRBYFLOAT` -/
def KpiServer.incrbyfloat {ι : Type} (lib : NumberLib) (t : KpiServer ι) (key : String) (amount : ℚ) :
    KpiServer ι :=
  { t with sums := Function.update t.sums key (some (lib.incrSum ((t.sums key).getD 0) amount)) }

/-- A request sees a counter. -/
def KpiServer.see (t : KpiServer ι) (i : ι) (key : String) : KpiServer ι :=
  { t with since := if key = "metrics:total_tx" then Function.update t.since i ∅ else t.since }

/-- A command on Redis. The tasks wait for no message, call no engine and publish nothing. -/
def KpiServer.perform (lib : NumberLib) (i : ι) :
    (op : Command) → KpiServer ι → Except Exn (CommandRet op) × KpiServer ι
  | .inl (.incr key), t => (.ok (), t.incr i key)
  | .inl (.incrbyfloat key amount), t => (.ok (), t.incrbyfloat lib key amount)
  | .inr (.get key), t => (.ok (t.counters key), t.see i key)
  | .inr (.getFloat key), t => (.ok ((t.sums key).map lib.floatReply), t)
  | .inl .getone, t => (.ok (), t)
  | .inl (.rpc _), t => (.ok (0 : Floats.Double), t)
  | .inl (.sendAndWait _), t => (.ok (), t)

/-- Any tasks, on one Redis. -/
def dashboardTasks (lib : NumberLib) (tasks : ι → Task) :
    Setting ι (KpiServer ι) CommandRet Exn (Option Metrics) where
  program i := (tasks i).program lib
  perform := KpiServer.perform lib
  drift _ _ := False

/-- No task in progress, and nothing counted. -/
def emptyDashboard : Pool ι (KpiServer ι) CommandRet Exn (Option Metrics) where
  tasks _ := none
  shared := ⟨fun _ => none, fun _ => none, fun _ => ∅⟩

section Conditions

variable (tasks : ι → Task) (s : Pool ι (KpiServer ι) CommandRet Exn (Option Metrics))

/-- A request has this counter to read next. -/
def Awaits (j : ι) (key : String) : Prop := ∃ k, s.tasks j = some (.call (.inr (.get key)) k)

/-- An update has counted its transaction as blocked and has it to count as fraud next. -/
def Halfway (i : ι) : Prop :=
  (∃ payload, tasks i = .update payload .block) ∧
    ∃ k, s.tasks i = some (.call (.inl (.incr "metrics:fraud_tx")) k)

/-- The schedules without a race. No transaction is counted both in the total and as fraud while a
request is between its reads of the two; none is counted as blocked while a request is between its
reads of fraud and blocked; and no request reads fraud while an update is halfway. -/
def Raceless : Happening ι Command Exn → Prop
  | .command i (.inl (.incr key)) d => (∀ e, d ≠ .lost e) →
      (key = "metrics:fraud_tx" → ∀ j, Awaits s j "metrics:fraud_tx" → i ∉ s.shared.since j) ∧
      (key = "metrics:blocked_tx" → ∀ j, ¬ Awaits s j "metrics:blocked_tx")
  | .command _ (.inr (.get key)) d => d = .answered → key = "metrics:fraud_tx" →
      ∀ i, ¬ Halfway tasks s i
  | _ => True

/-- The failures that leave no update halfway: its `INCR` of `blocked_tx` does not take effect
without an answer, that of `fraud_tx` is not lost after it, and it does not die between the two. -/
def Unbroken : Happening ι Command Exn → Prop
  | .command i (.inl (.incr key)) d =>
      (key = "metrics:blocked_tx" → ∀ e, d ≠ .unanswered e) ∧
      (Halfway tasks s i → ∀ e, d ≠ .lost e)
  | .die i => ¬ Halfway tasks s i
  | _ => True

/-- The events after which a response is ordered. -/
def Orderly (event : Happening ι Command Exn) : Prop :=
  Raceless tasks s event ∧ Unbroken tasks s event

end Conditions

/-! ## Phases -/

/-- Where a task stands. An update with a decision is before its first command, has counted its
transaction in the total, or also as blocked and not as fraud yet; a request has read nothing, the
total, the fraudulent ones too, or all three. -/
inductive Phase where
  | fresh (decision : FraudDecision)
  | counted (decision : FraudDecision)
  | halfway
  | start
  | total (n : ℤ)
  | fraud (n f : ℤ)
  | blocked (n f b : ℤ)
  | done

/-- The phase after a command. -/
def Phase.next (q : Phase) (ev : Event CommandRet Exn) : Phase :=
  match q, ev with
  | .fresh decision, ⟨.inl (.incr _), .ok _⟩ => .counted decision
  | .counted _, ⟨.inl (.incr key), .ok _⟩ => if key = "metrics:blocked_tx" then .halfway else .done
  | .counted decision, ⟨.inl (.incrbyfloat _ _), .ok _⟩ => .counted decision
  | .start, ⟨.inr (.get _), .ok v⟩ => .total (v.getD 0)
  | .total n, ⟨.inr (.get _), .ok v⟩ => .fraud n (v.getD 0)
  | .fraud n f, ⟨.inr (.get _), .ok v⟩ => .blocked n f (v.getD 0)
  | .blocked n f b, ⟨.inr (.getFloat _), .ok _⟩ => .blocked n f b
  | _, _ => .done

/-- What a request has read is ordered. -/
def Phase.Ordered : Phase → Prop
  | .fraud n f => f ≤ n
  | .blocked n f b => b ≤ f ∧ f ≤ n
  | _ => True

/-- The commands of a task in their order. -/
def commands : Contract Phase CommandRet Exn where
  guar := fun q op =>
    match q with
    | .fresh _ => op = .inl (.incr "metrics:total_tx")
    | .counted decision => (decision = .block ∧ op = .inl (.incr "metrics:blocked_tx")) ∨
        (decision = .review ∧ op = .inl (.incr "metrics:fraud_tx")) ∨
        ∃ key amount, op = .inl (.incrbyfloat key amount)
    | .halfway => op = .inl (.incr "metrics:fraud_tx")
    | .start => op = .inr (.get "metrics:total_tx")
    | .total _ => op = .inr (.get "metrics:fraud_tx")
    | .fraud _ _ => op = .inr (.get "metrics:blocked_tx")
    | .blocked _ _ _ => ∃ key, op = .inr (.getFloat key)
    | .done => False
  rely := fun q ev q' => q' = q.next ev ∧ q'.Ordered

/-- No command is left to do after another one. -/
def Phase.Resting : Phase → Prop
  | .halfway => False
  | .total _ => False
  | .fraud _ _ => False
  | _ => True

/-- How a task ends: not between two commands that belong together, and with a response that is
ordered. -/
def Ends (r : Except Exn (Option Metrics)) (q : Phase) : Prop :=
  q.Resting ∧ ∀ m, r = .ok (some m) → m.Ordered

/-- The phase in which a task starts. -/
def Task.phase : Task → Phase
  | .update _ decision => .fresh decision
  | .metrics => .start

/-- The phases of a task: only an update for a blocked transaction is halfway. -/
def Phase.Of (task : Task) : Phase → Prop
  | .fresh decision => ∃ payload, task = .update payload decision
  | .counted decision => ∃ payload, task = .update payload decision
  | .halfway => ∃ payload, task = .update payload .block
  | _ => True

section Programs

/-- An update stands before its next command, or is done. -/
theorem wp_updateKpis (lib : NumberLib) (payload : Json) (decision : FraudDecision) :
    (updateKpis lib payload decision).wp commands.left
      (fun _ q => q = .counted decision ∨ q = .done) (.fresh decision) := by
  unfold updateKpis
  rw [Prog.wp_tryExcept]
  refine Prog.wp_mono (P := fun _ q => q = .counted decision ∨ q = .done) ?_ ?_
  · refine Prog.wp_await_seq rfl ?_ ?_
    · rintro e q ⟨rfl, -⟩
      exact Or.inr rfl
    · rintro u q ⟨rfl, -⟩
      refine Prog.wp_seq (P := fun _ q => q = .counted decision) ?_ ?_ ?_
      · rw [Prog.wp_lift]
        rfl
      · rintro e q rfl
        exact Or.inl rfl
      · rintro amount q rfl
        refine Prog.wp_await_seq (Or.inr (Or.inr ⟨_, _, rfl⟩)) ?_ ?_
        · rintro e q ⟨rfl, -⟩
          exact Or.inr rfl
        · rintro u q ⟨rfl, -⟩
          -- `blocked_tx` and then `fraud_tx`: between the two the update is halfway
          cases decision with
          | block =>
            refine Prog.wp_await_seq (Or.inl ⟨rfl, rfl⟩) ?_ ?_
            · rintro e q ⟨rfl, -⟩
              exact Or.inr rfl
            · rintro u q ⟨rfl, -⟩
              show (Prog.await (Op.incr "metrics:fraud_tx") : Coroutine Unit).wp commands.left _ _
              rw [Prog.wp_await]
              refine ⟨rfl, ?_⟩
              rintro (e | u) q ⟨rfl, -⟩
              · exact Or.inr rfl
              · exact Or.inr rfl
          | review =>
            show (Prog.await (Op.incr "metrics:fraud_tx") : Coroutine Unit).wp commands.left _ _
            rw [Prog.wp_await]
            refine ⟨Or.inr (Or.inl ⟨rfl, rfl⟩), ?_⟩
            rintro (e | u) q ⟨rfl, -⟩
            · exact Or.inr rfl
            · exact Or.inr rfl
          | approve => exact Or.inl rfl
          | decline => exact Or.inl rfl
  · rintro (e | u) q h
    · dsimp only
      split
      · exact h
      · exact h
    · exact h

/-- A request that returns has an ordered response. -/
theorem wp_getMetrics : getMetrics.wp commands.right
    (fun r q => q.Resting ∧ ∀ m : Metrics, r = .ok m → m.Ordered) .start := by
  have hfailed : ∀ e : Exn, Phase.Resting .done ∧
      ∀ m : Metrics, (Except.error e : Except Exn Metrics) = .ok m → m.Ordered := by
    intro e
    refine ⟨trivial, ?_⟩
    intro m hm
    cases hm
  unfold getMetrics
  rw [Prog.wp_tryExcept]
  refine Prog.wp_mono (P := fun r q => q.Resting ∧ ∀ m : Metrics, r = .ok m → m.Ordered) ?_ ?_
  · refine Prog.wp_await_seq rfl ?_ ?_
    · rintro e q ⟨rfl, -⟩
      exact hfailed e
    · rintro total q ⟨rfl, -⟩
      refine Prog.wp_await_seq rfl ?_ ?_
      · rintro e q ⟨rfl, -⟩
        exact hfailed e
      · rintro fraud q ⟨rfl, -⟩
        refine Prog.wp_await_seq rfl ?_ ?_
        · rintro e q ⟨rfl, -⟩
          exact hfailed e
        · rintro blocked q ⟨rfl, hordered⟩
          refine Prog.wp_await_seq ⟨_, rfl⟩ ?_ ?_
          · rintro e q ⟨rfl, -⟩
            exact hfailed e
          · rintro volume q ⟨rfl, -⟩
            refine ⟨trivial, ?_⟩
            intro m hm
            cases hm
            exact hordered
  · rintro (e | m) q ⟨hresting, hm⟩
    · dsimp only
      split
      -- the `except` clause answers with zeros
      · refine ⟨hresting, ?_⟩
        intro m hm
        cases hm
        exact ⟨le_rfl, le_rfl⟩
      · exact ⟨hresting, hm⟩
    · exact ⟨hresting, hm⟩

/-- Every task ends well. -/
theorem wp_task (lib : NumberLib) (task : Task) :
    (task.program lib).wp commands Ends task.phase := by
  cases task with
  | update payload decision =>
    have hnone : ∀ {r : Except Exn (Option Metrics)} {q : Phase},
        q = .counted decision ∨ q = .done → (∀ m, r ≠ .ok (some m)) → Ends r q := by
      rintro r q (rfl | rfl) hr
      · exact ⟨trivial, fun m hm => absurd hm (hr m)⟩
      · exact ⟨trivial, fun m hm => absurd hm (hr m)⟩
    refine Prog.wp_seq (P := fun _ q => q = .counted decision ∨ q = .done)
      (Prog.wp_inl.mpr (wp_updateKpis lib payload decision)) ?_ ?_
    · intro e q h
      exact hnone h nofun
    · intro u q h
      exact hnone h nofun
  | metrics =>
    refine Prog.wp_seq (Prog.wp_inr.mpr wp_getMetrics) ?_ ?_
    · rintro e q ⟨hresting, -⟩
      exact ⟨hresting, nofun⟩
    · rintro m q ⟨hresting, hm⟩
      refine ⟨hresting, ?_⟩
      rintro m' ⟨⟩
      exact hm m rfl

end Programs

/-! ## The ledger -/

/-- The three counters, and what has been counted since each request read the total. -/
structure Ledger (ι : Type) where
  total : ℤ
  fraud : ℤ
  blocked : ℤ
  since : ι → Finset ι

namespace KpiServer

variable {t : KpiServer ι} {i : ι}

/-- The ledger of a server. -/
def ledger {ι : Type} (t : KpiServer ι) : Ledger ι :=
  ⟨t.count "metrics:total_tx", t.count "metrics:fraud_tx", t.count "metrics:blocked_tx", t.since⟩

theorem count_incr (key key' : String) :
    (t.incr i key).count key' = if key' = key then t.count key + 1 else t.count key' := by
  unfold incr count
  dsimp only
  rw [Function.update_apply]
  split
  · rfl
  · rfl

theorem ledger_incr_total : (t.incr i "metrics:total_tx").ledger
    = { t.ledger with
        total := t.ledger.total + 1
        since := fun j => insert i (t.ledger.since j) } := by
  unfold ledger
  rw [count_incr, count_incr, count_incr, if_pos rfl, if_neg (by decide), if_neg (by decide)]
  rfl

theorem ledger_incr_fraud : (t.incr i "metrics:fraud_tx").ledger
    = { t.ledger with fraud := t.ledger.fraud + 1 } := by
  unfold ledger
  rw [count_incr, count_incr, count_incr, if_neg (by decide), if_pos rfl, if_neg (by decide)]
  rfl

theorem ledger_incr_blocked : (t.incr i "metrics:blocked_tx").ledger
    = { t.ledger with blocked := t.ledger.blocked + 1 } := by
  unfold ledger
  rw [count_incr, count_incr, count_incr, if_neg (by decide), if_neg (by decide), if_pos rfl]
  rfl

theorem ledger_see_total : (t.see i "metrics:total_tx").ledger
    = { t.ledger with since := Function.update t.ledger.since i ∅ } := by
  unfold see
  rw [if_pos rfl]
  rfl

theorem ledger_see {key : String} (h : key ≠ "metrics:total_tx") : (t.see i key).ledger = t.ledger := by
  unfold see
  rw [if_neg h]

end KpiServer

/-- An update that has counted its transaction in the total and can still count it as fraud. -/
def Phase.Pending : Phase → Prop
  | .counted _ => True
  | .halfway => True
  | _ => False

section Ledger

variable {tasks : ι → Task} {qs qs' : ι → Option Phase} {l l' : Ledger ι} {i j : ι} {q : Phase}
  {o : Option Phase} {fraud fraud' blocked n : ℤ} {late late' : Finset ι}

/-- A number leaves room for the transactions counted as fraud and those of the pending updates,
except for some late ones. -/
def Room (qs : ι → Option Phase) (fraud : ℤ) (late : Finset ι) (n : ℤ) : Prop :=
  ∃ S : Finset ι, (∀ i q, qs i = some q → q.Pending → i ∈ late ∨ i ∈ S) ∧ fraud + S.card ≤ n

namespace Room

omit [DecidableEq ι] in
theorem fraud_le (h : Room qs fraud late n) : fraud ≤ n := by
  obtain ⟨S, -, hcard⟩ := h
  omega

/-- A task that is pending has been so before, or is a late one. -/
theorem update (h : Room qs fraud late n) (hlate : late ⊆ late')
    (ho : ∀ q, o = some q → q.Pending → i ∈ late' ∨ ∃ q', qs i = some q' ∧ q'.Pending) :
    Room (Function.update qs i o) fraud late' n := by
  obtain ⟨S, hmem, hcard⟩ := h
  refine ⟨S, ?_, hcard⟩
  intro j q hj hq
  rcases Pool.update_cases hj with ⟨rfl, hchanged⟩ | ⟨-, hj⟩
  · rcases ho q hchanged hq with hj | ⟨q', hj, hq'⟩
    · exact Or.inl hj
    · exact (hmem j q' hj hq').imp_left fun h => hlate h
  · exact (hmem j q hj hq).imp_left fun h => hlate h

/-- A pending update takes its place among the transactions counted as fraud. -/
theorem pay (h : Room qs fraud late n) (hi : qs i = some q) (hq : q.Pending) (hlate : i ∉ late)
    (ho : ∀ q, o = some q → ¬ q.Pending) : Room (Function.update qs i o) (fraud + 1) late n := by
  obtain ⟨S, hmem, hcard⟩ := h
  -- the place of `i` is taken by the transaction it has counted
  refine ⟨S.erase i, ?_, ?_⟩
  · intro j q' hj hq'
    rcases Pool.update_cases hj with ⟨-, hchanged⟩ | ⟨hne, hj⟩
    · exact absurd hq' (ho q' hchanged)
    · exact (hmem j q' hj hq').imp_right fun h => Finset.mem_erase.mpr ⟨hne, h⟩
  · have hplace := Finset.card_erase_add_one ((hmem i q hi hq).resolve_left hlate)
    omega

/-- A number that grows by one has room for one more update. -/
theorem more (h : Room qs fraud late n) : Room (Function.update qs i o) fraud late (n + 1) := by
  obtain ⟨S, hmem, hcard⟩ := h
  refine ⟨insert i S, ?_, ?_⟩
  · intro j q hj hq
    rcases Pool.update_cases hj with ⟨rfl, -⟩ | ⟨-, hj⟩
    · exact Or.inr (Finset.mem_insert_self j S)
    · exact (hmem j q hj hq).imp_right fun h => Finset.mem_insert_of_mem h
  · have hinsert := Finset.card_insert_le i S
    omega

end Room

/-- The updates that are halfway make up for what is counted as blocked and not as fraud. -/
def Owed (qs : ι → Option Phase) (fraud blocked : ℤ) : Prop :=
  ∃ S : Finset ι, (∀ i ∈ S, qs i = some .halfway) ∧ blocked ≤ fraud + S.card

namespace Owed

omit [DecidableEq ι] in
theorem settled (h : Owed qs fraud blocked) (hnone : ∀ i, qs i ≠ some .halfway) : blocked ≤ fraud := by
  obtain ⟨S, hmem, hcard⟩ := h
  have hempty : S = ∅ := Finset.eq_empty_of_forall_notMem fun i hi => hnone i (hmem i hi)
  rw [hempty, Finset.card_empty] at hcard
  omega

/-- A task that is not halfway changes its phase. -/
theorem update (h : Owed qs fraud blocked) (hi : qs i ≠ some .halfway) :
    Owed (Function.update qs i o) fraud blocked := by
  obtain ⟨S, hmem, hcard⟩ := h
  refine ⟨S, ?_, hcard⟩
  intro j hj
  exact Pool.update_kept hi (hmem j hj)

/-- An update gets halfway. -/
theorem owe (h : Owed qs fraud blocked) (hi : qs i ≠ some .halfway) :
    Owed (Function.update qs i (some .halfway)) fraud (blocked + 1) := by
  obtain ⟨S, hmem, hcard⟩ := h
  have hnew : i ∉ S := fun h => hi (hmem i h)
  refine ⟨insert i S, ?_, ?_⟩
  · intro j hj
    rcases Finset.mem_insert.mp hj with rfl | hj
    · exact Function.update_self ..
    · exact Pool.update_kept hi (hmem j hj)
  · rw [Finset.card_insert_of_notMem hnew]
    push_cast
    omega

/-- An update counts its transaction as fraud, halfway or not. -/
theorem pay (h : Owed qs fraud blocked) : Owed (Function.update qs i o) (fraud + 1) blocked := by
  obtain ⟨S, hmem, hcard⟩ := h
  refine ⟨S.erase i, ?_, ?_⟩
  · intro j hj
    obtain ⟨hne, hj⟩ := Finset.mem_erase.mp hj
    rw [Function.update_of_ne hne]
    exact hmem j hj
  · have herase := Finset.pred_card_le_card_erase (s := S) (a := i)
    omega

end Owed

/-- What the phase of a task says about the ledger. -/
def Fits (qs : ι → Option Phase) (l : Ledger ι) (i : ι) : Phase → Prop
  | .total n => Room qs l.fraud (l.since i) n
  | .fraud n f => f ≤ n ∧ l.blocked ≤ f
  | .blocked n f b => b ≤ f ∧ f ≤ n
  | _ => True

/-- Every transaction counted as fraud is in the total, and every one counted as blocked is counted
as fraud or has its update halfway; and what a request has read is not overtaken. -/
structure Balanced (tasks : ι → Task) (qs : ι → Option Phase) (l : Ledger ι) : Prop where
  kinds : ∀ i q, qs i = some q → q.Of (tasks i)
  room : Room qs l.fraud ∅ l.total
  owed : Owed qs l.fraud l.blocked
  fits : ∀ i q, qs i = some q → Fits qs l i q

omit [DecidableEq ι] in
/-- A request is not disturbed where there is still room in the total that it has read, or nothing
more is blocked than it has read as fraud. -/
theorem Fits.of_le (h : Fits qs l i q)
    (hroom : ∀ n, Room qs l.fraud (l.since i) n → Room qs' l'.fraud (l'.since i) n)
    (hblocked : ∀ n f, q = .fraud n f → l'.blocked ≤ l.blocked) : Fits qs' l' i q := by
  cases q with
  | total n => exact hroom n h
  | fraud n f => exact ⟨h.1, (hblocked n f rfl).trans h.2⟩
  | blocked n f b => exact h
  | fresh decision => trivial
  | counted decision => trivial
  | halfway => trivial
  | start => trivial
  | done => trivial

namespace Balanced

/-- One task changes its phase. -/
theorem change (h : Balanced tasks qs l) (hkind : ∀ q, o = some q → q.Of (tasks i))
    (hroom : Room (Function.update qs i o) l'.fraud ∅ l'.total)
    (howed : Owed (Function.update qs i o) l'.fraud l'.blocked)
    (hself : ∀ q, o = some q → Fits (Function.update qs i o) l' i q)
    (hothers : ∀ j q, j ≠ i → qs j = some q → Fits qs l j q → Fits (Function.update qs i o) l' j q) :
    Balanced tasks (Function.update qs i o) l' := by
  refine ⟨?_, hroom, howed, ?_⟩
  · intro j q hj
    rcases Pool.update_cases hj with ⟨rfl, hchanged⟩ | ⟨-, hj⟩
    · exact hkind q hchanged
    · exact h.kinds j q hj
  · intro j q hj
    rcases Pool.update_cases hj with ⟨rfl, hchanged⟩ | ⟨hne, hj⟩
    · exact hself q hchanged
    · exact hothers j q hne hj (h.fits j q hj)

/-- A task that is not halfway takes a phase that depends on nothing new, or leaves. -/
theorem leave (h : Balanced tasks qs l) (hi : qs i ≠ some .halfway)
    (hkind : ∀ q, o = some q → q.Of (tasks i))
    (hpending : ∀ q, o = some q → q.Pending → ∃ q', qs i = some q' ∧ q'.Pending)
    (hself : ∀ q, o = some q → Fits (Function.update qs i o) l i q) :
    Balanced tasks (Function.update qs i o) l := by
  have hkept : ∀ {late n}, Room qs l.fraud late n → Room (Function.update qs i o) l.fraud late n :=
    fun hroom => hroom.update subset_rfl fun q hq hq' => Or.inr (hpending q hq hq')
  refine h.change hkind (hkept h.room) (h.owed.update hi) hself ?_
  intro j q _ _ hfits
  exact hfits.of_le (fun _ => hkept) fun _ _ _ => le_rfl

/-- A task that is not halfway is done. -/
theorem quit (h : Balanced tasks qs l) (hi : qs i ≠ some .halfway) :
    Balanced tasks (Function.update qs i (some .done)) l := by
  apply h.leave hi
  · rintro q ⟨⟩
    trivial
  · rintro q ⟨⟩ hpending
    exact hpending.elim
  · rintro q ⟨⟩
    trivial

/-- A transaction is counted in the total: its update is late for the requests that have read it. -/
theorem count_total (h : Balanced tasks qs l) (hi : qs i ≠ some .halfway) (hkind : q.Of (tasks i))
    (hself : ∀ qs' l', Fits qs' l' i q) :
    Balanced tasks (Function.update qs i (some q))
      { l with total := l.total + 1, since := fun j => insert i (l.since j) } := by
  refine h.change ?_ h.room.more (h.owed.update hi) ?_ ?_
  · rintro q' ⟨⟩
    exact hkind
  · rintro q' ⟨⟩
    exact hself _ _
  · intro j q' _ _ hfits
    refine hfits.of_le ?_ fun _ _ _ => le_rfl
    intro n hroom
    exact hroom.update (Finset.subset_insert i _) fun _ _ _ => Or.inl (Finset.mem_insert_self i _)

/-- A pending update that is late for no request between its reads counts its transaction as
fraud. -/
theorem count_fraud (h : Balanced tasks qs l) (hi : qs i = some q) (hq : q.Pending)
    (hlate : ∀ j n, qs j = some (.total n) → i ∉ l.since j) :
    Balanced tasks (Function.update qs i (some .done)) { l with fraud := l.fraud + 1 } := by
  have hdone : ∀ q, some Phase.done = some q → ¬ q.Pending := by
    rintro q ⟨⟩
    exact id
  refine h.change ?_ (h.room.pay hi hq (Finset.notMem_empty i) hdone) h.owed.pay ?_ ?_
  · rintro q' ⟨⟩
    trivial
  · rintro q' ⟨⟩
    trivial
  · intro j q' _ hj hfits
    cases q' with
    -- the only reader that the step could overtake, and `i` is not late for it
    | total n => exact Room.pay hfits hi hq (hlate j n hj) hdone
    | fraud n f => exact hfits
    | blocked n f b => exact hfits
    | fresh decision => trivial
    | counted decision => trivial
    | halfway => trivial
    | start => trivial
    | done => trivial

/-- A transaction is counted as blocked while no request is about to read that. -/
theorem count_blocked (h : Balanced tasks qs l) (hi : qs i = some (.counted .block))
    (hnone : ∀ j n f, qs j ≠ some (.fraud n f)) :
    Balanced tasks (Function.update qs i (some .halfway)) { l with blocked := l.blocked + 1 } := by
  have hpending : ∀ q, some Phase.halfway = some q → q.Pending → ∃ q', qs i = some q' ∧ q'.Pending :=
    fun _ _ _ => ⟨_, hi, trivial⟩
  have hother : qs i ≠ some .halfway := by
    rw [hi]
    exact nofun
  have hkept : ∀ {late n}, Room qs l.fraud late n →
      Room (Function.update qs i (some .halfway)) l.fraud late n :=
    fun hroom => hroom.update subset_rfl fun q hq hq' => Or.inr (hpending q hq hq')
  refine h.change ?_ (hkept h.room) (h.owed.owe hother) ?_ ?_
  · rintro q' ⟨⟩
    have hblock : Phase.Of (tasks i) (.counted .block) := h.kinds i _ hi
    exact hblock
  · rintro q' ⟨⟩
    trivial
  · intro j q' _ hj hfits
    refine hfits.of_le (fun _ => hkept) ?_
    -- a request between its reads of fraud and blocked is shut out
    rintro n f rfl
    exact absurd hj (hnone j n f)

/-- A request reads the total: no update is late for it. -/
theorem read_total (h : Balanced tasks qs l) (hi : qs i = some .start) :
    Balanced tasks (Function.update qs i (some (.total l.total)))
      { l with since := Function.update l.since i ∅ } := by
  have hother : qs i ≠ some .halfway := by
    rw [hi]
    exact nofun
  have hkept : ∀ {late n}, Room qs l.fraud late n →
      Room (Function.update qs i (some (.total l.total))) l.fraud late n := by
    intro late n hroom
    apply hroom.update subset_rfl
    rintro q ⟨⟩ hpending
    exact hpending.elim
  refine h.change ?_ (hkept h.room) (h.owed.update hother) ?_ ?_
  · rintro q' ⟨⟩
    trivial
  · rintro q' ⟨⟩
    show Room _ l.fraud (Function.update l.since i ∅ i) l.total
    rw [Function.update_self]
    exact hkept h.room
  · intro j q' hne _ hfits
    refine hfits.of_le ?_ fun _ _ _ => le_rfl
    intro n hroom
    dsimp only
    rw [Function.update_of_ne hne]
    exact hkept hroom

end Balanced

end Ledger

/-! ## Runs -/

section Runs

variable {lib : NumberLib} {tasks : ι → Task} {qs : ι → Option Phase}
  {s : Pool ι (KpiServer ι) CommandRet Exn (Option Metrics)} {i : ι} {q : Phase} {d : Delivery Exn}

omit [DecidableEq ι] in
/-- A task that may not rest has a next command. -/
theorem next_of_wp {p : Prog CommandRet Exn (Option Metrics)} (hwp : p.wp commands Ends q)
    (hq : ¬ q.Resting) : ∃ op k, p = .call op k ∧ commands.guar q op := by
  cases p with
  | pure a => exact absurd hwp.1 hq
  | raise e => exact absurd hwp.1 hq
  | call op k => exact ⟨op, k, rfl, hwp.1⟩

omit [DecidableEq ι] in
theorem next_command (h : Pool.Meets commands Ends s.tasks qs) (hi : qs i = some q)
    (hq : ¬ q.Resting) : ∃ op k, s.tasks i = some (.call op k) ∧ commands.guar q op := by
  rcases h i with ⟨-, hnone⟩ | ⟨p, q', hp, hq', hwp⟩
  · rw [hi] at hnone
    cases hnone
  · rw [hi] at hq'
    cases hq'
    obtain ⟨op, k, rfl, hguar⟩ := next_of_wp hwp hq
    exact ⟨op, k, hp, hguar⟩

omit [DecidableEq ι] in
/-- The phases between two commands are those that the conditions speak of. -/
theorem awaits_total (h : Pool.Meets commands Ends s.tasks qs) {n : ℤ} (hi : qs i = some (.total n)) :
    Awaits s i "metrics:fraud_tx" := by
  obtain ⟨op, k, htask, rfl⟩ := next_command h hi id
  exact ⟨k, htask⟩

omit [DecidableEq ι] in
theorem awaits_fraud (h : Pool.Meets commands Ends s.tasks qs) {n f : ℤ}
    (hi : qs i = some (.fraud n f)) : Awaits s i "metrics:blocked_tx" := by
  obtain ⟨op, k, htask, rfl⟩ := next_command h hi id
  exact ⟨k, htask⟩

omit [DecidableEq ι] in
theorem halfway_of_phase (h : Pool.Meets commands Ends s.tasks qs) {l : Ledger ι}
    (hbalanced : Balanced tasks qs l) (hi : qs i = some .halfway) : Halfway tasks s i := by
  obtain ⟨op, k, htask, rfl⟩ := next_command h hi id
  exact ⟨hbalanced.kinds i _ hi, k, htask⟩

/-- The first command of an update. -/
theorem Balanced.first_command (h : Balanced tasks qs s.shared.ledger) {decision : FraudDecision}
    (hi : qs i = some (.fresh decision)) :
    let x := d.outcome (KpiServer.perform lib i (.inl (.incr "metrics:total_tx")) s.shared) s.shared
    ∃ q', commands.rely (.fresh decision) ⟨.inl (.incr "metrics:total_tx"), x.1⟩ q' ∧
      Balanced tasks (Function.update qs i (some q')) x.2.ledger := by
  have hother : qs i ≠ some .halfway := by
    rw [hi]
    exact nofun
  cases d with
  | answered =>
    refine ⟨.counted decision, ⟨rfl, trivial⟩, ?_⟩
    have hkind : Phase.Of (tasks i) (.fresh decision) := h.kinds i _ hi
    have hcounted := h.count_total (q := .counted decision) hother hkind fun _ _ => trivial
    rwa [← KpiServer.ledger_incr_total] at hcounted
  | unanswered e =>
    refine ⟨.done, ⟨rfl, trivial⟩, ?_⟩
    have hcounted := h.count_total (q := .done) hother trivial fun _ _ => trivial
    rwa [← KpiServer.ledger_incr_total] at hcounted
  | lost e => exact ⟨.done, ⟨rfl, trivial⟩, h.quit hother⟩

/-- The `INCR` of `fraud_tx`, by an update that has counted its transaction in the total. -/
theorem Balanced.fraud_command (hmeets : Pool.Meets commands Ends s.tasks qs)
    (h : Balanced tasks qs s.shared.ledger) (hi : qs i = some q) (hq : q.Pending)
    (hnext : ∀ r, q.next ⟨.inl (.incr "metrics:fraud_tx"), r⟩ = .done)
    (hok : Orderly tasks s (.command i (.inl (.incr "metrics:fraud_tx")) d)) :
    let x := d.outcome (KpiServer.perform lib i (.inl (.incr "metrics:fraud_tx")) s.shared) s.shared
    ∃ q', commands.rely q ⟨.inl (.incr "metrics:fraud_tx"), x.1⟩ q' ∧
      Balanced tasks (Function.update qs i (some q')) x.2.ledger := by
  have hcounted : (∀ e, d ≠ .lost e) → Balanced tasks (Function.update qs i (some .done))
      (s.shared.incr i "metrics:fraud_tx").ledger := by
    intro hd
    rw [KpiServer.ledger_incr_fraud]
    apply h.count_fraud hi hq
    intro j n hj
    exact (hok.1 hd).1 rfl j (awaits_total hmeets hj)
  cases d with
  | answered => exact ⟨.done, ⟨(hnext _).symm, trivial⟩, hcounted nofun⟩
  | unanswered e => exact ⟨.done, ⟨(hnext _).symm, trivial⟩, hcounted nofun⟩
  | lost e =>
    refine ⟨.done, ⟨(hnext _).symm, trivial⟩, h.quit ?_⟩
    intro hhalfway
    exact hok.2.2 (halfway_of_phase hmeets h hhalfway) e rfl

/-- The `INCR` of `blocked_tx`. -/
theorem Balanced.blocked_command (hmeets : Pool.Meets commands Ends s.tasks qs)
    (h : Balanced tasks qs s.shared.ledger) (hi : qs i = some (.counted .block))
    (hok : Orderly tasks s (.command i (.inl (.incr "metrics:blocked_tx")) d)) :
    let x := d.outcome (KpiServer.perform lib i (.inl (.incr "metrics:blocked_tx")) s.shared) s.shared
    ∃ q', commands.rely (.counted .block) ⟨.inl (.incr "metrics:blocked_tx"), x.1⟩ q' ∧
      Balanced tasks (Function.update qs i (some q')) x.2.ledger := by
  cases d with
  | answered =>
    refine ⟨.halfway, ⟨rfl, trivial⟩, ?_⟩
    have hcounted := h.count_blocked hi fun j n f hj =>
      (hok.1 nofun).2 rfl j (awaits_fraud hmeets hj)
    rwa [← KpiServer.ledger_incr_blocked] at hcounted
  | unanswered e => exact absurd rfl (hok.2.1 rfl e)
  | lost e =>
    refine ⟨.done, ⟨rfl, trivial⟩, h.quit ?_⟩
    rw [hi]
    exact nofun

/-- A command of an update that has counted its transaction in the total. -/
theorem Balanced.update_command {decision : FraudDecision} {op : Command}
    (hmeets : Pool.Meets commands Ends s.tasks qs) (h : Balanced tasks qs s.shared.ledger)
    (hi : qs i = some (.counted decision)) (hguar : commands.guar (.counted decision) op)
    (hok : Orderly tasks s (.command i op d)) :
    let x := d.outcome (KpiServer.perform lib i op s.shared) s.shared
    ∃ q', commands.rely (.counted decision) ⟨op, x.1⟩ q' ∧
      Balanced tasks (Function.update qs i (some q')) x.2.ledger := by
  rcases hguar with ⟨rfl, rfl⟩ | ⟨rfl, rfl⟩ | ⟨key, amount, rfl⟩
  · exact h.blocked_command hmeets hi hok
  · apply h.fraud_command hmeets hi trivial _ hok
    rintro (e | u)
    · rfl
    · rfl
  · -- adding to a sum leaves the ledger as it is
    have hother : qs i ≠ some .halfway := by
      rw [hi]
      exact nofun
    cases d with
    | answered =>
      refine ⟨.counted decision, ⟨rfl, trivial⟩, h.leave hother ?_ ?_ ?_⟩
      · rintro q ⟨⟩
        exact h.kinds i _ hi
      · exact fun _ _ _ => ⟨_, hi, trivial⟩
      · rintro q ⟨⟩
        trivial
    | unanswered e => exact ⟨.done, ⟨rfl, trivial⟩, h.quit hother⟩
    | lost e => exact ⟨.done, ⟨rfl, trivial⟩, h.quit hother⟩

/-- A request reads a counter other than the total, or fails to. -/
theorem Balanced.read_command {key : String} (h : Balanced tasks qs s.shared.ledger)
    (hi : qs i = some q) (hpending : ¬ q.Pending) (hkey : key ≠ "metrics:total_tx")
    (hanswered : d = .answered →
      let q' := q.next ⟨.inr (.get key), .ok (s.shared.counters key)⟩
      q'.Ordered ∧ q'.Of (tasks i) ∧ ¬ q'.Pending ∧ ∀ qs', Fits qs' s.shared.ledger i q')
    (hraised : ∀ e, q.next ⟨.inr (.get key), .error e⟩ = .done) :
    let x := d.outcome (KpiServer.perform lib i (.inr (.get key)) s.shared) s.shared
    ∃ q', commands.rely q ⟨.inr (.get key), x.1⟩ q' ∧
      Balanced tasks (Function.update qs i (some q')) x.2.ledger := by
  have hother : qs i ≠ some .halfway := by
    rw [hi]
    rintro ⟨⟩
    exact hpending trivial
  have hsame : (s.shared.see i key).ledger = s.shared.ledger := KpiServer.ledger_see hkey
  cases d with
  | answered =>
    obtain ⟨hordered, hkind, hnot, hfits⟩ := hanswered rfl
    refine ⟨_, ⟨rfl, hordered⟩, ?_⟩
    show Balanced tasks _ (s.shared.see i key).ledger
    rw [hsame]
    apply h.leave hother
    · rintro q' ⟨⟩
      exact hkind
    · rintro q' ⟨⟩ hpending'
      exact absurd hpending' hnot
    · rintro q' ⟨⟩
      exact hfits _
  | unanswered e =>
    refine ⟨.done, ⟨(hraised e).symm, trivial⟩, ?_⟩
    show Balanced tasks _ (s.shared.see i key).ledger
    rw [hsame]
    exact h.quit hother
  | lost e => exact ⟨.done, ⟨(hraised e).symm, trivial⟩, h.quit hother⟩

/-- A request reads the total, or fails to. -/
theorem Balanced.total_command (h : Balanced tasks qs s.shared.ledger) (hi : qs i = some .start) :
    let x := d.outcome (KpiServer.perform lib i (.inr (.get "metrics:total_tx")) s.shared) s.shared
    ∃ q', commands.rely .start ⟨.inr (.get "metrics:total_tx"), x.1⟩ q' ∧
      Balanced tasks (Function.update qs i (some q')) x.2.ledger := by
  have hread : Balanced tasks (Function.update qs i (some (.total s.shared.ledger.total)))
      (s.shared.see i "metrics:total_tx").ledger := by
    rw [KpiServer.ledger_see_total]
    exact h.read_total hi
  have hother : qs i ≠ some .halfway := by
    rw [hi]
    exact nofun
  cases d with
  | answered => exact ⟨_, ⟨rfl, trivial⟩, hread⟩
  | unanswered e =>
    refine ⟨.done, ⟨rfl, trivial⟩, ?_⟩
    -- read and not answered: the update of `since` stays, and the request is over
    have hdone := hread.quit (i := i) (by rw [Function.update_self]; exact nofun)
    rwa [Function.update_idem] at hdone
  | lost e => exact ⟨.done, ⟨rfl, trivial⟩, h.quit hother⟩

/-- An orderly command keeps the balance. -/
theorem Balanced.command {op : Command} (hmeets : Pool.Meets commands Ends s.tasks qs)
    (h : Balanced tasks qs s.shared.ledger) (hi : qs i = some q) (hguar : commands.guar q op)
    (hok : Orderly tasks s (.command i op d)) :
    let x := d.outcome (KpiServer.perform lib i op s.shared) s.shared
    ∃ q', commands.rely q ⟨op, x.1⟩ q' ∧
      Balanced tasks (Function.update qs i (some q')) x.2.ledger := by
  have hfits := h.fits i q hi
  cases q with
  | fresh decision =>
    cases hguar
    exact h.first_command hi
  | counted decision => exact h.update_command hmeets hi hguar hok
  | halfway =>
    cases hguar
    apply h.fraud_command hmeets hi trivial _ hok
    rintro (e | u)
    · rfl
    · rfl
  | start =>
    cases hguar
    exact h.total_command hi
  | total n =>
    cases hguar
    refine h.read_command hi id (by decide) ?_ fun _ => rfl
    intro hd
    -- no update is halfway, so nothing is blocked that is not fraud
    have hsettled := h.owed.settled fun j hj =>
      hok.1 hd rfl j (halfway_of_phase hmeets h hj)
    have hle : s.shared.ledger.fraud ≤ n := Room.fraud_le hfits
    exact ⟨hle, trivial, id, fun _ => ⟨hle, hsettled⟩⟩
  | fraud n f =>
    cases hguar
    refine h.read_command hi id (by decide) ?_ fun _ => rfl
    intro _
    exact ⟨⟨hfits.2, hfits.1⟩, trivial, id, fun _ => ⟨hfits.2, hfits.1⟩⟩
  | blocked n f b =>
    obtain ⟨key, rfl⟩ := hguar
    have hother : qs i ≠ some .halfway := by
      rw [hi]
      exact nofun
    cases d with
    | answered =>
      refine ⟨.blocked n f b, ⟨rfl, hfits⟩, h.leave hother ?_ ?_ ?_⟩
      · rintro q' ⟨⟩
        trivial
      · rintro q' ⟨⟩ hpending
        exact hpending.elim
      · rintro q' ⟨⟩
        exact hfits
    | unanswered e => exact ⟨.done, ⟨rfl, trivial⟩, h.quit hother⟩
    | lost e => exact ⟨.done, ⟨rfl, trivial⟩, h.quit hother⟩
  | done => exact hguar.elim

/-- A task that ends or dies is not halfway. -/
theorem Balanced.gone {l : Ledger ι} (h : Balanced tasks qs l) (hi : qs i ≠ some .halfway) :
    Balanced tasks (Function.update qs i none) l := by
  apply h.leave hi
  · exact nofun
  · exact nofun
  · exact nofun

/-- Orderly runs stay balanced. -/
theorem balanced_of_run
    (hrun : Pool.Run (dashboardTasks lib tasks) (Orderly tasks) emptyDashboard s) :
    ∃ qs, Pool.Meets commands Ends s.tasks qs ∧ Balanced tasks qs s.shared.ledger := by
  have hempty : Balanced tasks (fun _ : ι => none) (emptyDashboard (ι := ι)).shared.ledger :=
    ⟨nofun, ⟨∅, nofun, le_rfl⟩, ⟨∅, nofun, le_rfl⟩, nofun⟩
  refine Pool.invariant_of_meets (fun qs t => Balanced tasks qs t.ledger) ?_ ?_ ?_ ?_ ?_
    (fun _ => Or.inl ⟨rfl, rfl⟩) hempty hrun
  · intro qs s i hmeets h hi _
    refine ⟨_, wp_task lib (tasks i), h.leave ?_ ?_ ?_ ?_⟩
    · rw [hmeets.none hi]
      exact nofun
    · rintro q ⟨⟩
      cases htask : tasks i with
      | update payload decision => exact ⟨payload, rfl⟩
      | metrics => trivial
    · rintro q ⟨⟩
      cases tasks i with
      | update payload decision => exact False.elim
      | metrics => exact False.elim
    · rintro q ⟨⟩
      cases tasks i with
      | update payload decision => trivial
      | metrics => trivial
  · intro qs s i q op d hmeets h hi hguar hok
    exact h.command hmeets hi hguar hok
  · intro qs t i q r h hi hends
    apply h.gone
    rw [hi]
    rintro ⟨⟩
    exact hends.1
  · intro qs s i p q h htask hi hwp hok
    apply h.gone
    rw [hi]
    rintro ⟨⟩
    obtain ⟨op, k, rfl, rfl⟩ := next_of_wp hwp id
    exact hok.2 ⟨h.kinds i _ hi, k, htask⟩
  · intro qs t t' _ hdrift
    exact hdrift.elim

end Runs

/-- Where no transaction is counted halfway, the counters themselves are ordered. -/
theorem counters_ordered {lib : NumberLib} {tasks : ι → Task}
    {s : Pool ι (KpiServer ι) CommandRet Exn (Option Metrics)}
    (hrun : Pool.Run (dashboardTasks lib tasks) (Orderly tasks) emptyDashboard s)
    (hnone : ∀ i, ¬ Halfway tasks s i) :
    s.shared.count "metrics:blocked_tx" ≤ s.shared.count "metrics:fraud_tx" ∧
      s.shared.count "metrics:fraud_tx" ≤ s.shared.count "metrics:total_tx" := by
  obtain ⟨qs, hmeets, h⟩ := balanced_of_run hrun
  exact ⟨h.owed.settled fun i hi => hnone i (halfway_of_phase hmeets h hi), h.room.fraud_le⟩

/-- In every run that starts on an empty Redis, in which no update races with a request and none is
broken off halfway, every response is ordered. -/
theorem metrics_ordered (lib : NumberLib) (tasks : ι → Task)
    (s : Pool ι (KpiServer ι) CommandRet Exn (Option Metrics))
    (hrun : Pool.Run (dashboardTasks lib tasks) (Orderly tasks) emptyDashboard s) (i : ι)
    (m : Metrics) (hm : s.tasks i = some (.pure (some m))) : m.Ordered := by
  obtain ⟨qs, hmeets, -⟩ := balanced_of_run hrun
  obtain ⟨q, -, hwp⟩ := hmeets.some hm
  exact hwp.2 m rfl

/-! ### A blocked transaction -/

/-- The update for a transaction that is blocked, and a request. -/
def blockedAndRequest : Bool → Task
  | false => .update (.dict [("amount", .float 5)]) .block
  | true => .metrics

/-- The two tasks on one Redis. -/
def blockedSetting : Setting Bool (KpiServer Bool) CommandRet Exn (Option Metrics) :=
  dashboardTasks compactNumbers blockedAndRequest

section Sample

variable {s : Pool Bool (KpiServer Bool) CommandRet Exn (Option Metrics)} {i : Bool}
  {key key' : String} {op : Op}

/-- The pool after a task was started and ran alone, with every command answered. -/
def runAlone (i : Bool) (n : ℕ) (s : Pool Bool (KpiServer Bool) CommandRet Exn (Option Metrics)) :
    Pool Bool (KpiServer Bool) CommandRet Exn (Option Metrics) where
  tasks := Function.update s.tasks i (some (Pool.remaining (blockedSetting.perform i)
    (blockedSetting.program i) (List.replicate n .answered) s.shared))
  shared := Pool.script (blockedSetting.perform i) (blockedSetting.program i)
    (List.replicate n .answered) s.shared

/-- The pool after a task in progress went on in the same way. -/
def goOn (i : Bool) (n : ℕ) (s : Pool Bool (KpiServer Bool) CommandRet Exn (Option Metrics)) :
    Pool Bool (KpiServer Bool) CommandRet Exn (Option Metrics) :=
  match s.tasks i with
  | none => s
  | some p =>
      { tasks := Function.update s.tasks i
          (some (Pool.remaining (blockedSetting.perform i) p (List.replicate n .answered) s.shared))
        shared := Pool.script (blockedSetting.perform i) p (List.replicate n .answered) s.shared }

theorem run_goOn {ok : Pool Bool (KpiServer Bool) CommandRet Exn (Option Metrics) →
    Happening Bool Command Exn → Prop} {n : ℕ} {p : Prog CommandRet Exn (Option Metrics)}
    (h : s.tasks i = some p)
    (hok : Pool.Allows blockedSetting ok i p (List.replicate n .answered) s) :
    Pool.Run blockedSetting ok s (goOn i n s) := by
  unfold goOn
  rw [h]
  exact Pool.run_remaining h hok

theorem not_awaits_of_update
    {k : Except Exn (CommandRet (.inl op)) → Prog CommandRet Exn (Option Metrics)}
    (h : s.tasks i = some (.call (.inl op) k)) : ¬ Awaits s i key := by
  rintro ⟨k', hk⟩
  rw [h] at hk
  cases hk

theorem not_awaits_of_none (h : s.tasks i = none) : ¬ Awaits s i key := by
  rintro ⟨k', hk⟩
  rw [h] at hk
  cases hk

theorem awaits_inj
    {k : Except Exn (CommandRet (.inr (.get key'))) → Prog CommandRet Exn (Option Metrics)}
    (h : s.tasks i = some (.call (.inr (.get key')) k)) (hawaits : Awaits s i key) : key' = key := by
  obtain ⟨k', hk⟩ := hawaits
  rw [h] at hk
  cases hk
  rfl

/-- The request is no update. -/
theorem not_halfway_request : ¬ Halfway blockedAndRequest s true := by
  rintro ⟨⟨payload, hpayload⟩, -⟩
  cases hpayload

theorem not_halfway_of_pure (h : s.tasks i = some (.pure none)) : ¬ Halfway blockedAndRequest s i := by
  rintro ⟨-, k, hk⟩
  rw [h] at hk
  cases hk

theorem not_halfway_of_incr
    {k : Except Exn (CommandRet (.inl (.incr key))) → Prog CommandRet Exn (Option Metrics)}
    (h : s.tasks i = some (.call (.inl (.incr key)) k)) (hkey : key ≠ "metrics:fraud_tx") :
    ¬ Halfway blockedAndRequest s i := by
  rintro ⟨-, k', hk⟩
  rw [h] at hk
  injection hk with hcall
  injection hcall with hop
  exact hkey (Op.incr.inj (Sum.inl.inj hop))

/-- A command that is answered is part of a schedule without a race if no request is in progress. -/
theorem orderly_alone (hnone : s.tasks true = none)
    (hp : ∃ op k, s.tasks false = some (.call (.inl op) k)) :
    Orderly blockedAndRequest s (.command false (.inl op) .answered) := by
  have hno : ∀ j key, ¬ Awaits s j key := by
    intro j key
    cases j with
    | false =>
      obtain ⟨op, k, hp⟩ := hp
      exact not_awaits_of_update hp
    | true => exact not_awaits_of_none hnone
  cases op with
  | incr key =>
    refine ⟨fun _ => ⟨fun _ j hj => absurd hj (hno j _), fun _ j => hno j _⟩, ?_, ?_⟩
    · exact nofun
    · exact nofun
  | incrbyfloat key amount => exact ⟨trivial, trivial⟩
  | getone => exact ⟨trivial, trivial⟩
  | rpc request => exact ⟨trivial, trivial⟩
  | sendAndWait value => exact ⟨trivial, trivial⟩

/-- A request is orderly while the update is not halfway. -/
theorem orderly_read (hnone : ¬ Halfway blockedAndRequest s false) (read : Read) :
    Orderly blockedAndRequest s (.command true (.inr read) .answered) := by
  cases read with
  | get key =>
    refine ⟨?_, trivial⟩
    intro _ _ i
    cases i with
    | false => exact hnone
    | true => exact not_halfway_request
  | getFloat key => exact ⟨trivial, trivial⟩

end Sample

/-- The update has counted its transaction in the total and is cut off by a request that reads
this. -/
def totalRead : Pool Bool (KpiServer Bool) CommandRet Exn (Option Metrics) :=
  runAlone true 1 (runAlone false 2 emptyDashboard)

/-- The update comes to its end, and then the request. -/
def interleaved : Pool Bool (KpiServer Bool) CommandRet Exn (Option Metrics) :=
  goOn true 3 (goOn false 2 totalRead)

theorem run_interleaved :
    Pool.Run blockedSetting (Orderly blockedAndRequest) emptyDashboard interleaved := by
  have hcounted : Pool.Run blockedSetting (Orderly blockedAndRequest) emptyDashboard
      (runAlone false 2 emptyDashboard) := by
    refine Pool.run_started rfl ⟨trivial, trivial⟩ ⟨?_, ?_, trivial⟩
    · exact orderly_alone rfl ⟨_, _, rfl⟩
    · exact orderly_alone rfl ⟨_, _, rfl⟩
  have hread : Pool.Run blockedSetting (Orderly blockedAndRequest)
      (runAlone false 2 emptyDashboard) totalRead := by
    refine Pool.run_started rfl ⟨trivial, trivial⟩ ⟨?_, trivial⟩
    exact orderly_read (not_halfway_of_incr rfl (by decide)) _
  have hupdated : Pool.Run blockedSetting (Orderly blockedAndRequest) totalRead
      (goOn false 2 totalRead) := by
    refine run_goOn rfl
      ⟨⟨fun _ => ⟨?_, ?_⟩, nofun, nofun⟩, ⟨fun _ => ⟨?_, ?_⟩, nofun, nofun⟩, trivial⟩
    · intro hkey
      exact absurd hkey (by decide)
    · intro _ j hj
      cases j with
      | false => exact not_awaits_of_update rfl hj
      | true => exact absurd (awaits_inj rfl hj) (by decide)
    · -- the total was read after the transaction was counted in it
      intro _ j hj
      cases j with
      | false => exact absurd hj (not_awaits_of_update rfl)
      | true => exact Finset.notMem_empty false
    · intro hkey
      exact absurd hkey (by decide)
  have hrequested : Pool.Run blockedSetting (Orderly blockedAndRequest) (goOn false 2 totalRead)
      interleaved := by
    refine run_goOn rfl ⟨?_, ?_, ?_, trivial⟩
    · exact orderly_read (not_halfway_of_pure rfl) _
    · exact orderly_read (not_halfway_of_pure rfl) _
    · exact orderly_read (not_halfway_of_pure rfl) _
  exact ((hcounted.trans hread).trans hupdated).trans hrequested

/-- The request finds one transaction, which is blocked. -/
theorem metrics_ordered_blocked : ∃ m,
    interleaved.tasks true = some (.pure (some m)) ∧ m.blockedTransactions = 1 ∧ m.Ordered :=
  ⟨_, rfl, by decide +kernel,
    metrics_ordered compactNumbers blockedAndRequest _ run_interleaved true _ rfl⟩

/-- A request between the two counters of the update finds a blocked transaction that is not counted
as fraud. -/
theorem request_amid_update : ¬ ∀ s,
    Pool.Run blockedSetting (fun _ _ => True) emptyDashboard s →
    ∀ i m, s.tasks i = some (.pure (some m)) → m.Ordered := by
  intro hclaim
  have hupdate : Pool.Run blockedSetting (fun _ _ => True) emptyDashboard
      (runAlone false 3 emptyDashboard) :=
    Pool.run_started rfl trivial ⟨trivial, trivial, trivial, trivial⟩
  have hrequest : Pool.Run blockedSetting (fun _ _ => True) (runAlone false 3 emptyDashboard)
      (runAlone true 4 (runAlone false 3 emptyDashboard)) :=
    Pool.run_started rfl trivial ⟨trivial, trivial, trivial, trivial, trivial⟩
  have hordered := hclaim _ (hupdate.trans hrequest) true _ rfl
  exact absurd hordered.1 (by decide +kernel)

end FraudDetection.Gateway
