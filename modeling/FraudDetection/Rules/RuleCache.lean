import FraudDetection.Async.Pool
import FraudDetection.Async.Sum
import FraudDetection.Rules.Catalogue

/-!
# The rule cache

The servicer of the rule engine keeps the active rules in a module variable. The first evaluation
loads them, and `POST /reload` loads them again; a load fetches the rows first and installs the
rules when the answer is there, so loads overlap, and rules that were fetched earlier can be
installed later.

A task holds the rules it has fetched until it installs them, and is ready to evaluate once it knows
that some load has finished (`LoadPhase`). The rules that tasks hold are contents of the table
(`Snapshots`). From a moment on at which no task holds any, every load brings in a later content.
-/

namespace FraudDetection.Rules

open Async Python

/-! ## The servicer -/

/-- What the servicer awaits or reads outside of its own frame. -/
inductive CacheOp where
  | time
  | isCold
  | cachedRules
  | loaded
  | fetchActiveRules
  | install (rules : List Rule)

/-- `isCold` is `not _cached_rules and _last_reload is None`, and `loaded` reads the number of
cached rules and `_last_reload`. -/
abbrev CacheOp.Ret : CacheOp → Type
  | .time => ℚ
  | .isCold => Bool
  | .cachedRules => List Rule
  | .loaded => ℕ × Option ℚ
  | .fetchActiveRules => List Rule
  | .install _ => Unit

/-- The operations of the servicer and those of the evaluator. -/
abbrev ServiceOp := CacheOp ⊕ Op

/-- The replies to them. -/
abbrev ServiceRet : ServiceOp → Type := SumRet CacheOp.Ret Ret

/-- The message `HealthResponse`. -/
structure HealthResponse where
  status : String
  service : String
  version : String
  timestamp : ℚ
  loadedRules : ℕ
  lastReload : ℚ

/-- What the calls on the service return. -/
inductive Response where
  | evaluated (result : RuleEvalResult)
  | health (response : HealthResponse)
  | listed (rules : List Rule) (count : ℕ)
  | reloaded (status message : String)

/-- Await an operation of the servicer. -/
def ask (op : CacheOp) : Prog ServiceRet Exn (CacheOp.Ret op) :=
  (Prog.await (Sum.inl op : ServiceOp) : Prog ServiceRet Exn (ServiceRet (.inl op)))

/-- `reload_rules_cache`. Nothing is awaited between the two assignments. -/
def reloadRulesCache : Prog ServiceRet Exn Unit := do
  let rules ← ask .fetchActiveRules
  ask (.install rules)

/-- `EvaluateRules` -/
def RuleEngineServicer.evaluateRules (py : PyLib) (ctx : TransactionContext) :
    Prog ServiceRet Exn Response := do
  let startTime : ℚ ← ask .time
  let isCold : Bool ← ask .isCold
  if isCold then
    reloadRulesCache
  let rules ← ask .cachedRules
  let result ← (evaluateTransaction Floats.binary64 py rules ctx).inr
  let endTime : ℚ ← ask .time
  return .evaluated { result with executionTimeMs := (endTime - startTime) * 1000 }

/-- `GetRuleHealth` -/
def RuleEngineServicer.getRuleHealth : Prog ServiceRet Exn Response := do
  let ts : ℚ ← ask .time
  let loaded : ℕ × Option ℚ ← ask .loaded
  return .health {
    status := "SERVING"
    service := "rule-engine-service"
    version := "1.0.0"
    timestamp := ts
    loadedRules := loaded.1
    lastReload := loaded.2.getD ts }

/-- `get_rules` -/
def getRules : Prog ServiceRet Exn Response := do
  let rules : List Rule ← ask .fetchActiveRules
  return .listed rules rules.length

/-- `trigger_reload` -/
def triggerReload : Prog ServiceRet Exn Response := do
  reloadRulesCache
  return .reloaded "success" "Rule cache reloaded"

/-! ## Calls side by side -/

/-- A call on the service. -/
inductive ServiceCall where
  | evaluateRules (ctx : TransactionContext)
  | getRuleHealth
  | getRules
  | triggerReload

/-- What a call does. -/
def ServiceCall.program (py : PyLib) : ServiceCall → Prog ServiceRet Exn Response
  | .evaluateRules ctx => RuleEngineServicer.evaluateRules py ctx
  | .getRuleHealth => RuleEngineServicer.getRuleHealth
  | .getRules => Rules.getRules
  | .triggerReload => Rules.triggerReload

/-- The service, its Redis and its database. The contents that the table goes through are numbered,
and `version` is the number of the current one. `installs` counts the loads that have finished, and
`used` lists the rules that evaluations have begun with, newest first. -/
structure RuleService (ι σ : Type) where
  now : ℚ
  version : ℕ
  cachedRules : List Rule
  lastReload : Option ℚ
  redis : σ
  installs : ℕ
  used : List (ι × List Rule)

variable {ι σ : Type}

/-- One operation of a call. -/
def RuleService.perform (contents : ℕ → List RuleRow)
    (answer : (op : Op) → σ → Except Exn (Ret op) × σ) (i : ι) :
    (op : ServiceOp) → RuleService ι σ → Except Exn (ServiceRet op) × RuleService ι σ
  | .inl .time, t => (.ok t.now, t)
  | .inl .isCold, t => (.ok (t.cachedRules.isEmpty && t.lastReload.isNone), t)
  | .inl .cachedRules, t => (.ok t.cachedRules, { t with used := (i, t.cachedRules) :: t.used })
  | .inl .loaded, t => (.ok (t.cachedRules.length, t.lastReload), t)
  | .inl .fetchActiveRules, t => (.ok (Rules.fetchActiveRules (contents t.version)), t)
  | .inl (.install rules), t => (.ok (), { t with
      cachedRules := rules, lastReload := some t.now, installs := t.installs + 1 })
  | .inr op, t => ((answer op t.redis).1, { t with redis := (answer op t.redis).2 })

/-- Calls on the service, while time passes and the table is edited. -/
def ruleService (py : PyLib) (contents : ℕ → List RuleRow)
    (answer : (op : Op) → σ → Except Exn (Ret op) × σ) (calls : ι → ServiceCall) :
    Setting ι (RuleService ι σ) ServiceRet Exn Response where
  program i := (calls i).program py
  perform := RuleService.perform contents answer
  drift t t' := ∃ now version redis, t.now ≤ now ∧ t.version ≤ version ∧
    t' = { t with now := now, version := version, redis := redis }

/-- The service before its first call. -/
def coldService (now : ℚ) (version : ℕ) (redis : σ) :
    Pool ι (RuleService ι σ) ServiceRet Exn Response where
  tasks _ := none
  shared := ⟨now, version, [], none, redis, 0, []⟩

/-- The rules are those of a content the table had between two versions. -/
def Snapshot (contents : ℕ → List RuleRow) (first last : ℕ) (rules : List Rule) : Prop :=
  ∃ v, first ≤ v ∧ v ≤ last ∧ rules = fetchActiveRules (contents v)

theorem Snapshot.mono {contents : ℕ → List RuleRow} {first last last' : ℕ} {rules : List Rule}
    (h : Snapshot contents first last rules) (hle : last ≤ last') :
    Snapshot contents first last' rules := by
  obtain ⟨v, hfirst, hlast, hrules⟩ := h
  exact ⟨v, hfirst, hlast.trans hle, hrules⟩

/-- No call is about to install rules that it has fetched before. -/
def NoneFetched (s : Pool ι (RuleService ι σ) ServiceRet Exn Response) : Prop :=
  ∀ i rules k, s.tasks i ≠ some (.call (.inl (.install rules)) k)

/-! ## Phases -/

namespace RuleService

/-- Where a call stands: it holds rules that it has fetched, or it knows that a load has finished
and is about to evaluate, or neither. -/
inductive LoadPhase where
  | idle
  | holding (rules : List Rule)
  | ready

/-- A call that forgets what it holds. -/
def LoadPhase.dropped : LoadPhase → LoadPhase
  | .holding _ => .idle
  | q => q

/-- The phase after an operation. -/
def LoadPhase.next (q : LoadPhase) (ev : Event ServiceRet Exn) : LoadPhase :=
  match q, ev with
  | .idle, ⟨.inl .isCold, .ok false⟩ => .ready
  | .idle, ⟨.inl .fetchActiveRules, .ok rules⟩ => .holding rules
  | .holding _, ⟨.inl (.install _), .ok _⟩ => .ready
  | _, _ => .idle

/-- A call installs what it has fetched, and evaluates when it is ready. -/
def loads : Contract LoadPhase ServiceRet Exn where
  guar := fun q op =>
    match q, op with
    | .idle, .inl (.install _) => False
    | .idle, .inl .cachedRules => False
    | .idle, _ => True
    | .holding rules, op => op = .inl (.install rules)
    | .ready, op => op = .inl .cachedRules
  rely := fun q ev q' => q' = q.next ev

/-- An operation of the servicer, and what follows it. -/
theorem wp_ask_seq {α : Type} {C : Contract LoadPhase ServiceRet Exn} {op : CacheOp}
    {g : CacheOp.Ret op → Prog ServiceRet Exn α} {R : Except Exn α → LoadPhase → Prop} {q : LoadPhase}
    (hguar : C.guar q (.inl op)) (herror : ∀ e q', R (.error e) q')
    (hok : ∀ a q', C.rely q ⟨.inl op, .ok a⟩ q' → (g a).wp C R q') : (ask op >>= g).wp C R q :=
  Prog.wp_await_seq hguar (fun e q' _ => herror e q') hok

/-- A load ends with the rules installed. -/
theorem wp_reloadRulesCache :
    reloadRulesCache.wp loads (fun r q => ∀ u, r = .ok u → q = .ready) .idle := by
  unfold reloadRulesCache
  refine wp_ask_seq trivial ?_ ?_
  · intro e q u h
    cases h
  · rintro rules q rfl
    refine (Prog.wp_await loads _ _ _).mpr ⟨rfl, ?_⟩
    rintro (e | u) q rfl u' h
    · cases h
    · rfl

/-- The commands of the evaluator leave a call as it is. -/
theorem wp_evaluator {α : Type} (p : Coroutine α) :
    (p.inr : Prog ServiceRet Exn α).wp loads (fun _ q => q = .idle) .idle := by
  rw [Prog.wp_inr]
  induction p with
  | pure a => rfl
  | raise e => rfl
  | call op k ih =>
    refine ⟨trivial, ?_⟩
    rintro r q rfl
    exact ih r

/-- Every call keeps to it. -/
theorem wp_serviceCall (py : PyLib) (call : ServiceCall) :
    (call.program py).wp loads (fun _ _ => True) .idle := by
  have hnone : ∀ (e : Exn) (q : LoadPhase), True := fun _ _ => trivial
  cases call with
  | evaluateRules ctx =>
    refine wp_ask_seq trivial hnone ?_
    rintro (startTime : ℚ) q rfl
    refine wp_ask_seq trivial hnone ?_
    -- warm or cold, the call is ready when it takes the cached rules
    have hready : ∀ q, q = LoadPhase.ready → Prog.wp loads (do
        let rules ← ask .cachedRules
        let result ← (evaluateTransaction Floats.binary64 py rules ctx).inr
        let endTime : ℚ ← ask .time
        return Response.evaluated { result with
          executionTimeMs := (endTime - startTime) * 1000 }) (fun _ _ => True) q := by
      rintro q rfl
      refine wp_ask_seq rfl hnone ?_
      rintro rules q rfl
      refine Prog.wp_seq (wp_evaluator _) (fun e q _ => hnone e q) ?_
      rintro result q rfl
      exact wp_ask_seq trivial hnone fun _ _ _ => trivial
    rintro (_ | _) q rfl
    · exact hready _ rfl
    · refine Prog.wp_seq wp_reloadRulesCache (fun e q _ => hnone e q) ?_
      intro u q hq
      exact hready q (hq u rfl)
  | getRuleHealth =>
    refine wp_ask_seq trivial hnone ?_
    rintro ts q rfl
    exact wp_ask_seq trivial hnone fun _ _ _ => trivial
  | getRules => exact wp_ask_seq trivial hnone fun _ _ _ => trivial
  | triggerReload =>
    exact Prog.wp_seq wp_reloadRulesCache (fun e q _ => hnone e q) fun _ _ _ => trivial

/-! ## One operation -/

section Operation

variable {contents : ℕ → List RuleRow} {answer : (op : Op) → σ → Except Exn (Ret op) × σ}
  {i : ι} {op : ServiceOp} {t : RuleService ι σ} {d : Delivery Exn} {q : LoadPhase}

variable (contents answer i t) in
/-- Only a load changes what is cached, and no operation changes the table. -/
theorem perform_frame (h : ∀ rules, op ≠ .inl (.install rules)) :
    let t' := (perform contents answer i op t).2
    t'.version = t.version ∧ t'.cachedRules = t.cachedRules ∧ t'.lastReload = t.lastReload ∧
      t'.installs = t.installs := by
  rcases op with op | op
  · cases op with
    | install rules => exact absurd rfl (h rules)
    | _ => exact ⟨rfl, rfl, rfl, rfl⟩
  · exact ⟨rfl, rfl, rfl, rfl⟩

/-- Only an evaluation that takes the cached rules is noted. -/
theorem perform_used (h : op ≠ .inl .cachedRules) :
    (perform contents answer i op t).2.used = t.used := by
  rcases op with op | op
  · cases op with
    | cachedRules => exact absurd rfl h
    | _ => rfl
  · rfl

/-- A call that held nothing holds the rules it has fetched, or has learned that there are some, or
is where it was. -/
theorem next_idle (hguar : loads.guar .idle op) (r : Except Exn (ServiceRet op)) :
    (∃ rules, (⟨op, r⟩ : Event ServiceRet Exn) = ⟨.inl .fetchActiveRules, .ok rules⟩ ∧
      LoadPhase.idle.next ⟨op, r⟩ = .holding rules) ∨
    ((⟨op, r⟩ : Event ServiceRet Exn) = ⟨.inl .isCold, .ok false⟩ ∧
      LoadPhase.idle.next ⟨op, r⟩ = .ready) ∨
    LoadPhase.idle.next ⟨op, r⟩ = .idle := by
  rcases op with op | op
  · cases op with
    | fetchActiveRules =>
      rcases r with e | rules
      · exact Or.inr (Or.inr rfl)
      · exact Or.inl ⟨rules, rfl, rfl⟩
    | isCold =>
      rcases r with e | _ | _
      · exact Or.inr (Or.inr rfl)
      · exact Or.inr (Or.inl ⟨rfl, rfl⟩)
      · exact Or.inr (Or.inr rfl)
    | install rules => exact hguar.elim
    | cachedRules => exact hguar.elim
    | time => exact Or.inr (Or.inr rfl)
    | loaded => exact Or.inr (Or.inr rfl)
  · exact Or.inr (Or.inr rfl)

end Operation

/-! ## What is cached and what is held -/

section Snapshots

variable {contents : ℕ → List RuleRow} {answer : (op : Op) → σ → Except Exn (Ret op) × σ}
  {first installs : ℕ} {qs : ι → Option LoadPhase} {t t' : RuleService ι σ} {i : ι}

/-- What calls hold, and what is cached after `installs` loads, are contents of the table from the
version `first` on. -/
structure Snapshots (contents : ℕ → List RuleRow) (first installs : ℕ) (qs : ι → Option LoadPhase)
    (t : RuleService ι σ) : Prop where
  version : first ≤ t.version
  holding : ∀ i rules, qs i = some (.holding rules) → Snapshot contents first t.version rules
  cached : installs < t.installs → Snapshot contents first t.version t.cachedRules

/-- A change of the service that adds no rules to it. -/
theorem Snapshots.frame (h : Snapshots contents first installs qs t) (hversion : t.version ≤ t'.version)
    (hcached : t'.cachedRules = t.cachedRules) (hinstalls : t'.installs = t.installs) :
    Snapshots contents first installs qs t' where
  version := h.version.trans hversion
  holding i rules hi := (h.holding i rules hi).mono hversion
  cached := by
    intro hlt
    rw [hinstalls] at hlt
    rw [hcached]
    exact (h.cached hlt).mono hversion

variable [DecidableEq ι]

/-- A call that holds nothing afterwards. -/
theorem Snapshots.update (h : Snapshots contents first installs qs t) {o : Option LoadPhase}
    (ho : ∀ rules, o = some (.holding rules) → Snapshot contents first t.version rules) :
    Snapshots contents first installs (Function.update qs i o) t where
  version := h.version
  holding := by
    intro j rules hj
    rcases Pool.update_cases hj with ⟨-, hnew⟩ | ⟨-, hold⟩
    · exact ho rules hnew
    · exact h.holding j rules hold
  cached := h.cached

/-- One operation. -/
theorem Snapshots.command (h : Snapshots contents first installs qs t) {q : LoadPhase} {op : ServiceOp}
    (hi : qs i = some q) (hguar : loads.guar q op) (d : Delivery Exn) :
    let x := d.outcome (perform contents answer i op t) t
    Snapshots contents first installs (Function.update qs i (some (q.next ⟨op, x.1⟩))) x.2 := by
  intro x
  cases q with
  | holding rules =>
    obtain rfl : op = .inl (.install rules) := hguar
    have hnext : ∀ rules', some (LoadPhase.next (.holding rules) ⟨.inl (.install rules), x.1⟩)
        ≠ some (.holding rules') := by
      intro rules' hq
      cases hx : x.1 with
      | ok u => rw [hx] at hq; cases hq
      | error e => rw [hx] at hq; cases hq
    have hstore : Snapshots contents first installs qs x.2 := by
      refine d.outcome_state (P := Snapshots contents first installs qs) ?_ h
      exact ⟨h.version, h.holding, fun _ => h.holding i rules hi⟩
    exact hstore.update fun rules' hq => absurd hq (hnext rules')
  | ready =>
    obtain rfl : op = .inl .cachedRules := hguar
    have hstore : Snapshots contents first installs qs x.2 := by
      refine d.outcome_state (P := Snapshots contents first installs qs) ?_ h
      exact h.frame le_rfl rfl rfl
    exact hstore.update fun rules' hq => by cases hq
  | idle =>
    have hop : ∀ rules, op ≠ .inl (.install rules) := by
      rintro rules rfl
      exact hguar
    obtain ⟨hversion, hcached, -, hinstalls⟩ :=
      perform_frame contents answer i t hop
    have hstore : Snapshots contents first installs qs x.2 :=
      d.outcome_state (P := Snapshots contents first installs qs)
        (h.frame hversion.ge hcached hinstalls) h
    refine hstore.update ?_
    intro rules hq
    rcases next_idle hguar x.1 with ⟨rules', hev, hnext⟩ | ⟨-, hnext⟩ | hnext
    -- the answered `SELECT` has read the version of now
    · rw [hnext] at hq
      cases hq
      obtain rfl : op = .inl .fetchActiveRules := congrArg Event.op hev
      obtain ⟨-, hreply⟩ := Event.mk.inj hev
      have hx : x.1 = .ok rules := eq_of_heq hreply
      cases d with
      | answered =>
        cases hx
        exact ⟨t.version, h.version, le_rfl, rfl⟩
      | unanswered e => cases hx
      | lost e => cases hx
    · rw [hnext] at hq
      cases hq
    · rw [hnext] at hq
      cases hq

omit [DecidableEq ι] in
/-- An operation does not take finished loads back. -/
theorem installs_le (op : ServiceOp) (d : Delivery Exn) :
    t.installs ≤ (d.outcome (perform contents answer i op t) t).2.installs := by
  refine d.outcome_state (P := fun t' : RuleService ι σ => t.installs ≤ t'.installs) ?_ le_rfl
  by_cases hop : ∃ rules, op = .inl (.install rules)
  · obtain ⟨rules, rfl⟩ := hop
    exact Nat.le_succ _
  · have hframe := perform_frame contents answer i t fun rules h => hop ⟨rules, h⟩
    exact hframe.2.2.2.ge

/-- The rules that evaluations have begun with, besides those noted before. -/
def Began (contents : ℕ → List RuleRow) (first : ℕ) (before : List (ι × List Rule))
    (t : RuleService ι σ) : Prop :=
  ∃ new, t.used = new ++ before ∧ ∀ x ∈ new, Snapshot contents first t.version x.2

omit [DecidableEq ι] in
theorem Began.frame {before : List (ι × List Rule)} (h : Began contents first before t)
    (hversion : t.version ≤ t'.version) (hused : t'.used = t.used) :
    Began contents first before t' := by
  obtain ⟨new, hnew, hrules⟩ := h
  exact ⟨new, hused.trans hnew, fun x hx => (hrules x hx).mono hversion⟩

omit [DecidableEq ι] in
/-- An evaluation that begins after a load begins with what it has brought in. -/
theorem Began.command {before : List (ι × List Rule)} (h : Began contents first before t)
    (hsnapshots : Snapshots contents first installs qs t) {q : LoadPhase} {op : ServiceOp}
    (hload : q = .ready → installs < t.installs) (hguar : loads.guar q op) (d : Delivery Exn) :
    Began contents first before (d.outcome (perform contents answer i op t) t).2 := by
  refine d.outcome_state (P := Began contents first before) ?_ h
  by_cases hop : op = .inl .cachedRules
  · subst hop
    obtain rfl : q = .ready := by
      cases q with
      | ready => rfl
      | idle => exact hguar.elim
      | holding rules => cases hguar
    obtain ⟨new, hnew, hrules⟩ := h
    refine ⟨(i, t.cachedRules) :: new, congrArg (List.cons _) hnew, ?_⟩
    intro x hx
    rcases List.mem_cons.mp hx with rfl | hx
    -- this evaluation takes what the last load has brought in
    · exact hsnapshots.cached (hload rfl)
    · exact hrules x hx
  · refine h.frame ?_ (perform_used hop)
    by_cases hinstall : ∃ rules, op = .inl (.install rules)
    · obtain ⟨rules, rfl⟩ := hinstall
      exact le_rfl
    · exact (perform_frame contents answer i t fun rules hr => hinstall ⟨rules, hr⟩).1.ge

end Snapshots

/-! ## From the start of the service -/

section Start

variable {contents : ℕ → List RuleRow} {answer : (op : Op) → σ → Except Exn (Ret op) × σ}
  {first : ℕ} {qs : ι → Option LoadPhase} {t : RuleService ι σ} {i : ι}

/-- A call that is ready knows of a load that has finished. -/
structure Warm (qs : ι → Option LoadPhase) (t : RuleService ι σ) : Prop where
  cold : t.installs = 0 → t.cachedRules = [] ∧ t.lastReload = none
  ready : ∀ i, qs i = some .ready → 0 < t.installs

variable [DecidableEq ι]

theorem Warm.command (h : Warm qs t) {q : LoadPhase} {op : ServiceOp} (hguar : loads.guar q op)
    (d : Delivery Exn) :
    let x := d.outcome (perform contents answer i op t) t
    Warm (Function.update qs i (some (q.next ⟨op, x.1⟩))) x.2 := by
  intro x
  have hle : t.installs ≤ x.2.installs := installs_le op d
  refine ⟨?_, ?_⟩
  · intro hzero
    refine d.outcome_state
      (P := fun t' : RuleService ι σ => t'.installs = 0 →
        t'.cachedRules = [] ∧ t'.lastReload = none) ?_ h.cold hzero
    intro hzero'
    by_cases hop : ∃ rules, op = .inl (.install rules)
    · obtain ⟨rules, rfl⟩ := hop
      cases hzero'
    · obtain ⟨-, hcached, hreload, hinstalls⟩ :=
        perform_frame contents answer i t fun rules hr => hop ⟨rules, hr⟩
      rw [hcached, hreload]
      rw [hinstalls] at hzero'
      exact h.cold hzero'
  · intro j hj
    rcases Pool.update_cases hj with ⟨-, hnew⟩ | ⟨-, hold⟩
    · rw [Option.some_inj] at hnew
      cases q with
      | holding rules =>
        obtain rfl : op = .inl (.install rules) := hguar
        cases d with
        -- its own load has finished
        | answered => exact Nat.succ_pos _
        | unanswered e => cases hnew
        | lost e => cases hnew
      | ready =>
        obtain rfl : op = .inl .cachedRules := hguar
        cases hnew
      | idle =>
        rcases next_idle hguar x.1 with ⟨rules, -, hnext⟩ | ⟨hev, -⟩ | hnext
        · rw [hnext] at hnew
          cases hnew
        · -- the check has found rules or the time of a load
          obtain rfl : op = .inl .isCold := congrArg Event.op hev
          obtain ⟨-, hreply⟩ := Event.mk.inj hev
          have hx : x.1 = .ok false := eq_of_heq hreply
          cases d with
          | answered =>
            refine Nat.pos_of_ne_zero ?_
            intro hzero
            obtain ⟨hcached, hreload⟩ := h.cold hzero
            have hcold : (t.cachedRules.isEmpty && t.lastReload.isNone) = false :=
              Except.ok.inj hx
            rw [hcached, hreload] at hcold
            cases hcold
          | unanswered e => cases hx
          | lost e => cases hx
        · rw [hnext] at hnew
          cases hnew
    · exact (h.ready j hold).trans_le hle

/-- A phase that a call begins with, or leaves. -/
theorem Warm.update (h : Warm qs t) {o : Option LoadPhase} (ho : o ≠ some .ready) :
    Warm (Function.update qs i o) t where
  cold := h.cold
  ready := by
    intro j hj
    rcases Pool.update_cases hj with ⟨-, hnew⟩ | ⟨-, hold⟩
    · exact absurd hnew ho
    · exact h.ready j hold

end Start

end RuleService

/-! ## Runs -/

section Runs

open RuleService

variable [DecidableEq ι] {py : PyLib} {contents : ℕ → List RuleRow}
  {answer : (op : Op) → σ → Except Exn (Ret op) × σ} {calls : ι → ServiceCall}
  {ok : Pool ι (RuleService ι σ) ServiceRet Exn Response → Happening ι ServiceOp Exn → Prop}

/-- What calls hold and what is cached, in a run. -/
theorem snapshots_run {first installs : ℕ} {s s' : Pool ι (RuleService ι σ) ServiceRet Exn Response}
    {qs : ι → Option LoadPhase} (hmeets : Pool.Meets loads (fun _ _ => True) s.tasks qs)
    (h : Snapshots contents first installs qs s.shared)
    (hrun : Pool.Run (ruleService py contents answer calls) ok s s') :
    ∃ qs', Pool.Meets loads (fun _ _ => True) s'.tasks qs' ∧
      Snapshots contents first installs qs' s'.shared := by
  refine Pool.invariant (Snapshots contents first installs) ?_ ?_ ?_ ?_ ?_ hmeets h hrun
  · intro qs t i h _
    exact ⟨.idle, wp_serviceCall py _, h.update (by rintro _ ⟨⟩)⟩
  · intro qs s i q op d h hi hguar _
    exact ⟨_, rfl, h.command hi hguar d⟩
  · intro qs t i q r h _ _
    exact h.update (by rintro _ ⟨⟩)
  · intro qs s i p q h _ _ _ _
    exact h.update (by rintro _ ⟨⟩)
  · rintro qs t t' h ⟨now, version, redis, -, hversion, rfl⟩
    exact h.frame hversion rfl rfl

omit [DecidableEq ι] in
/-- The service before its first call holds no rules. -/
theorem snapshots_cold (now : ℚ) (version : ℕ) (redis : σ) :
    Snapshots contents version 0 (fun _ : ι => none)
      (coldService now version redis : Pool ι _ ServiceRet Exn Response).shared := by
  refine ⟨le_rfl, ?_, ?_⟩
  · intro i rules hi
    cases hi
  · intro h
    exact absurd h (Nat.lt_irrefl 0)

omit [DecidableEq ι] in
theorem warm_cold (now : ℚ) (version : ℕ) (redis : σ) : Warm (fun _ : ι => none)
    (coldService now version redis : Pool ι _ ServiceRet Exn Response).shared := by
  refine ⟨fun _ => ⟨rfl, rfl⟩, ?_⟩
  intro i hi
  cases hi

/-- What evaluations begin with, in a run from the start of the service. -/
theorem began_run {first : ℕ} {s s' : Pool ι (RuleService ι σ) ServiceRet Exn Response}
    {qs : ι → Option LoadPhase} (hmeets : Pool.Meets loads (fun _ _ => True) s.tasks qs)
    (h : Snapshots contents first 0 qs s.shared ∧ Warm qs s.shared ∧
      Began contents first [] s.shared)
    (hrun : Pool.Run (ruleService py contents answer calls) ok s s') :
    Began contents first [] s'.shared := by
  have hready : (none : Option LoadPhase) ≠ some .ready := by
    intro h
    cases h
  have hinvariant : ∃ qs', Pool.Meets loads (fun _ _ => True) s'.tasks qs' ∧
      Snapshots contents first 0 qs' s'.shared ∧ Warm qs' s'.shared ∧
        Began contents first [] s'.shared := by
    refine Pool.invariant (fun qs t => Snapshots contents first 0 qs t ∧ Warm qs t ∧
      Began contents first [] t) ?_ ?_ ?_ ?_ ?_ hmeets h hrun
    · rintro qs t i ⟨hsnapshots, hwarm, hbegan⟩ _
      refine ⟨.idle, wp_serviceCall py _, hsnapshots.update (by rintro _ ⟨⟩), ?_, hbegan⟩
      exact hwarm.update (by intro h; cases h)
    · rintro qs s i q op d ⟨hsnapshots, hwarm, hbegan⟩ hi hguar _
      refine ⟨_, rfl, hsnapshots.command hi hguar d, hwarm.command hguar d, ?_⟩
      refine hbegan.command hsnapshots ?_ hguar d
      rintro rfl
      exact hwarm.ready i hi
    · rintro qs t i q r ⟨hsnapshots, hwarm, hbegan⟩ _ _
      exact ⟨hsnapshots.update (by rintro _ ⟨⟩), hwarm.update hready, hbegan⟩
    · rintro qs s i p q ⟨hsnapshots, hwarm, hbegan⟩ _ _ _ _
      exact ⟨hsnapshots.update (by rintro _ ⟨⟩), hwarm.update hready, hbegan⟩
    · rintro qs t t' ⟨hsnapshots, hwarm, hbegan⟩ ⟨now, version', redis, -, hversion, rfl⟩
      exact ⟨hsnapshots.frame hversion rfl rfl, ⟨hwarm.cold, hwarm.ready⟩,
        hbegan.frame hversion rfl⟩
  obtain ⟨-, -, -, -, hbegan⟩ := hinvariant
  exact hbegan

/-- Whatever runs side by side, fails or dies, every evaluation begins with the active rules of a
content the table has had since the service started: never with the empty cache of a cold start. -/
theorem used_snapshots (py : PyLib) (contents : ℕ → List RuleRow)
    (answer : (op : Op) → σ → Except Exn (Ret op) × σ) (calls : ι → ServiceCall) (now : ℚ)
    (version : ℕ) (redis : σ) (s : Pool ι (RuleService ι σ) ServiceRet Exn Response)
    (hrun : Pool.Run (ruleService py contents answer calls) (fun _ _ => True)
      (coldService now version redis) s) :
    ∀ x ∈ s.shared.used, Snapshot contents version s.shared.version x.2 := by
  obtain ⟨new, hnew, hrules⟩ := began_run (fun _ => Or.inl ⟨rfl, rfl⟩)
    ⟨snapshots_cold now version redis, warm_cold now version redis, [], rfl, by simp⟩ hrun
  intro x hx
  rw [hnew, List.append_nil] at hx
  exact hrules x hx

/-! ### An edit, a reload and an evaluation -/

/-- The row of the rule on amounts greater than $10,000. -/
def highAmountRow : RuleRow where
  id := "1"
  ruleName := "HIGH_AMOUNT_TXN"
  category := "amount"
  severity := "HIGH"
  scoreContribution := .number 6000 (by decide)
  conditions := highAmountTxn.conditions
  isActive := some true

/-- A table that is empty until the row is inserted. -/
def oneEdit (version : ℕ) : List RuleRow := if version = 0 then [] else [highAmountRow]

/-- A call of `/reload`, and a call that evaluates a payment. -/
def reloadAndEvaluate : Bool → ServiceCall
  | true => .triggerReload
  | false => .evaluateRules (.payment "c-1" 20000)

/-- A Redis that counts one whenever it is asked. -/
def countsOne : (op : Op) → Unit → Except Exn (Ret op) × Unit
  | .incr _, t => (.ok 1, t)
  | .expire _ _, t => (.ok (), t)

/-- The calls on the service. -/
def editedService : Setting Bool (RuleService Bool Unit) ServiceRet Exn Response :=
  ruleService compactRules.toPyLib oneEdit countsOne reloadAndEvaluate

/-- What a call leaves if all it asks for is answered, up to an operation. -/
def afterCallOf (call : Bool) (operations : ℕ) (t : RuleService Bool Unit) : RuleService Bool Unit :=
  Pool.script (editedService.perform call) (editedService.program call)
    (List.replicate operations .answered) t

/-- A call runs. -/
theorem run_afterCallOf (call : Bool) (operations : ℕ) (t : RuleService Bool Unit) :
    Pool.Run editedService (fun _ _ => True) ⟨fun _ => none, t⟩
      ⟨fun _ => none, afterCallOf call operations t⟩ :=
  Pool.run_task rfl trivial (Pool.fares_of_started (fun _ _ _ => trivial) _ _ _ _)

theorem used_snapshots_edited :
    let t := afterCallOf false 5 (coldService 0 1 () : Pool Bool _ ServiceRet Exn Response).shared
    t.used = [(false, [highAmountRow.toRule])] ∧
      ∀ x ∈ t.used, Snapshot oneEdit 1 t.version x.2 :=
  ⟨rfl, used_snapshots _ _ _ _ 0 1 () ⟨fun _ => none, _⟩ (run_afterCallOf false 5 _)⟩

variable (contents) in
omit [DecidableEq ι] in
/-- From a state in which no call holds rules, every load brings in a content of the table from then
on. -/
theorem meets_noneFetched {s : Pool ι (RuleService ι σ) ServiceRet Exn Response}
    {qs : ι → Option LoadPhase} (hmeets : Pool.Meets loads (fun _ _ => True) s.tasks qs)
    (hnone : NoneFetched s) :
    ∃ qs', Pool.Meets loads (fun _ _ => True) s.tasks qs' ∧
      Snapshots contents s.shared.version s.shared.installs qs' s.shared := by
  refine ⟨fun i => (qs i).map LoadPhase.dropped, ?_, ?_⟩
  · intro i
    dsimp only
    rcases hmeets i with ⟨hp, hq⟩ | ⟨p, q, hp, hq, hwp⟩
    · exact Or.inl ⟨hp, by rw [hq]; rfl⟩
    · refine Or.inr ⟨p, q.dropped, hp, by rw [hq]; rfl, ?_⟩
      cases q with
      | idle => exact hwp
      | ready => exact hwp
      | holding rules =>
        -- it installs them next, or has nothing left to do
        cases p with
        | pure a => trivial
        | raise e => trivial
        | call op k =>
          obtain rfl : op = .inl (.install rules) := hwp.1
          exact absurd hp (hnone i rules k)
  · refine ⟨le_rfl, ?_, fun h => absurd h (Nat.lt_irrefl _)⟩
    intro i rules hi
    obtain ⟨q, -, hq⟩ := Option.map_eq_some_iff.mp hi
    cases q <;> cases hq

/-- A load that finishes after a state in which no call holds rules is visible to every evaluation
that begins after it: each begins with a content the table has had since that state. -/
theorem reload_barrier (py : PyLib) (contents : ℕ → List RuleRow)
    (answer : (op : Op) → σ → Except Exn (Ret op) × σ) (calls : ι → ServiceCall) (now : ℚ)
    (version : ℕ) (redis : σ) (s₀ s₁ s₂ : Pool ι (RuleService ι σ) ServiceRet Exn Response)
    (hreached : Pool.Run (ruleService py contents answer calls) (fun _ _ => True)
      (coldService now version redis) s₀)
    (hnone : NoneFetched s₀)
    (hloaded : Pool.Run (ruleService py contents answer calls) (fun _ _ => True) s₀ s₁)
    (hinstalls : s₀.shared.installs < s₁.shared.installs)
    (hrun : Pool.Run (ruleService py contents answer calls) (fun _ _ => True) s₁ s₂) :
    ∃ new, s₂.shared.used = new ++ s₁.shared.used ∧
      ∀ x ∈ new, Snapshot contents s₀.shared.version s₂.shared.version x.2 := by
  obtain ⟨_, hmeets, -⟩ := snapshots_run (fun _ => Or.inl ⟨rfl, rfl⟩)
    (snapshots_cold now version redis) hreached
  obtain ⟨_, hmeets, hsnapshots⟩ := meets_noneFetched contents hmeets hnone
  obtain ⟨qs, hmeets, hsnapshots⟩ := snapshots_run hmeets hsnapshots hloaded
  have hinvariant : ∃ qs', Pool.Meets loads (fun _ _ => True) s₂.tasks qs' ∧
      Snapshots contents s₀.shared.version s₀.shared.installs qs' s₂.shared ∧
        s₀.shared.installs < s₂.shared.installs ∧
          Began contents s₀.shared.version s₁.shared.used s₂.shared := by
    refine Pool.invariant (fun qs t => Snapshots contents s₀.shared.version s₀.shared.installs qs t ∧
      s₀.shared.installs < t.installs ∧ Began contents s₀.shared.version s₁.shared.used t)
      ?_ ?_ ?_ ?_ ?_ hmeets ⟨hsnapshots, hinstalls, [], rfl, by simp⟩ hrun
    · rintro qs t i ⟨hsnapshots, hrest⟩ _
      exact ⟨.idle, wp_serviceCall py _, hsnapshots.update (by rintro _ ⟨⟩), hrest⟩
    · rintro qs s i q op d ⟨hsnapshots, hlt, hbegan⟩ hi hguar _
      exact ⟨_, rfl, hsnapshots.command hi hguar d, hlt.trans_le (installs_le op d),
        hbegan.command hsnapshots (fun _ => hlt) hguar d⟩
    · rintro qs t i q r ⟨hsnapshots, hrest⟩ _ _
      exact ⟨hsnapshots.update (by rintro _ ⟨⟩), hrest⟩
    · rintro qs s i p q ⟨hsnapshots, hrest⟩ _ _ _ _
      exact ⟨hsnapshots.update (by rintro _ ⟨⟩), hrest⟩
    · rintro qs t t' ⟨hsnapshots, hlt, hbegan⟩ ⟨now, version', redis, -, hversion, rfl⟩
      exact ⟨hsnapshots.frame hversion rfl rfl, hlt, hbegan.frame hversion rfl⟩
  obtain ⟨-, -, -, -, hbegan⟩ := hinvariant
  exact hbegan

/-- The service after an evaluation that has found no rules, once the row is inserted. -/
def beforeReload : RuleService Bool Unit :=
  { afterCallOf false 5 (coldService 0 0 () : Pool Bool _ ServiceRet Exn Response).shared with
    version := 1 }

theorem run_beforeReload : Pool.Run editedService (fun _ _ => True) (coldService 0 0 ())
    ⟨fun _ => none, beforeReload⟩ :=
  (run_afterCallOf false 5 _).tail
    ⟨.drift, trivial, .drift _ ⟨_, 1, (), le_rfl, Nat.zero_le 1, rfl⟩⟩

theorem reload_barrier_edited :
    let t₁ := afterCallOf true 2 beforeReload
    let t₂ := afterCallOf false 5 t₁
    t₁.used = [(false, [])] ∧ t₂.used = [(false, [highAmountRow.toRule]), (false, [])] ∧
      ∃ new, t₂.used = new ++ t₁.used ∧ ∀ x ∈ new, Snapshot oneEdit 1 t₂.version x.2 :=
  ⟨rfl, rfl, reload_barrier _ _ _ _ 0 0 () ⟨fun _ => none, beforeReload⟩ ⟨fun _ => none, _⟩
    ⟨fun _ => none, _⟩ run_beforeReload (fun _ _ _ h => by cases h) (run_afterCallOf true 2 _)
    Nat.one_lt_two (run_afterCallOf false 5 _)⟩

end Runs

end FraudDetection.Rules
