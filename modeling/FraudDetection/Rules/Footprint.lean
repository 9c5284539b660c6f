import FraudDetection.Python.Split
import FraudDetection.Rules.Evaluator

/-!
# What a rule touches

A velocity rule reads and writes one key, named by its entity and the entity's value; other rules
touch none. Rules on different entities do not disturb each other: each of them finds the store as
it was when the evaluation began.

`asks_evaluateRule` bounds the commands of a rule by its footprint, and `run_congr` and `run_frame`
turn such a bound into what a run depends on and what it leaves alone. `walk_eq` describes the loop
over independent rules by what each rule comes to on its own.
-/

namespace FraudDetection.Rules

open Async Python Store Floats

/-! ## Programs with a footprint -/

/-- The key a command acts on. -/
def Op.key : Op → String
  | .incr key => key
  | .expire key _ => key

section Local

variable {lib : RuleLib} {now : ℚ} {op : Op} {ks ks' : RedisStore}

/-- A command leaves the other keys alone. -/
theorem answer_frame {k : String} (h : k ≠ op.key) : (answer lib now op ks).2 k = ks k := by
  cases op with
  | incr key =>
      show (incr now key ks).2 k = ks k
      unfold incr
      split
      · exact Keyspace.set_of_ne _ h _ _
      · split
        · exact Keyspace.set_of_ne _ h _ _
        · rfl
      · rfl
  | expire key seconds =>
      show (expire lib now key seconds ks).2 k = ks k
      unfold expire
      split
      · exact (Keyspace.ActsOn.expireAt now key _).frame ks k h
      · rfl

/-- The reply to a command and what it leaves under its key depend on that key alone. -/
theorem answer_congr (h : ks op.key = ks' op.key) :
    (answer lib now op ks).1 = (answer lib now op ks').1 ∧
      (answer lib now op ks).2 op.key = (answer lib now op ks').2 op.key := by
  cases op with
  | incr key =>
      show (incr now key ks).1 = (incr now key ks').1 ∧
        (incr now key ks).2 key = (incr now key ks').2 key
      have hfound : ks.find? now key = ks'.find? now key := Keyspace.find?_congr h now
      unfold incr
      rw [hfound]
      split
      · exact ⟨rfl, by simp⟩
      · split
        · exact ⟨rfl, by simp⟩
        · exact ⟨rfl, h⟩
      · exact ⟨rfl, h⟩
  | expire key seconds =>
      show (expire lib now key seconds ks).1 = (expire lib now key seconds ks').1 ∧
        (expire lib now key seconds ks).2 key = (expire lib now key seconds ks').2 key
      unfold expire
      split
      · exact ⟨rfl, (Keyspace.ActsOn.expireAt now key _).congr ks ks' h⟩
      · exact ⟨rfl, h⟩

variable {α : Type} {p : Coroutine α} {foot : Option String}

/-- A program leaves the keys outside its footprint alone. -/
theorem run_frame (hp : p.Asks fun op => foot = some op.key) {k : String} (hk : foot ≠ some k) :
    (p.run (answer lib now) ks).final k = ks k := by
  refine Prog.final_of_steps (fun ks : RedisStore => ks k) ?_
  intro st hst
  have hasked := hp.run (answer lib now) ks st.event (List.mem_map_of_mem hst)
  apply answer_frame
  rintro rfl
  exact hk hasked

/-- What a program returns, and what it leaves in its footprint, depends on its footprint alone. -/
theorem run_congr (hp : p.Asks fun op => foot = some op.key)
    (h : ∀ k, foot = some k → ks k = ks' k) :
    (p.run (answer lib now) ks).result = (p.run (answer lib now) ks').result ∧
      ∀ k, foot = some k →
        (p.run (answer lib now) ks).final k = (p.run (answer lib now) ks').final k := by
  induction p generalizing ks ks' with
  | pure a => exact ⟨rfl, h⟩
  | raise x => exact ⟨rfl, h⟩
  | call op c ih =>
      obtain ⟨hfoot, hnext⟩ := hp
      obtain ⟨hreply, hkey⟩ := @answer_congr lib now op ks ks' (h op.key hfoot)
      simp only [Prog.run]
      rw [hreply]
      refine ih _ (hnext _) ?_
      intro k hk
      rw [hfoot] at hk
      cases hk
      exact hkey

end Local

/-! ## The footprint of a rule -/

/-- The entity that a velocity rule names. -/
def Rule.velocityEntity (rule : Rule) : Option String :=
  match rule.conditions with
  | .dict fs =>
      match fs.lookup "type", fs.lookup "entity" with
      | some (.str "velocity"), some (.str entity) => some entity
      | _, _ => none
  | _ => none

/-- An entry of a rule's conditions, or its default. -/
def Rule.condition (rule : Rule) (key : String) (default : Json) : Json :=
  match rule.conditions with
  | .dict fs => (fs.lookup key).getD default
  | _ => default

/-- The window of a velocity rule. -/
def Rule.windowSeconds (rule : Rule) : Json := rule.condition "window_seconds" (.int 86400)

/-- The limit of a velocity rule. -/
def Rule.limit (rule : Rule) : Json := rule.condition "limit" (.int 5)

/-- The key that a rule counts a transaction under. -/
def Rule.footprint (py : PyLib) (ctx : TransactionContext) (rule : Rule) : Option String := do
  let entity ← rule.velocityEntity
  let value ← ctx.attr entity
  if value.truthy then some (velocityKey py entity value) else none

section Footprint

variable {py : PyLib} {ctx : TransactionContext} {rule : Rule} {entity : String}

theorem footprint_eq_some {k : String} : rule.footprint py ctx = some k ↔
    ∃ entity value, rule.velocityEntity = some entity ∧ ctx.attr entity = some value ∧
      value.truthy = true ∧ k = velocityKey py entity value := by
  unfold Rule.footprint
  constructor
  · intro h
    cases hentity : rule.velocityEntity with
    | none => simp [hentity] at h
    | some entity =>
        cases hvalue : ctx.attr entity with
        | none => simp [hentity, hvalue] at h
        | some value =>
            by_cases htruthy : value.truthy = true
            · simp [hentity, hvalue, htruthy] at h
              exact ⟨entity, value, rfl, hvalue, htruthy, h.symm⟩
            · simp [hentity, hvalue, htruthy] at h
  · rintro ⟨entity, value, hentity, hvalue, htruthy, rfl⟩
    simp [hentity, hvalue, htruthy]

/-- A rule that names an entity is evaluated as a velocity rule on it. -/
theorem evaluateRule_velocity (h : rule.velocityEntity = some entity) :
    evaluateRule py rule.conditions ctx = evaluateVelocity py rule.conditions ctx ∧
      rule.conditions.get "entity" .null = .ok (.str entity) ∧
      rule.conditions.get "window_seconds" (.int 86400) = .ok rule.windowSeconds ∧
      rule.conditions.get "limit" (.int 5) = .ok rule.limit := by
  unfold Rule.velocityEntity at h
  unfold Rule.windowSeconds Rule.limit Rule.condition
  split at h
  · rename_i fs hconditions
    split at h
    · rename_i htype hlookup
      cases h
      simp only [hconditions, evaluateRule, Json.get_dict, Prog.lift_ok, pure_bind, htype, hlookup,
        Option.getD_some, true_and]
    · cases h
  · cases h

/-- It calls `check_velocity` if the entity has a value. -/
theorem evaluateRule_of_truthy {value : Attr} (h : rule.velocityEntity = some entity)
    (hvalue : ctx.attr entity = some value) (htruthy : value.truthy = true) :
    evaluateRule py rule.conditions ctx =
      (checkVelocity py entity value rule.windowSeconds rule.limit).bind fun isExceeded =>
        pure (isExceeded, if isExceeded then "Velocity exceeded limit " ++ py.str rule.limit
          ++ " within " ++ py.str rule.windowSeconds ++ "s for " ++ entity else "") := by
  obtain ⟨hrule, hentity, hwindow, hlimit⟩ := @evaluateRule_velocity py ctx rule entity h
  rw [hrule, evaluateVelocity, hentity, hwindow, hlimit]
  simp only [Prog.lift_ok, pure_bind, TransactionContext.getattr, hvalue, htruthy, if_true,
    py.str_str]
  rfl

/-- It does not match otherwise. -/
theorem evaluateRule_of_footprint_none (h : rule.velocityEntity = some entity)
    (hfoot : rule.footprint py ctx = none) :
    evaluateRule py rule.conditions ctx = pure (false, "") := by
  obtain ⟨hrule, hentity, hwindow, hlimit⟩ := @evaluateRule_velocity py ctx rule entity h
  rw [hrule, evaluateVelocity, hentity, hwindow, hlimit]
  simp only [Prog.lift_ok, pure_bind, TransactionContext.getattr]
  cases hvalue : ctx.attr entity with
  | none => rfl
  | some value =>
      by_cases htruthy : value.truthy = true
      · have hsome : rule.footprint py ctx = some (velocityKey py entity value) :=
          footprint_eq_some.mpr ⟨entity, value, h, hvalue, htruthy, rfl⟩
        rw [hsome] at hfoot
        cases hfoot
      · simp only [if_neg htruthy]

/-- A string does not come from the default `None`. -/
theorem eq_some_of_getD_null {o : Option Json} {s : String} (h : o.getD .null = .str s) :
    o = some (.str s) := by
  cases o with
  | none => cases h
  | some v => exact congrArg some h

/-- A rule that names no entity sends no commands. -/
theorem asks_evaluateRule_of_none (h : rule.velocityEntity = none) :
    (evaluateRule py rule.conditions ctx).Asks fun _ => False := by
  unfold Rule.velocityEntity at h
  unfold evaluateRule
  cases hconditions : rule.conditions with
  | dict fs =>
      rw [Json.get_dict, Prog.lift_ok, pure_bind]
      split
      · exact Prog.asks_lift _
      · rename_i htype
        have hlookup := eq_some_of_getD_null htype
        unfold evaluateVelocity
        simp only [Json.get_dict, Prog.lift_ok, pure_bind]
        cases hentity : (fs.lookup "entity").getD .null with
        | str entity =>
            have hfound := eq_some_of_getD_null hentity
            simp only [hconditions, hlookup, hfound] at h
            cases h
        | _ => trivial
      · trivial
  | _ => trivial

theorem asks_checkVelocity (entityType : String) (entityValue : Attr) (windowSeconds limit : Json) :
    (checkVelocity py entityType entityValue windowSeconds limit).Asks
      fun op => op.key = velocityKey py entityType entityValue := by
  unfold checkVelocity
  refine Prog.Asks.bind (Prog.asks_await ?_) ?_
  · rfl
  · intro n
    split
    · refine Prog.Asks.bind (Prog.asks_await ?_) fun _ => Prog.asks_lift _
      rfl
    · exact Prog.asks_lift _

/-- A rule sends commands for its footprint only. -/
theorem asks_evaluateRule (rule : Rule) : (evaluateRule py rule.conditions ctx).Asks
    fun op => rule.footprint py ctx = some op.key := by
  cases hentity : rule.velocityEntity with
  | none => exact (asks_evaluateRule_of_none hentity).mono fun op hno => hno.elim
  | some entity =>
      cases hfoot : rule.footprint py ctx with
      | none =>
          rw [evaluateRule_of_footprint_none hentity hfoot]
          trivial
      | some k =>
          obtain ⟨entity', value, hentity', hvalue, htruthy, rfl⟩ := footprint_eq_some.mp hfoot
          rw [evaluateRule_of_truthy hentity' hvalue htruthy]
          refine Prog.Asks.bind ((asks_checkVelocity _ _ _ _).mono ?_) ?_
          · intro op hop
            rw [hop]
          · intro isExceeded
            trivial

/-- The key of a counter determines the entity, and the text of the entity's value. -/
theorem velocityKey_inj {ctx' : TransactionContext} {entity entity' : String} {value value' : Attr}
    (h : ctx.attr entity = some value) (h' : ctx'.attr entity' = some value')
    (hkey : velocityKey py entity value = velocityKey py entity' value') :
    entity = entity' ∧ value.text py = value'.text py := by
  have hcolon : ":".toList = [':'] := by simp
  have htext := congrArg String.toList hkey
  simp only [velocityKey, String.toList_append, hcolon, List.append_assoc] at htext
  obtain ⟨hentity, hvalue⟩ := sep_append_inj (TransactionContext.colon_notMem h)
    (TransactionContext.colon_notMem h') (List.append_cancel_left htext)
  exact ⟨String.toList_inj.mp hentity, String.toList_inj.mp hvalue⟩

end Footprint

/-! ## Independent rules -/

/-- The list up to and including the first element that satisfies `p`. -/
def upTo {α : Type} (p : α → Bool) : List α → List α
  | [] => []
  | a :: l => if p a then [a] else a :: upTo p l

section UpTo

variable {α : Type} {p q : α → Bool}

theorem upTo_congr {l : List α} (h : ∀ a ∈ l, p a = q a) : upTo p l = upTo q l := by
  induction l with
  | nil => rfl
  | cons a l ih =>
      rw [upTo, upTo, h a List.mem_cons_self, ih fun b hb => h b (List.mem_cons_of_mem a hb)]

/-- Without such an element it is the whole list. -/
theorem upTo_eq_self {l : List α} (h : ∀ a ∈ l, p a = false) : upTo p l = l := by
  induction l with
  | nil => rfl
  | cons a l ih =>
      rw [upTo, h a List.mem_cons_self, ih fun b hb => h b (List.mem_cons_of_mem a hb)]
      rfl

theorem upTo_isPrefix (l : List α) : upTo p l <+: l := by
  induction l with
  | nil => exact List.prefix_rfl
  | cons a l ih =>
      rw [upTo]
      split
      · exact List.prefix_cons_inj a |>.mpr (List.nil_prefix)
      · exact (List.prefix_cons_inj a).mpr ih

/-- It has such an element if the list has one. -/
theorem exists_mem_upTo {l : List α} : (∃ a ∈ upTo p l, p a = true) ↔ ∃ a ∈ l, p a = true := by
  induction l with
  | nil => exact Iff.rfl
  | cons a l ih =>
      rw [upTo]
      by_cases ha : p a = true
      · simp [ha]
      · simp [ha, ih]

end UpTo

section Independent

variable (lib : RuleLib) (now : ℚ) (ctx : TransactionContext)

/-- No two rules count the transaction under the same key. -/
def Independent (rules : List Rule) : Prop :=
  rules.Pairwise fun r r' => ∀ k,
    r.footprint lib.toPyLib ctx = some k → r'.footprint lib.toPyLib ctx ≠ some k

/-- The description with which a rule matches in a store. -/
def matchIn (ks : RedisStore) (rule : Rule) : Option String :=
  matched (evaluation lib.toPyLib (answer lib now) ctx rule ks).result

/-- The store after a rule. -/
def afterRule (ks : RedisStore) (rule : Rule) : RedisStore :=
  (evaluation lib.toPyLib (answer lib now) ctx rule ks).final

/-- Whether a rule matches in a store and ends the evaluation. -/
def criticalIn (ks : RedisStore) (rule : Rule) : Bool :=
  rule.severity = "CRITICAL" && (matchIn lib now ctx ks rule).isSome

/-- The rules that are evaluated, if none disturbs another. -/
def evaluatedIn (ks : RedisStore) (rules : List Rule) : List Rule :=
  upTo (criticalIn lib now ctx ks) rules

variable {lib now ctx} {ks ks' : RedisStore} {rule rule' : Rule}

section Equations

variable {rules : List Rule} {description : String}

/-- A rule that does not match leaves the loop to the rest. -/
theorem walk_skip (h : matchIn lib now ctx ks rule = none) :
    walk lib.toPyLib (answer lib now) ctx (rule :: rules) ks
      = walk lib.toPyLib (answer lib now) ctx rules (afterRule lib now ctx ks rule) :=
  walk_of_none h

/-- A match of severity `CRITICAL` ends the loop. -/
theorem walk_stop (h : matchIn lib now ctx ks rule = some description)
    (hcritical : rule.severity = "CRITICAL") :
    walk lib.toPyLib (answer lib now) ctx (rule :: rules) ks
      = ([(rule, description)], afterRule lib now ctx ks rule) :=
  walk_of_critical h hcritical

/-- After any other match it goes on. -/
theorem walk_go (h : matchIn lib now ctx ks rule = some description)
    (hcritical : rule.severity ≠ "CRITICAL") :
    walk lib.toPyLib (answer lib now) ctx (rule :: rules) ks
      = ((rule, description) ::
          (walk lib.toPyLib (answer lib now) ctx rules (afterRule lib now ctx ks rule)).1,
        (walk lib.toPyLib (answer lib now) ctx rules (afterRule lib now ctx ks rule)).2) :=
  walk_of_match h hcritical

end Equations

/-- Velocity rules on different entities are independent. -/
theorem independent_of_entities {rules : List Rule} (h : rules.Pairwise fun r r' => ∀ entity,
    r.velocityEntity = some entity → r'.velocityEntity ≠ some entity) :
    Independent lib ctx rules := by
  refine h.imp ?_
  intro r r' hentities k hr hr'
  obtain ⟨entity, value, hentity, hvalue, -, rfl⟩ := footprint_eq_some.mp hr
  obtain ⟨entity', value', hentity', hvalue', -, hkey⟩ := footprint_eq_some.mp hr'
  obtain ⟨rfl, -⟩ := velocityKey_inj hvalue hvalue' hkey
  exact hentities entity hentity hentity'

theorem afterRule_frame {k : String} (h : rule.footprint lib.toPyLib ctx ≠ some k) :
    afterRule lib now ctx ks rule k = ks k := run_frame (asks_evaluateRule rule) h

theorem matchIn_congr (h : ∀ k, rule.footprint lib.toPyLib ctx = some k → ks k = ks' k) :
    matchIn lib now ctx ks rule = matchIn lib now ctx ks' rule :=
  congrArg matched (run_congr (asks_evaluateRule rule) h).1

theorem afterRule_congr (h : ∀ k, rule.footprint lib.toPyLib ctx = some k → ks k = ks' k) {k : String}
    (hk : rule.footprint lib.toPyLib ctx = some k) :
    afterRule lib now ctx ks rule k = afterRule lib now ctx ks' rule k :=
  (run_congr (asks_evaluateRule rule) h).2 k hk

/-- A rule finds what it would have found before an independent one. -/
theorem matchIn_afterRule (h : ∀ k, rule.footprint lib.toPyLib ctx = some k →
    rule'.footprint lib.toPyLib ctx ≠ some k) :
    matchIn lib now ctx (afterRule lib now ctx ks rule) rule' = matchIn lib now ctx ks rule' := by
  apply matchIn_congr
  intro k hk
  exact afterRule_frame fun hrule => h k hrule hk

/-- Independent rules commute. -/
theorem afterRule_comm (h : ∀ k, rule.footprint lib.toPyLib ctx = some k →
    rule'.footprint lib.toPyLib ctx ≠ some k) :
    afterRule lib now ctx (afterRule lib now ctx ks rule) rule'
      = afterRule lib now ctx (afterRule lib now ctx ks rule') rule := by
  funext k
  by_cases hrule : rule.footprint lib.toPyLib ctx = some k
  · rw [afterRule_frame (h k hrule)]
    refine (afterRule_congr ?_ hrule).symm
    intro k' hk'
    exact afterRule_frame (h k' hk')
  · rw [afterRule_frame hrule]
    by_cases hrule' : rule'.footprint lib.toPyLib ctx = some k
    · refine afterRule_congr ?_ hrule'
      intro k' hk'
      exact afterRule_frame fun hk => h k' hk hk'
    · rw [afterRule_frame hrule', afterRule_frame hrule', afterRule_frame hrule]

/-- The loop over independent rules: each of them comes to what it comes to on its own. -/
theorem walk_eq {rules : List Rule} (h : Independent lib ctx rules) (ks : RedisStore) :
    walk lib.toPyLib (answer lib now) ctx rules ks =
      ((evaluatedIn lib now ctx ks rules).filterMap fun r =>
          (matchIn lib now ctx ks r).map fun description => (r, description),
        (evaluatedIn lib now ctx ks rules).foldl (afterRule lib now ctx) ks) := by
  induction rules generalizing ks with
  | nil => rfl
  | cons rule rules ih =>
      obtain ⟨hrule, hrules⟩ := List.pairwise_cons.mp h
      -- the rules after this one do not see what it did
      have hsame : ∀ r ∈ rules, matchIn lib now ctx (afterRule lib now ctx ks rule) r
          = matchIn lib now ctx ks r := fun r hr => matchIn_afterRule (hrule r hr)
      have hupTo : evaluatedIn lib now ctx (afterRule lib now ctx ks rule) rules
          = evaluatedIn lib now ctx ks rules := by
        apply upTo_congr
        intro r hr
        rw [criticalIn, criticalIn, hsame r hr]
      have hrest : walk lib.toPyLib (answer lib now) ctx rules (afterRule lib now ctx ks rule) =
          ((evaluatedIn lib now ctx ks rules).filterMap fun r =>
              (matchIn lib now ctx ks r).map fun description => (r, description),
            (evaluatedIn lib now ctx ks rules).foldl (afterRule lib now ctx)
              (afterRule lib now ctx ks rule)) := by
        rw [ih hrules, hupTo]
        refine congrArg (fun l => (l, _)) (List.filterMap_congr ?_)
        intro r hr
        rw [hsame r ((upTo_isPrefix rules).subset hr)]
      rw [evaluatedIn, upTo]
      cases hmatch : matchIn lib now ctx ks rule with
      | none =>
          have hgoes : criticalIn lib now ctx ks rule = false := by simp [criticalIn, hmatch]
          rw [walk_skip hmatch, hrest, hgoes]
          simp only [Bool.false_eq_true, if_false]
          rw [List.filterMap_cons_none (by rw [hmatch]; rfl), List.foldl_cons, ← evaluatedIn]
      | some description =>
          by_cases hseverity : rule.severity = "CRITICAL"
          · have hstops : criticalIn lib now ctx ks rule = true := by
              simp [criticalIn, hmatch, hseverity]
            rw [walk_stop hmatch hseverity, hstops]
            simp only [if_true]
            rw [List.filterMap_cons_some (by rw [hmatch]; rfl)]
            rfl
          · have hgoes : criticalIn lib now ctx ks rule = false := by
              simp [criticalIn, hseverity]
            rw [walk_go hmatch hseverity, hrest, hgoes]
            simp only [Bool.false_eq_true, if_false]
            rw [List.filterMap_cons_some (by rw [hmatch]; rfl), List.foldl_cons, ← evaluatedIn]

end Independent

/-! ## Evaluation on Redis -/

theorem answer_exception {lib : RuleLib} {now : ℚ} (op : Op) (ks : RedisStore) (x : Exn)
    (h : (answer lib now op ks).1 = .error x) : Caught x := by
  cases op with
  | incr key =>
      have hincr : (incr now key ks).1 = .error x := h
      unfold incr at hincr
      split at hincr
      · cases hincr
      · split at hincr
        · cases hincr
        · cases hincr
          rfl
      · cases hincr
        rfl
  | expire key seconds =>
      have hexpire : (expire lib now key seconds ks).1 = .error x := h
      unfold expire at hexpire
      split at hexpire
      · cases hexpire
      · rename_i hargument
        cases hexpire
        exact lib.expireArgument_exception _ _ hargument

/-- The evaluation of a transaction at a time. -/
def evaluate (fl : Rounding) (lib : RuleLib) (rules : List Rule) (now : ℚ)
    (ctx : TransactionContext) (ks : RedisStore) : Execution RedisStore Ret Exn RuleEvalResult :=
  (evaluateTransaction fl lib.toPyLib rules ctx).run (answer lib now) ks

section Evaluate

variable {fl : Rounding} {lib : RuleLib} {now : ℚ} {ctx : TransactionContext} {ks : RedisStore}

theorem evaluate_eq (rules : List Rule) :
    (evaluate fl lib rules now ctx ks).result
      = .ok (resultOf fl rules (walk lib.toPyLib (answer lib now) ctx rules ks).1) ∧
    (evaluate fl lib rules now ctx ks).final
      = (walk lib.toPyLib (answer lib now) ctx rules ks).2 :=
  leads_evaluateTransaction answer_exception rules ks

end Evaluate

end FraudDetection.Rules
