import Mathlib.Data.List.Nodup
import FraudDetection.Rules.Footprint

/-!
# False alarms of velocity rules

The counters are named by entity and value only, so velocity rules on one entity count in each
other's counters, and run in each other's windows. A rule that has its entity to itself raises no
false alarm.

`Tallied` is the invariant of one counter: the transactions it counts came within the window. The
evaluation of a catalogue leaves the counter to the one rule on its entity (`walk_alone`), and one
evaluation of that rule keeps the invariant (`Tallied.counted`).
-/

namespace FraudDetection.Rules

open Async Python Store Floats

/-! ## Runs -/

/-- An evaluated transaction and its time. -/
abbrev Evaluated := ℚ × TransactionContext

/-- The store after the evaluation of transactions, from an empty one. -/
def storeAfter (lib : RuleLib) (rules : List Rule) (history : List Evaluated) : RedisStore :=
  history.foldl (fun ks e => (evaluate binary64 lib rules e.1 e.2 ks).final) fun _ => none

theorem storeAfter_concat (lib : RuleLib) (rules : List Rule) (history : List Evaluated)
    (e : Evaluated) : storeAfter lib rules (history ++ [e])
      = (evaluate binary64 lib rules e.1 e.2 (storeAfter lib rules history)).final := by
  rw [storeAfter, List.foldl_append]
  rfl

/-- The number of transactions from the time `a` on whose entity value is written `x`. -/
def seen (py : PyLib) (entity x : String) (a : ℚ) (history : List Evaluated) : ℕ :=
  history.countP fun e => decide (a ≤ e.1 ∧ (e.2.attr entity).map (Attr.text py) = some x)

section Seen

variable {py : PyLib} {entity x : String} {a : ℚ} {history : List Evaluated} {e : Evaluated}

theorem seen_concat : seen py entity x a (history ++ [e]) = seen py entity x a history
    + if a ≤ e.1 ∧ (e.2.attr entity).map (Attr.text py) = some x then 1 else 0 := by
  simp [seen, List.countP_append, List.countP_cons]

theorem seen_le_concat : seen py entity x a history ≤ seen py entity x a (history ++ [e]) := by
  rw [seen_concat]
  omega

theorem seen_concat_of_le (ha : a ≤ e.1) (hx : (e.2.attr entity).map (Attr.text py) = some x) :
    seen py entity x a (history ++ [e]) = seen py entity x a history + 1 := by
  rw [seen_concat, if_pos ⟨ha, hx⟩]

end Seen

/-! ## One evaluation of a velocity rule -/

section One

variable {lib : RuleLib} {now : ℚ} {ctx : TransactionContext} {rule : Rule} {entity : String}
  {value : Attr} {ks : RedisStore}

/-- What a velocity rule comes to is what `check_velocity` comes to. -/
theorem leads_velocityRule (h : rule.velocityEntity = some entity)
    (hvalue : ctx.attr entity = some value) (htruthy : value.truthy = true)
    {P : Except Exn Bool → RedisStore → Prop}
    (hcall : Prog.Leads (answer lib now)
      (checkVelocity lib.toPyLib entity value rule.windowSeconds rule.limit) ks P) :
    ∃ r, P r (afterRule lib now ctx ks rule) ∧
      ((matchIn lib now ctx ks rule).isSome = true → r = .ok true) := by
  have hrun : Prog.Leads (answer lib now) (evaluateRule lib.toPyLib rule.conditions ctx) ks
      fun r ks' => ∃ x, P x ks' ∧ ((matched r).isSome = true → x = .ok true) := by
    rw [evaluateRule_of_truthy h hvalue htruthy]
    refine (Prog.leads_bind _ _ _).mpr ?_
    refine hcall.mono ?_
    intro r ks' hP
    cases r with
    | ok isExceeded =>
        refine ⟨_, hP, ?_⟩
        intro hmatched
        cases isExceeded with
        | true => rfl
        | false => cases hmatched
    | error x =>
        refine ⟨_, hP, ?_⟩
        intro hmatched
        cases hmatched
  exact hrun

/-- A velocity rule that finds no counter. -/
theorem velocityRule_new {w : ℤ} (h : rule.velocityEntity = some entity)
    (hvalue : ctx.attr entity = some value) (htruthy : value.truthy = true)
    (hw : lib.expireArgument rule.windowSeconds = .ok w)
    (hfound : ks.find? now (velocityKey lib.toPyLib entity value) = none) :
    afterRule lib now ctx ks rule =
        (ks.set (velocityKey lib.toPyLib entity value) (.int 1) none).expireAt now
          (velocityKey lib.toPyLib entity value) (now + w) ∧
      ((matchIn lib now ctx ks rule).isSome = true →
        Operator.gt.apply (.int 1) rule.limit = .ok true) := by
  obtain ⟨r, hcall, hmatch⟩ := leads_velocityRule h hvalue htruthy (checkVelocity_new hfound)
  rw [hw] at hcall
  dsimp only at hcall
  refine ⟨hcall.2, ?_⟩
  rw [← hcall.1]
  exact hmatch

/-- A velocity rule that finds a count. -/
theorem velocityRule_counted {n : ℤ} {d : Option ℚ} (h : rule.velocityEntity = some entity)
    (hvalue : ctx.attr entity = some value) (htruthy : value.truthy = true) (hn : 1 ≤ n)
    (hfound : ks.find? now (velocityKey lib.toPyLib entity value) = some ⟨.int n, d⟩) :
    (∃ n', n ≤ n' ∧ n' ≤ n + 1 ∧ afterRule lib now ctx ks rule (velocityKey lib.toPyLib entity value)
        = some ⟨.int n', d⟩) ∧
      ((matchIn lib now ctx ks rule).isSome = true →
        Operator.gt.apply (.int (n + 1)) rule.limit = .ok true) := by
  obtain ⟨r, hcall, hmatch⟩ := leads_velocityRule h hvalue htruthy (checkVelocity_counted hn hfound)
  by_cases hmax : n < counterMax
  · rw [if_pos hmax] at hcall
    refine ⟨⟨n + 1, by omega, le_rfl, ?_⟩, ?_⟩
    · rw [hcall.2]
      exact Keyspace.set_self ..
    · rw [← hcall.1]
      exact hmatch
  · rw [if_neg hmax] at hcall
    obtain ⟨⟨x, hraised⟩, hsame⟩ := hcall
    refine ⟨⟨n, le_rfl, by omega, ?_⟩, ?_⟩
    · rw [hsame]
      exact Keyspace.eq_some_of_find? hfound
    · intro hmatched
      have hok := hmatch hmatched
      rw [hraised] at hok
      cases hok

end One

/-! ## What a counter counts -/

/-- The counter of a rule that has its entity to itself: it counts transactions with its entity
value that came since it was created, which was by one of them. -/
def Tallied (py : PyLib) (entity x : String) (w : ℤ) (history : List Evaluated)
    (stored : Option (Entry Stored ℚ)) : Prop :=
  ∀ e, stored = some e → ∃ n created, e = ⟨.int n, some (created + w)⟩ ∧ 1 ≤ n ∧
    created ∈ history.map Prod.fst ∧ ∀ a ≤ created, n ≤ seen py entity x a history

section Tallied

variable {lib : RuleLib} {now : ℚ} {ctx : TransactionContext} {rule : Rule} {entity x : String}
  {value : Attr} {w : ℤ} {history : List Evaluated} {ks : RedisStore}

/-- Further transactions that do not touch the counter. -/
theorem Tallied.later {py : PyLib} {stored : Option (Entry Stored ℚ)}
    (h : Tallied py entity x w history stored) (e : Evaluated) :
    Tallied py entity x w (history ++ [e]) stored := by
  intro entry hentry
  obtain ⟨n, created, rfl, hn, hcreated, hseen⟩ := h entry hentry
  refine ⟨n, created, rfl, hn, ?_, ?_⟩
  · rw [List.map_append]
    exact List.mem_append_left _ hcreated
  · intro a ha
    have hle := hseen a ha
    have hmore := @seen_le_concat py entity x a history e
    omega

/-- A transaction that the rule counts. -/
theorem Tallied.counted
    (h : Tallied lib.toPyLib entity (value.text lib.toPyLib) w history
      (ks (velocityKey lib.toPyLib entity value)))
    (hrule : rule.velocityEntity = some entity) (hvalue : ctx.attr entity = some value)
    (htruthy : value.truthy = true) (hw : lib.expireArgument rule.windowSeconds = .ok w)
    (hsorted : ∀ t ∈ history.map Prod.fst, t ≤ now) :
    Tallied lib.toPyLib entity (value.text lib.toPyLib) w (history ++ [(now, ctx)])
      (afterRule lib now ctx ks rule (velocityKey lib.toPyLib entity value)) := by
  have htext : (ctx.attr entity).map (Attr.text lib.toPyLib) = some (value.text lib.toPyLib) := by
    rw [hvalue]
    rfl
  have hcounts : ∀ a ≤ now, seen lib.toPyLib entity (value.text lib.toPyLib) a
      (history ++ [(now, ctx)]) = seen lib.toPyLib entity (value.text lib.toPyLib) a history + 1 :=
    fun a ha => seen_concat_of_le ha htext
  intro entry hentry
  cases hfound : ks.find? now (velocityKey lib.toPyLib entity value) with
  | none =>
      -- the counter starts again with this transaction
      rw [(velocityRule_new hrule hvalue htruthy hw hfound).1, Keyspace.expireAt_set] at hentry
      by_cases hlater : now < now + w
      · rw [if_pos hlater] at hentry
        cases hentry
        refine ⟨1, now, rfl, le_rfl, by simp, ?_⟩
        intro a ha
        rw [hcounts a ha]
        omega
      · rw [if_neg hlater] at hentry
        cases hentry
  | some found =>
      obtain ⟨n, created, rfl, hn, hcreated, hseen⟩ := h found (Keyspace.eq_some_of_find? hfound)
      obtain ⟨⟨n', hle, hge, hstored⟩, -⟩ := velocityRule_counted hrule hvalue htruthy hn hfound
      rw [hstored] at hentry
      cases hentry
      refine ⟨n', created, rfl, hn.trans hle, ?_, ?_⟩
      · rw [List.map_append]
        exact List.mem_append_left _ hcreated
      · intro a ha
        have hbefore := hseen a ha
        have hsince := hcounts a (ha.trans (hsorted created hcreated))
        omega

/-- A match: this transaction and the ones in the window are more than the limit. -/
theorem Tallied.exceeded
    (h : Tallied lib.toPyLib entity (value.text lib.toPyLib) w history
      (ks (velocityKey lib.toPyLib entity value)))
    (hrule : rule.velocityEntity = some entity) (hvalue : ctx.attr entity = some value)
    (htruthy : value.truthy = true) (hw : lib.expireArgument rule.windowSeconds = .ok w)
    (hmatch : (matchIn lib now ctx ks rule).isSome = true) :
    ∃ limit, rule.limit.number? = some limit ∧
      limit < 1 + seen lib.toPyLib entity (value.text lib.toPyLib) (now - w) history := by
  cases hfound : ks.find? now (velocityKey lib.toPyLib entity value) with
  | none =>
      have hgt := (velocityRule_new hrule hvalue htruthy hw hfound).2 hmatch
      obtain ⟨limit, hlimit, hlt⟩ := (Operator.apply_gt_iff (p := 1) rfl).mp hgt
      refine ⟨limit, hlimit, hlt.trans_le ?_⟩
      have hnonneg : (0 : ℚ) ≤ seen lib.toPyLib entity (value.text lib.toPyLib) (now - w) history :=
        Nat.cast_nonneg _
      linarith
  | some found =>
      obtain ⟨n, created, rfl, hn, -, hseen⟩ := h found (Keyspace.eq_some_of_find? hfound)
      have hgt := (velocityRule_counted hrule hvalue htruthy hn hfound).2 hmatch
      obtain ⟨limit, hlimit, hlt⟩ := (Operator.apply_gt_iff rfl).mp hgt
      have halive : now ≤ created + w := Keyspace.le_of_find? hfound _ rfl
      have hcount : n ≤ seen lib.toPyLib entity (value.text lib.toPyLib) (now - w) history :=
        hseen _ (by linarith)
      have hcount' : (n : ℚ) ≤ seen lib.toPyLib entity (value.text lib.toPyLib) (now - w) history := by
        exact_mod_cast hcount
      refine ⟨limit, hlimit, hlt.trans_le ?_⟩
      push_cast
      linarith

end Tallied

/-! ## The catalogue around a rule -/

section Alone

variable {lib : RuleLib} {now : ℚ} {ctx ctx' : TransactionContext} {rules : List Rule} {rule : Rule}
  {entity : String} {value : Attr} {ks : RedisStore} {k : String}

/-- A rule that names another entity does not count under the keys of this one. -/
theorem footprint_ne (hvalue : ctx'.attr entity = some value)
    (h : rule.velocityEntity ≠ some entity) :
    rule.footprint lib.toPyLib ctx ≠ some (velocityKey lib.toPyLib entity value) := by
  intro hfoot
  obtain ⟨entity', value', hentity, hvalue', -, hkey⟩ := footprint_eq_some.mp hfoot
  obtain ⟨rfl, -⟩ := velocityKey_inj hvalue hvalue' hkey
  exact h hentity

/-- One rule of the loop: its match, if it has one, comes before those of the rest, and the loop
ends after it or with the rest. -/
theorem walk_cons (r : Rule) :
    let rest := walk lib.toPyLib (answer lib now) ctx rules (afterRule lib now ctx ks r)
    let all := walk lib.toPyLib (answer lib now) ctx (r :: rules) ks
    (all.2 = afterRule lib now ctx ks r ∨ all.2 = rest.2) ∧
      ∀ m ∈ all.1, m.1 = r ∧ (matchIn lib now ctx ks r).isSome = true ∨ m ∈ rest.1 := by
  intro rest all
  cases hmatch : matchIn lib now ctx ks r with
  | none =>
      have hall : all = rest := walk_skip hmatch
      rw [hall]
      exact ⟨Or.inr rfl, fun m hm => Or.inr hm⟩
  | some description =>
      by_cases hcritical : r.severity = "CRITICAL"
      · have hall : all = ([(r, description)], afterRule lib now ctx ks r) :=
          walk_stop hmatch hcritical
        rw [hall]
        refine ⟨Or.inl rfl, ?_⟩
        intro m hm
        rw [List.mem_singleton] at hm
        exact Or.inl ⟨by rw [hm], rfl⟩
      · have hall : all = ((r, description) :: rest.1, rest.2) := walk_go hmatch hcritical
        rw [hall]
        refine ⟨Or.inr rfl, ?_⟩
        intro m hm
        rcases List.mem_cons.mp hm with rfl | hrest
        · exact Or.inl ⟨rfl, rfl⟩
        · exact Or.inr hrest

/-- A rule that is triggered is in the catalogue and matches some store. -/
theorem mem_of_mem_walk {m : Rule × String}
    (h : m ∈ (walk lib.toPyLib (answer lib now) ctx rules ks).1) :
    m.1 ∈ rules ∧ ∃ ks', (matchIn lib now ctx ks' m.1).isSome = true := by
  induction rules generalizing ks with
  | nil => cases h
  | cons r rules ih =>
      rcases (walk_cons r).2 m h with ⟨heq, hmatch⟩ | hrest
      · rw [heq]
        exact ⟨List.mem_cons_self, ks, hmatch⟩
      · exact ⟨List.mem_cons_of_mem r (ih hrest).1, (ih hrest).2⟩

/-- Rules with other footprints leave a key alone. -/
theorem walk_frame (h : ∀ r ∈ rules, r.footprint lib.toPyLib ctx ≠ some k) :
    (walk lib.toPyLib (answer lib now) ctx rules ks).2 k = ks k := by
  induction rules generalizing ks with
  | nil => rfl
  | cons r rules ih =>
      have hhead : afterRule lib now ctx ks r k = ks k := afterRule_frame (h r List.mem_cons_self)
      rcases (walk_cons r).1 with hends | hgoes
      · rw [hends, hhead]
      · rw [hgoes, ih fun r' hr' => h r' (List.mem_cons_of_mem r hr'), hhead]

/-- A key that one rule alone touches: the loop does to it what the rule does, or nothing, and the
rule matches as it does on its own. -/
theorem walk_alone (hnodup : rules.Nodup)
    (h : ∀ r ∈ rules, r ≠ rule → r.footprint lib.toPyLib ctx ≠ some k) :
    let all := walk lib.toPyLib (answer lib now) ctx rules ks
    ∃ ks', ks' k = ks k ∧ (all.2 k = ks k ∨ all.2 k = afterRule lib now ctx ks' rule k) ∧
      ∀ m ∈ all.1, m.1 = rule → (matchIn lib now ctx ks' rule).isSome = true := by
  induction rules generalizing ks with
  | nil => exact ⟨ks, rfl, Or.inl rfl, fun m hm => absurd hm List.not_mem_nil⟩
  | cons r rules ih =>
      obtain ⟨hfresh, hnodup⟩ := List.nodup_cons.mp hnodup
      have htail : ∀ r' ∈ rules, r' ≠ rule → r'.footprint lib.toPyLib ctx ≠ some k :=
        fun r' hr' => h r' (List.mem_cons_of_mem r hr')
      obtain ⟨hfinal, hmatches⟩ := @walk_cons lib now ctx rules ks r
      intro all
      by_cases hsame : r = rule
      · subst hsame
        -- none of the rules after it touches the key
        have hframe : (walk lib.toPyLib (answer lib now) ctx rules (afterRule lib now ctx ks r)).2 k
            = afterRule lib now ctx ks r k :=
          walk_frame fun r' hr' => htail r' hr' fun heq => hfresh (heq ▸ hr')
        refine ⟨ks, rfl, Or.inr ?_, ?_⟩
        · rcases hfinal with hends | hgoes
          · exact congrFun hends k
          · exact (congrFun hgoes k).trans hframe
        · intro m hm hrule
          rcases hmatches m hm with ⟨-, hmatch⟩ | hrest
          · exact hmatch
          · exact absurd (hrule ▸ (mem_of_mem_walk hrest).1) hfresh
      · have hhead : afterRule lib now ctx ks r k = ks k :=
          afterRule_frame (h r List.mem_cons_self hsame)
        obtain ⟨ks', hks', hrest, hmatch⟩ := @ih (afterRule lib now ctx ks r) hnodup htail
        refine ⟨ks', hks'.trans hhead, ?_, ?_⟩
        · rcases hfinal with hends | hgoes
          · exact Or.inl ((congrFun hends k).trans hhead)
          · rw [hhead] at hrest
            exact hrest.imp (congrFun hgoes k).trans (congrFun hgoes k).trans
        · intro m hm hrule
          rcases hmatches m hm with ⟨heq, -⟩ | hmem
          · exact absurd (heq.symm.trans hrule) hsame
          · exact hmatch m hmem hrule

end Alone

/-! ## Runs of a catalogue -/

section Run

variable {lib : RuleLib} {rules : List Rule} {rule : Rule} {entity : String} {w : ℤ}

/-- The counters of a rule that has its entity to itself. -/
theorem tallied_storeAfter (hnodup : rules.Nodup) (hrule : rule.velocityEntity = some entity)
    (hown : ∀ r ∈ rules, r ≠ rule → r.velocityEntity ≠ some entity)
    (hw : lib.expireArgument rule.windowSeconds = .ok w) {ctx' : TransactionContext} {value : Attr}
    (hvalue : ctx'.attr entity = some value) (history : List Evaluated)
    (hsorted : (history.map Prod.fst).Pairwise (· ≤ ·)) :
    Tallied lib.toPyLib entity (value.text lib.toPyLib) w history
      (storeAfter lib rules history (velocityKey lib.toPyLib entity value)) := by
  induction history using List.reverseRecOn with
  | nil =>
      intro e he
      cases he
  | append_singleton history e ih =>
      rw [List.map_append, List.pairwise_append] at hsorted
      have hbefore := ih hsorted.1
      have hlast : ∀ t ∈ history.map Prod.fst, t ≤ e.1 :=
        fun t ht => hsorted.2.2 t ht e.1 (List.mem_singleton_self _)
      have hothers : ∀ r ∈ rules, r ≠ rule →
          r.footprint lib.toPyLib e.2 ≠ some (velocityKey lib.toPyLib entity value) :=
        fun r hr hne => footprint_ne hvalue (hown r hr hne)
      obtain ⟨ks', hks', hfinal, -⟩ :=
        @walk_alone lib e.1 e.2 rules rule (storeAfter lib rules history) _ hnodup hothers
      rw [storeAfter_concat, (evaluate_eq rules).2]
      rcases hfinal with hsame | hdone
      · rw [hsame]
        exact hbefore.later e
      · rw [hdone]
        by_cases hfoot : rule.footprint lib.toPyLib e.2 = some (velocityKey lib.toPyLib entity value)
        · obtain ⟨entity', value', hrule', hvalue', htruthy, hkey⟩ := footprint_eq_some.mp hfoot
          obtain ⟨rfl, htext⟩ := velocityKey_inj hvalue hvalue' hkey
          rw [htext, hkey]
          rw [htext, ← hks', hkey] at hbefore
          exact hbefore.counted hrule hvalue' htruthy hw hlast
        · rw [afterRule_frame hfoot, hks']
          exact hbefore.later e

/-- A velocity rule that has its entity to itself is triggered only by more transactions with the
same entity value than its limit, this one included, within the window. -/
theorem velocity_alarm_justified (lib : RuleLib) (rules : List Rule)
    (hids : (rules.map Rule.id).Nodup) (rule : Rule) (hmem : rule ∈ rules) (entity : String)
    (hrule : rule.velocityEntity = some entity)
    (hown : ∀ r ∈ rules, r.velocityEntity = some entity → r.id = rule.id) (w : ℤ)
    (hw : lib.expireArgument rule.windowSeconds = .ok w) (history : List Evaluated) (now : ℚ)
    (ctx : TransactionContext)
    (hsorted : ((history ++ [(now, ctx)]).map Prod.fst).Pairwise (· ≤ ·))
    (result : RuleEvalResult)
    (hresult : (evaluate binary64 lib rules now ctx (storeAfter lib rules history)).result = .ok result)
    (m : RuleMatch) (hm : m ∈ result.triggeredRules) (hid : m.ruleId = rule.id) :
    ∃ value limit, ctx.attr entity = some value ∧ rule.limit.number? = some limit ∧
      limit < 1 + seen lib.toPyLib entity (value.text lib.toPyLib) (now - w) history := by
  have hinj : ∀ r ∈ rules, r.id = rule.id → r = rule :=
    fun r hr heq => List.inj_on_of_nodup_map hids hr hmem heq
  have hothers : ∀ r ∈ rules, r ≠ rule → r.velocityEntity ≠ some entity :=
    fun r hr hne hentity => hne (hinj r hr (hown r hr hentity))
  have hnodup : rules.Nodup := List.Nodup.of_map Rule.id hids
  rw [List.map_append, List.pairwise_append] at hsorted
  -- the match comes from the rule itself
  rw [(evaluate_eq rules).1] at hresult
  cases hresult
  obtain ⟨triggered, htriggered, rfl⟩ := List.mem_map.mp hm
  obtain ⟨hin, ks', hmatch'⟩ := mem_of_mem_walk htriggered
  have hself : triggered.1 = rule := hinj _ hin hid
  rw [hself] at hmatch'
  cases hfoot : rule.footprint lib.toPyLib ctx with
  | none =>
      rw [matchIn, evaluation, evaluateRule_of_footprint_none hrule hfoot] at hmatch'
      cases hmatch'
  | some k =>
      obtain ⟨entity', value, hrule', hvalue, htruthy, rfl⟩ := footprint_eq_some.mp hfoot
      rw [hrule, Option.some.injEq] at hrule'
      subst hrule'
      obtain ⟨ks', hks', -, hmatch⟩ := @walk_alone lib now ctx rules rule
        (storeAfter lib rules history) _ hnodup fun r hr hne => footprint_ne hvalue (hothers r hr hne)
      have htallied := tallied_storeAfter hnodup hrule hothers hw hvalue history hsorted.1
      rw [← hks'] at htallied
      obtain ⟨limit, hlimit, hlt⟩ :=
        htallied.exceeded hrule hvalue htruthy hw (hmatch triggered htriggered hself)
      exact ⟨value, limit, hvalue, hlimit, hlt⟩

/-- The sixth payment of a day with a card. -/
theorem velocity_alarm_justified_sixth :
    let history : List Evaluated := [(0, .payment "c-1" 10), (1, .payment "c-1" 10),
      (2, .payment "c-1" 10), (3, .payment "c-1" 10), (4, .payment "c-1" 10)]
    let rules := [highAmountTxn, highVelocity24h]
    ∃ result m, (evaluate binary64 compactRules rules 5 (.payment "c-1" 10)
        (storeAfter compactRules rules history)).result = .ok result ∧
      m ∈ result.triggeredRules ∧ m.ruleId = highVelocity24h.id ∧
      ∃ value limit, (TransactionContext.payment "c-1" 10).attr "card_number" = some value ∧
        highVelocity24h.limit.number? = some limit ∧
        limit < 1 + seen compactRules.toPyLib "card_number" (value.text compactRules.toPyLib)
          (5 - (86400 : ℤ)) history := by
  intro history rules
  have htriggered : (evaluate binary64 compactRules rules 5 (.payment "c-1" 10)
      (storeAfter compactRules rules history)).result.toOption.map
        (fun result => result.triggeredRules.map RuleMatch.ruleId) = some ["3"] := by
    decide +kernel
  obtain ⟨result, hresult⟩ : ∃ result, (evaluate binary64 compactRules rules 5 (.payment "c-1" 10)
      (storeAfter compactRules rules history)).result = .ok result := ⟨_, (evaluate_eq rules).1⟩
  rw [hresult] at htriggered
  have hids : result.triggeredRules.map RuleMatch.ruleId = ["3"] := Option.some.inj htriggered
  obtain ⟨m, hm, hid⟩ := List.mem_map.mp (hids ▸ List.mem_singleton_self "3")
  refine ⟨result, m, hresult, hm, hid, ?_⟩
  exact velocity_alarm_justified compactRules rules (by decide) highVelocity24h (by simp [rules])
    "card_number" rfl (by decide) 86400 rfl history 5 (.payment "c-1" 10)
    (by norm_num [history]) result hresult m hm hid

/-! ### Two rules on one card -/

/-- The velocity rule of `seed_rules.py`. -/
def highVelocityCard : Rule where
  id := "1003"
  ruleName := "High Velocity (Card)"
  category := "VELOCITY"
  severity := "HIGH"
  scoreContribution := .num (binary64.round (5 / 10))
  conditions := .dict [("type", .str "velocity"), ("entity", .str "card_number"),
    ("window_seconds", .int 3600), ("limit", .int 5)]

/-- The third payment with a card triggers the rule of more than five a day, since the hourly rule
counts in the same counter. -/
theorem shared_counter_alarm :
    let history : List Evaluated := [(0, .payment "c-1" 10), (1, .payment "c-1" 10)]
    let rules := [highVelocityCard, highVelocity24h]
    (evaluate binary64 compactRules rules 2 (.payment "c-1" 10)
        (storeAfter compactRules rules history)).result.toOption.map
          (fun result => result.triggeredRules.map RuleMatch.ruleName) = some ["HIGH_VELOCITY_24H"] ∧
      highVelocity24h.limit.number? = some 5 ∧
      1 + seen compactRules.toPyLib "card_number" "c-1" (2 - 86400) history = 3 := by
  decide +kernel

end Run

end FraudDetection.Rules
