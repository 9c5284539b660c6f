import Mathlib.Data.List.Induction
import Mathlib.Tactic.Linarith
import FraudDetection.Async.Program
import FraudDetection.Store.Keyspace
import FraudDetection.Python.CompactJson
import FraudDetection.Rules.Context

/-!
# `check_velocity`

A fixed-window counter for each entity value: every call increments the key, and the call that finds
the key missing gives it the expiry of its window.

`checkVelocity_new` and `checkVelocity_counted` say what a call returns and leaves when it finds the
key missing or counting. The life of a key from one expiry to the next is an epoch. `Epoch` places
the current epoch in time and bounds the calls that were not flagged, in the epoch and before it; a
call continues the epoch (`Epoch.counted`) or starts the next one (`Epoch.renewed`). An interval as
long as the window meets two epochs at most.
-/

namespace FraudDetection.Rules

open Async Python Store

/-! ## Operations -/

/-- The Redis commands of the rule engine. -/
inductive Op where
  | incr (key : String)
  | expire (key : String) (seconds : Json)

abbrev Ret : Op → Type
  | .incr _ => ℤ
  | .expire _ _ => Unit

/-- A coroutine of the rule engine. -/
abbrev Coroutine := Prog Ret Exn

/-- The key of an entity's counter. -/
def velocityKey (py : PyLib) (entityType : String) (entityValue : Attr) : String :=
  "velocity:" ++ entityType ++ ":" ++ entityValue.text py

/-- Increments the counter for a given entity and checks if it exceeds the limit. -/
def checkVelocity (py : PyLib) (entityType : String) (entityValue : Attr)
    (windowSeconds limit : Json) : Coroutine Bool := do
  let key := velocityKey py entityType entityValue
  let currentCount ← Prog.await (Op.incr key)
  if currentCount = 1 then
    Prog.await (Op.expire key windowSeconds)
  Prog.lift (Operator.gt.apply (.int currentCount) limit)

/-! ## Redis -/

/-- What a key holds: an integer, or something that `INCR` refuses with an error. -/
inductive Stored where
  | int (n : ℤ)
  | other (error : String)

abbrev RedisStore := Keyspace String Stored ℚ

/-- How the time argument of `EXPIRE` is read by the client and the server. An integer is refused
when it is out of range. -/
structure RuleLib extends PyLib where
  expireArgument : Json → Except Exn ℤ
  expireArgument_int : ∀ n : ℤ, n.natAbs ≤ 2 ^ 53 → expireArgument (.int n) = .ok n
  expireArgument_of_int : ∀ n m : ℤ, expireArgument (.int n) = .ok m → m = n
  expireArgument_exception : ∀ v x, expireArgument v = .error x → x.isException = true

/-- The largest counter value. -/
def counterMax : ℤ := 2 ^ 63 - 1

/-- `INCR key` -/
def incr (now : ℚ) (key : String) (ks : RedisStore) : Except Exn ℤ × RedisStore :=
  match ks.find? now key with
  | none => (.ok 1, ks.set key (.int 1) none)
  | some ⟨.int n, d⟩ =>
      if n < counterMax then (.ok (n + 1), ks.set key (.int (n + 1)) d)
      else (.error ⟨.other "ResponseError", "increment or decrement would overflow"⟩, ks)
  | some ⟨.other error, _⟩ => (.error ⟨.other "ResponseError", error⟩, ks)

/-- `EXPIRE key seconds` -/
def expire (lib : RuleLib) (now : ℚ) (key : String) (seconds : Json) (ks : RedisStore) :
    Except Exn Unit × RedisStore :=
  match lib.expireArgument seconds with
  | .ok w => (.ok (), ks.expireAt now key (now + w))
  | .error x => (.error x, ks)

/-- Redis at a time. -/
def answer (lib : RuleLib) (now : ℚ) : (op : Op) → RedisStore → Except Exn (Ret op) × RedisStore
  | .incr key, ks => incr now key ks
  | .expire key seconds, ks => expire lib now key seconds ks

/-! ## One call -/

section Call

variable {lib : RuleLib} {now : ℚ} {ks : RedisStore} {entityType : String} {entityValue : Attr}
  {windowSeconds limit : Json}

/-- A call that finds no key counts one and sets the expiry. -/
theorem checkVelocity_new
    (h : ks.find? now (velocityKey lib.toPyLib entityType entityValue) = none) :
    Prog.Leads (answer lib now)
      (checkVelocity lib.toPyLib entityType entityValue windowSeconds limit) ks fun r ks' =>
        match lib.expireArgument windowSeconds with
        | .ok w => r = Operator.gt.apply (.int 1) limit ∧
            ks' = (ks.set (velocityKey lib.toPyLib entityType entityValue) (.int 1) none).expireAt
              now (velocityKey lib.toPyLib entityType entityValue) (now + w)
        | .error x => r = .error x ∧
            ks' = ks.set (velocityKey lib.toPyLib entityType entityValue) (.int 1) none := by
  unfold checkVelocity
  rw [Prog.leads_bind, Prog.leads_await]
  simp only [answer, incr, h, if_true]
  rw [Prog.leads_bind, Prog.leads_await]
  simp only [answer, expire]
  cases lib.expireArgument windowSeconds with
  | ok w =>
      simp only
      rw [Prog.leads_lift]
      exact ⟨rfl, rfl⟩
  | error x => exact ⟨rfl, rfl⟩

/-- A call that finds a positive count only increments it. -/
theorem checkVelocity_counted {n : ℤ} {d : Option ℚ} (hn : 1 ≤ n)
    (h : ks.find? now (velocityKey lib.toPyLib entityType entityValue) = some ⟨.int n, d⟩) :
    Prog.Leads (answer lib now)
      (checkVelocity lib.toPyLib entityType entityValue windowSeconds limit) ks fun r ks' =>
        if n < counterMax then r = Operator.gt.apply (.int (n + 1)) limit ∧
          ks' = ks.set (velocityKey lib.toPyLib entityType entityValue) (.int (n + 1)) d
        else (∃ x, r = .error x) ∧ ks' = ks := by
  have hne : ¬ n + 1 = 1 := by omega
  unfold checkVelocity
  rw [Prog.leads_bind, Prog.leads_await]
  simp only [answer, incr, h]
  by_cases hmax : n < counterMax
  · simp only [if_pos hmax, if_neg hne]
    rw [Prog.leads_lift]
    exact ⟨rfl, rfl⟩
  · simp only [if_neg hmax]
    exact ⟨⟨_, rfl⟩, trivial⟩

end Call

/-- Comparing a count with an integer limit. -/
theorem gt_int (n limit : ℤ) :
    Operator.gt.apply (.int n) (.int limit) = .ok (decide (limit < n)) := by
  have hcompare : (compare (n : ℚ) limit == .gt) = decide (limit < n) := by
    rw [Bool.eq_iff_iff, beq_iff_eq, decide_eq_true_eq, compare_gt_iff_gt]
    exact Int.cast_lt
  simp only [Operator.apply, Json.compare?_number (a := .int n) (p := n) rfl, Json.number?,
    Option.map_some, Operator.accepts, hcompare]

/-! ## Calls one after the other -/

/-- A call and what came of it. -/
abbrev Called := ℚ × Except Exn Bool

section History

variable (lib : RuleLib) (entityType : String) (entityValue : Attr) (windowSeconds limit : ℤ)

/-- A call at a time. -/
def check (now : ℚ) (ks : RedisStore) : Execution RedisStore Ret Exn Bool :=
  (checkVelocity lib.toPyLib entityType entityValue (.int windowSeconds) (.int limit)).run
    (answer lib now) ks

/-- Calls at the given times: what came of them, and the store they leave. -/
def checks (times : List ℚ) (ks : RedisStore) : List Called × RedisStore :=
  times.foldl (fun acc now =>
    (acc.1 ++ [(now, (check lib entityType entityValue windowSeconds limit now acc.2).result)],
      (check lib entityType entityValue windowSeconds limit now acc.2).final)) ([], ks)

theorem checks_concat (times : List ℚ) (now : ℚ) (ks : RedisStore) :
    checks lib entityType entityValue windowSeconds limit (times ++ [now]) ks =
      let before := checks lib entityType entityValue windowSeconds limit times ks
      let x := check lib entityType entityValue windowSeconds limit now before.2
      (before.1 ++ [(now, x.result)], x.final) := by
  rw [checks, List.foldl_append]
  rfl

theorem times_checks (times : List ℚ) (ks : RedisStore) :
    (checks lib entityType entityValue windowSeconds limit times ks).1.map Prod.fst = times := by
  induction times using List.reverseRecOn with
  | nil => rfl
  | append_singleton times now ih =>
      rw [checks_concat]
      simp only [List.map_append, ih, List.map_cons, List.map_nil]

end History

/-- Whether the call returned `False`. -/
def Called.unflagged (c : Called) : Bool :=
  match c.2 with
  | .ok exceeded => !exceeded
  | .error _ => false

/-- The number of calls from `a` on that were not flagged. -/
def unflaggedFrom (a : ℚ) (calls : List Called) : ℤ :=
  calls.countP fun c => decide (a ≤ c.1) && Called.unflagged c

/-- The number of calls from `a` to `b` that were not flagged. -/
def unflaggedIn (a b : ℚ) (calls : List Called) : ℤ :=
  calls.countP fun c => decide (a ≤ c.1 ∧ c.1 ≤ b) && Called.unflagged c

section Counting

variable {a b : ℚ} {calls : List Called} {c : Called}

theorem unflaggedFrom_concat : unflaggedFrom a (calls ++ [c])
    = unflaggedFrom a calls + if a ≤ c.1 ∧ Called.unflagged c = true then 1 else 0 := by
  simp [unflaggedFrom, List.countP_append, List.countP_cons]

theorem unflaggedFrom_concat_of_lt (h : c.1 < a) :
    unflaggedFrom a (calls ++ [c]) = unflaggedFrom a calls := by
  rw [unflaggedFrom_concat, if_neg fun hc => absurd hc.1 (not_le.mpr h), add_zero]

theorem unflaggedFrom_concat_le : unflaggedFrom a (calls ++ [c])
    ≤ unflaggedFrom a calls + if Called.unflagged c = true then 1 else 0 := by
  rw [unflaggedFrom_concat]
  split
  · rename_i hc
    rw [if_pos hc.2]
  · split <;> omega

theorem unflaggedIn_concat_of_lt (h : b < c.1) :
    unflaggedIn a b (calls ++ [c]) = unflaggedIn a b calls := by
  simp [unflaggedIn, List.countP_append, h]

theorem unflaggedIn_le : unflaggedIn a b calls ≤ unflaggedFrom a calls := by
  unfold unflaggedIn unflaggedFrom
  have hle : calls.countP (fun c => decide (a ≤ c.1 ∧ c.1 ≤ b) && Called.unflagged c)
      ≤ calls.countP fun c => decide (a ≤ c.1) && Called.unflagged c := by
    apply List.countP_mono_left
    intro c _ hc
    simp only [Bool.and_eq_true, decide_eq_true_eq] at hc ⊢
    exact ⟨hc.1.1, hc.2⟩
  omega

end Counting

/-! ## Epochs -/

/-- The current epoch of a counter with window `w` and limit `l`, after the given calls: it started
at `start`, counts `n`, and ends at the deadline `d` of the key. -/
structure Epoch (w l : ℤ) (calls : List Called) (start : ℚ) (n : ℤ) (d : Option ℚ) : Prop where
  started : start ∈ calls.map Prod.fst
  count_pos : 1 ≤ n
  deadline : ∀ t ∈ d, t = start + w
  current : ∀ a, start ≤ a → unflaggedFrom a calls ≤ min n l
  previous : ∀ a, start - w ≤ a → unflaggedFrom a calls ≤ l + min n l
  ended : ∀ t ∈ d, ∀ a, t < a → unflaggedFrom a calls ≤ 0
  bound : ∀ a, unflaggedIn a (a + w) calls ≤ 2 * l

section Epoch

variable {w l : ℤ} {calls : List Called} {start now : ℚ} {n n' : ℤ} {d : Option ℚ}
  {r : Except Exn Bool}

/-- An interval that ends before the new call has the calls it had; one that ends later starts at
most a window before the epoch of the call. -/
theorem bound_concat (hbound : ∀ a, unflaggedIn a (a + w) calls ≤ 2 * l)
    (hprevious : ∀ a, start - w ≤ a → unflaggedFrom a (calls ++ [(now, r)]) ≤ l + min n l)
    (hstart : start ≤ now) (a : ℚ) : unflaggedIn a (a + w) (calls ++ [(now, r)]) ≤ 2 * l := by
  by_cases hlate : a + w < now
  · rw [@unflaggedIn_concat_of_lt a (a + w) calls (now, r) hlate]
    exact hbound a
  · have hfrom := hprevious a (by linarith)
    have hin := @unflaggedIn_le a (a + w) (calls ++ [(now, r)])
    omega

/-- A call within the epoch counts on, or fails. -/
theorem Epoch.counted (h : Epoch w l calls start n d) (hstart : start ≤ now)
    (hlive : ∀ t ∈ d, now ≤ t)
    (hcount : n' = n + 1 ∧ (Called.unflagged (now, r) = true → n + 1 ≤ l) ∨
      n' = n ∧ Called.unflagged (now, r) = false) :
    Epoch w l (calls ++ [(now, r)]) start n' d := by
  have hstep : ∀ a k, unflaggedFrom a calls ≤ k + min n l →
      unflaggedFrom a (calls ++ [(now, r)]) ≤ k + min n' l := by
    intro a k hk
    have hle := @unflaggedFrom_concat_le a calls (now, r)
    rcases hcount with ⟨rfl, hpass⟩ | ⟨rfl, hflag⟩
    · by_cases hu : Called.unflagged (now, r) = true
      · have hl := hpass hu
        rw [if_pos hu] at hle
        omega
      · rw [if_neg hu] at hle
        omega
    · rw [hflag] at hle
      simp only [Bool.false_eq_true, if_false] at hle
      omega
  have hprevious : ∀ a, start - w ≤ a →
      unflaggedFrom a (calls ++ [(now, r)]) ≤ l + min n' l :=
    fun a ha => hstep a l (h.previous a ha)
  refine ⟨?_, ?_, h.deadline, ?_, hprevious, ?_, bound_concat h.bound hprevious hstart⟩
  · rw [List.map_append]
    exact List.mem_append_left _ h.started
  · have hpos := h.count_pos
    omega
  · intro a ha
    have hcurrent := hstep a 0 (by simpa using h.current a ha)
    simpa using hcurrent
  · intro t ht a hta
    have hlate : now < a := lt_of_le_of_lt (hlive t ht) hta
    rw [@unflaggedFrom_concat_of_lt a calls (now, r) hlate]
    exact h.ended t ht a hta

/-- A call that finds no key starts an epoch: the calls of an interval before it are those of one
epoch. -/
theorem Epoch.renewed (hw : 1 ≤ w) (hl : 0 ≤ l)
    (hprevious : ∀ a, now - w ≤ a → unflaggedFrom a calls ≤ l)
    (hended : ∀ a, now ≤ a → unflaggedFrom a calls ≤ 0)
    (hbound : ∀ a, unflaggedIn a (a + w) calls ≤ 2 * l) (hd : ∀ t ∈ d, t = now + w)
    (hpass : Called.unflagged (now, r) = true → 1 ≤ l) :
    Epoch w l (calls ++ [(now, r)]) now 1 d := by
  have hstep : ∀ a k, unflaggedFrom a calls ≤ k →
      unflaggedFrom a (calls ++ [(now, r)]) ≤ k + min 1 l := by
    intro a k hk
    have hle := @unflaggedFrom_concat_le a calls (now, r)
    by_cases hu : Called.unflagged (now, r) = true
    · have hone := hpass hu
      rw [if_pos hu] at hle
      omega
    · rw [if_neg hu] at hle
      omega
  have hprevious' : ∀ a, now - w ≤ a →
      unflaggedFrom a (calls ++ [(now, r)]) ≤ l + min 1 l :=
    fun a ha => hstep a l (hprevious a ha)
  refine ⟨?_, le_rfl, hd, ?_, hprevious', ?_, bound_concat hbound hprevious' le_rfl⟩
  · simp
  · intro a ha
    have hcurrent := hstep a 0 (hended a ha)
    simpa using hcurrent
  · intro t ht a hta
    have hwide : (1 : ℚ) ≤ w := by exact_mod_cast hw
    have hlate : now < a := by
      rw [hd t ht] at hta
      linarith
    rw [@unflaggedFrom_concat_of_lt a calls (now, r) hlate]
    exact hended a hlate.le

/-- A key found expired ends the epoch before it. -/
theorem Epoch.expired (h : Epoch w l calls start n d) (hl : 0 ≤ l) (hdead : ∃ t ∈ d, t < now)
    (hw : 1 ≤ w) {d' : Option ℚ} (hd : ∀ t ∈ d', t = now + w)
    (hpass : Called.unflagged (now, r) = true → 1 ≤ l) :
    Epoch w l (calls ++ [(now, r)]) now 1 d' := by
  obtain ⟨t, ht, hnow⟩ := hdead
  have hend := h.deadline t ht
  refine Epoch.renewed hw hl ?_ ?_ h.bound hd hpass
  · intro a ha
    have hcurrent := h.current a (by linarith)
    omega
  · intro a ha
    exact h.ended t ht a (hnow.trans_le ha)

end Epoch

/-! ## Two epochs in an interval -/

section Bound

variable {lib : RuleLib} {entityType : String} {entityValue : Attr} {windowSeconds limit : ℤ}
  {ks : RedisStore}

theorem unflagged_of_gt {now : ℚ} {n : ℤ} (h : Called.unflagged
    (now, Operator.gt.apply (.int n) (.int limit)) = true) : n ≤ limit := by
  rw [gt_int] at h
  simpa [Called.unflagged] using h

/-- A call that finds no key. -/
theorem check_new (hw : 1 ≤ windowSeconds) {now : ℚ}
    (h : ks.find? now (velocityKey lib.toPyLib entityType entityValue) = none) :
    let x := check lib entityType entityValue windowSeconds limit now ks
    ∃ d, x.final (velocityKey lib.toPyLib entityType entityValue) = some ⟨.int 1, d⟩ ∧
      (∀ t ∈ d, t = now + windowSeconds) ∧
      (Called.unflagged (now, x.result) = true → 1 ≤ limit) := by
  have hrun := @checkVelocity_new lib now ks entityType entityValue (.int windowSeconds)
    (.int limit) h
  rw [Prog.Leads, ← check] at hrun
  intro x
  cases hargument : lib.expireArgument (.int windowSeconds) with
  | ok w =>
      rw [hargument] at hrun
      have hw' := lib.expireArgument_of_int _ _ hargument
      have hlater : now < now + w := by
        have hpos : (1 : ℚ) ≤ w := by exact_mod_cast hw' ▸ hw
        linarith
      refine ⟨some (now + w), ?_, ?_, ?_⟩
      · rw [hrun.2, Keyspace.expireAt_set, if_pos hlater]
      · rintro t ⟨⟩
        rw [hw']
      · rw [hrun.1]
        exact unflagged_of_gt
  | error e =>
      rw [hargument] at hrun
      refine ⟨none, ?_, by simp, ?_⟩
      · rw [hrun.2]
        exact Keyspace.set_self ..
      · rw [hrun.1]
        simp [Called.unflagged]

/-- A call that finds a count. -/
theorem check_counted {now : ℚ} {n : ℤ} {d : Option ℚ} (hn : 1 ≤ n)
    (h : ks.find? now (velocityKey lib.toPyLib entityType entityValue) = some ⟨.int n, d⟩) :
    let x := check lib entityType entityValue windowSeconds limit now ks
    ∃ n', x.final (velocityKey lib.toPyLib entityType entityValue) = some ⟨.int n', d⟩ ∧
      (n' = n + 1 ∧ (Called.unflagged (now, x.result) = true → n + 1 ≤ limit) ∨
        n' = n ∧ Called.unflagged (now, x.result) = false) := by
  have hrun := @checkVelocity_counted lib now ks entityType entityValue (.int windowSeconds)
    (.int limit) n d hn h
  rw [Prog.Leads, ← check] at hrun
  intro x
  by_cases hmax : n < counterMax
  · rw [if_pos hmax] at hrun
    refine ⟨n + 1, ?_, Or.inl ⟨rfl, ?_⟩⟩
    · rw [hrun.2]
      exact Keyspace.set_self ..
    · rw [hrun.1]
      exact unflagged_of_gt
  · rw [if_neg hmax] at hrun
    obtain ⟨⟨e, herror⟩, hfinal⟩ := hrun
    refine ⟨n, ?_, Or.inr ⟨rfl, ?_⟩⟩
    · rw [hfinal]
      exact Keyspace.eq_some_of_find? h
    · rw [herror]
      rfl

/-- After calls on a fresh key, the key holds the count of the current epoch. -/
theorem epoch_checks (hw : 1 ≤ windowSeconds) (hl : 0 ≤ limit)
    (hfresh : ks (velocityKey lib.toPyLib entityType entityValue) = none) (times : List ℚ)
    (hsorted : times.Pairwise (· ≤ ·)) :
    let x := checks lib entityType entityValue windowSeconds limit times ks
    (times = [] ∧ x.2 (velocityKey lib.toPyLib entityType entityValue) = none) ∨
      ∃ start n d, x.2 (velocityKey lib.toPyLib entityType entityValue) = some ⟨.int n, d⟩ ∧
        Epoch windowSeconds limit x.1 start n d := by
  -- on the last call: it finds the key of the epoch so far, alive or expired
  induction times using List.reverseRecOn with
  | nil => exact Or.inl ⟨rfl, hfresh⟩
  | append_singleton times now ih =>
      rw [List.pairwise_append] at hsorted
      intro x
      right
      have hx : x = (_, _) := checks_concat ..
      rw [hx]
      dsimp only
      rcases ih hsorted.1 with ⟨rfl, hnone⟩ | ⟨start, n, d, hstored, hepoch⟩
      · obtain ⟨d', hfinal, hd', hpass⟩ := check_new hw (@Keyspace.find?_of_none _ _ _ _ _ now _ hnone)
        refine ⟨now, 1, d', hfinal, ?_⟩
        refine Epoch.renewed hw hl ?_ ?_ ?_ hd' hpass
        · exact fun a _ => hl
        · exact fun a _ => le_rfl
        · intro a
          show (0 : ℤ) ≤ _
          omega
      · have hstart : start ≤ now := by
          have hmem := hepoch.started
          rw [times_checks] at hmem
          exact hsorted.2.2 start hmem now (List.mem_singleton_self now)
        by_cases hlive : ∀ t ∈ d, now ≤ t
        · have hfound := Keyspace.find?_of_live hstored hlive
          obtain ⟨n', hfinal, hcount⟩ := check_counted hepoch.count_pos hfound
          exact ⟨start, n', d, hfinal, hepoch.counted hstart hlive hcount⟩
        · have hfound := Keyspace.find?_of_expired hstored hlive
          obtain ⟨d', hfinal, hd', hpass⟩ := check_new hw hfound
          have hdead : ∃ t ∈ d, t < now := by
            push Not at hlive
            exact hlive
          exact ⟨now, 1, d', hfinal, hepoch.expired hl hdead hw hd' hpass⟩

/-- For calls on one entity value with a fixed window and limit, at non-decreasing times, an
interval as long as the window has at most twice the limit of calls that were not flagged. -/
theorem unflagged_le_two_limits (lib : RuleLib) (entityType : String) (entityValue : Attr)
    (windowSeconds limit : ℤ) (hw : 1 ≤ windowSeconds) (hl : 0 ≤ limit) (ks : RedisStore)
    (hfresh : ks (velocityKey lib.toPyLib entityType entityValue) = none) (times : List ℚ)
    (hsorted : times.Pairwise (· ≤ ·)) (a : ℚ) :
    unflaggedIn a (a + windowSeconds)
      (checks lib entityType entityValue windowSeconds limit times ks).1 ≤ 2 * limit := by
  rcases epoch_checks hw hl hfresh times hsorted with ⟨rfl, -⟩ | ⟨start, n, d, -, hepoch⟩
  · show (0 : ℤ) ≤ _
    omega
  · exact hepoch.bound a

end Bound

/-! ### Two full epochs -/

/-- The compact codec, with integers as the only time arguments that are accepted. -/
def compactRules : RuleLib where
  toPyLib := CompactJson.compactJson
  expireArgument
    | .int n =>
        if n.natAbs ≤ 2 ^ 53 then .ok n
        else .error ⟨.other "ResponseError", "invalid expire time in 'expire' command"⟩
    | _ => .error ⟨.other "ResponseError", "value is not an integer or out of range"⟩
  expireArgument_int := by
    intro n hn
    exact if_pos hn
  expireArgument_of_int := by
    intro n m h
    dsimp only at h
    split at h
    · cases h
      rfl
    · cases h
  expireArgument_exception := by
    intro v x h
    split at h
    · split at h
      · cases h
      · cases h
        rfl
    · cases h
      rfl

theorem unflagged_le_two_limits_minute :
    unflaggedIn 0 (0 + (60 : ℤ)) (checks compactRules "card_number" (.value (.str "c-1")) 60 2
      [0, 1, 2, 60, 60, 60] fun _ => none).1 ≤ 2 * 2 :=
  unflagged_le_two_limits compactRules "card_number" (.value (.str "c-1")) 60 2 (by norm_num)
    (by norm_num) (fun _ => none) rfl [0, 1, 2, 60, 60, 60] (by norm_num) 0

end FraudDetection.Rules
