import Mathlib.Data.List.Dedup
import FraudDetection.Gateway.RateLimiter

/-!
# How many calls a client gets through

With one window the members that a call counts are the different times of the client's calls in its
window. Two calls at one time share a member, so the second one is not counted.

`mem_window_iff` identifies the members inside the window with the times of the recorded calls, by
induction on the history, and `count_eq` turns this into the number that a call counts. A verdict
then depends on the times of the calls only, and the last call that gets through in an interval has
all the others in its window.
-/

namespace FraudDetection.Gateway

open Python Store

/-! ## What a call counts -/

/-- The different times of the recorded calls of a client after `a` and not after `b`. -/
def timesIn (client : String) (a b : ℚ) (calls : List Call) : List ℚ :=
  ((calls.filter fun c => c.clientId = client ∧ c.recorded = true ∧ a < c.now ∧ c.now ≤ b).map
    Call.now).dedup

section Times

variable {client : String} {a b : ℚ} {calls : List Call} {now : ℚ}

theorem mem_timesIn :
    now ∈ timesIn client a b calls ↔
      ∃ c ∈ calls, c.clientId = client ∧ c.recorded = true ∧ c.now = now ∧ a < now ∧ now ≤ b := by
  unfold timesIn
  rw [List.mem_dedup, List.mem_map]
  constructor
  · rintro ⟨c, hc, rfl⟩
    obtain ⟨hmem, hc⟩ := List.mem_filter.mp hc
    rw [decide_eq_true_eq] at hc
    exact ⟨c, hmem, hc.1, hc.2.1, rfl, hc.2.2.1, hc.2.2.2⟩
  · rintro ⟨c, hmem, hclient, hrecorded, rfl, ha, hb⟩
    refine ⟨c, List.mem_filter.mpr ⟨hmem, ?_⟩, rfl⟩
    rw [decide_eq_true_eq]
    exact ⟨hclient, hrecorded, ha, hb⟩

theorem nodup_timesIn : (timesIn client a b calls).Nodup := List.nodup_dedup _

end Times

variable {lib : NumberLib}

/-- Different times are printed differently. -/
theorem str_float_inj {s t : ℚ} (h : lib.str (.float s) = lib.str (.float t)) : s = t := by
  have hs := lib.incrArgument_float s
  have ht := lib.incrArgument_float t
  rw [h, ht] at hs
  exact (Option.some.inj hs).symm

theorem entry_injective : Function.Injective (entry lib) := by
  intro s t h
  exact congrArg Prod.snd h

section Window

variable {client : String} {window : ℤ} {calls : List Call} {call : Call} {ks : RateStore}
  {p : String × ℚ} {t : ℚ}

/-- A call counts its own member and those of the recorded calls in its window, if the latter are
the members inside the window. -/
theorem counted_iff (hold : ∀ p ∈ ks.members call.now (rateKey call.clientId), 0 ≤ p.2)
    (hinside : (p ∈ ks.members call.now (rateKey call.clientId) ∧ call.now - window < p.2) ↔
      ∃ c ∈ calls, c.clientId = call.clientId ∧ c.recorded = true ∧ p = entry lib c.now ∧
        call.now - window < c.now) :
    (p = entry lib call.now ∨ (p ∈ ks.members call.now (rateKey call.clientId) ∧
        ¬ (0 ≤ p.2 ∧ p.2 ≤ call.now - window)) ∧ p.1 ≠ (entry lib call.now).1) ↔
      p = entry lib call.now ∨ ∃ c ∈ calls, c.clientId = call.clientId ∧ c.recorded = true ∧
        p = entry lib c.now ∧ call.now - window < c.now := by
  constructor
  · rintro (hown | ⟨⟨hmem, hrange⟩, -⟩)
    · exact Or.inl hown
    · have hafter : call.now - window < p.2 := by
        by_contra hle
        exact hrange ⟨hold p hmem, not_lt.mp hle⟩
      exact Or.inr (hinside.mp ⟨hmem, hafter⟩)
  · rintro (hown | hother)
    · exact Or.inl hown
    · obtain ⟨hmem, hafter⟩ := hinside.mpr hother
      obtain ⟨c, -, -, -, rfl, -⟩ := hother
      by_cases hsame : c.now = call.now
      · rw [hsame]
        exact Or.inl rfl
      · refine Or.inr ⟨⟨hmem, fun hrange => ?_⟩, fun hname => hsame (str_float_inj hname)⟩
        exact absurd hrange.2 (not_le.mpr hafter)

/-- A call that is not recorded for the client leaves the client's key as it is. -/
theorem stateAfter_snoc_of_other (hother : ¬ (call.clientId = client ∧ call.recorded = true)) :
    stateAfter lib (calls ++ [call]) ks (rateKey client) = stateAfter lib calls ks (rateKey client) := by
  rw [stateAfter_snoc]
  by_cases hclient : call.clientId = client
  · rw [snd_checkRateLimit, if_neg fun hrecorded => hother ⟨hclient, hrecorded⟩]
  · exact (actsOn_checkRateLimit call).frame _ _ fun h => hclient (rateKey_inj.mp h.symm)

/-- The members inside the window are the entries of the client's recorded calls in it. -/
theorem mem_window_iff (hfresh : ks (rateKey client) = none)
    (htime : calls.Pairwise fun a b => a.now ≤ b.now)
    (hwindow : ∀ c ∈ calls, c.clientId = client → c.window = window)
    (ht : ∀ c ∈ calls, c.now ≤ t) :
    (p ∈ (stateAfter lib calls ks).members t (rateKey client) ∧ t - window < p.2) ↔
      ∃ c ∈ calls, c.clientId = client ∧ c.recorded = true ∧ p = entry lib c.now ∧
        t - window < c.now := by
  induction calls using List.reverseRecOn generalizing t with
  | nil =>
    have hempty : (stateAfter lib [] ks).members t (rateKey client) = [] :=
      Keyspace.members_of_none (Keyspace.find?_of_none hfresh)
    rw [hempty]
    simp
  | append_singleton calls call ih =>
    obtain ⟨hbefore, -, hlast⟩ := List.pairwise_append.mp htime
    have hlast' : ∀ c ∈ calls, c.now ≤ call.now := fun c hc => hlast c hc call (by simp)
    have hcall : call.now ≤ t := ht call (by simp)
    have hwindow' : ∀ c ∈ calls, c.clientId = client → c.window = window :=
      fun c hc => hwindow c (List.mem_append_left _ hc)
    have ih' := ih hbefore hwindow' (t := t) fun c hc => ht c (List.mem_append_left _ hc)
    by_cases hown : call.clientId = client ∧ call.recorded = true
    · obtain ⟨rfl, hrecorded⟩ := hown
      obtain ⟨counted, -, -, hcounted, hleft⟩ :=
        @runPipeline_count lib call (stateAfter lib calls ks)
      rw [stateAfter_snoc, snd_checkRateLimit, if_pos hrecorded, hleft t]
      rw [hwindow call (by simp) rfl] at hcounted
      have hold : ∀ p ∈ (stateAfter lib calls ks).members call.now (rateKey call.clientId),
          0 ≤ p.2 := by
        intro p hp
        obtain ⟨c, -, -, rfl⟩ := mem_members_stateAfter hfresh hbefore hlast' hp
        exact c.now_nonneg
      have hiff := (hcounted p).trans (counted_iff hold (ih hbefore hwindow' hlast'))
      have hexpiry : call.expiry = call.now + (window + 10) := by
        rw [Call.expiry, hwindow call (by simp) rfl]
        push_cast
        rfl
      constructor
      · rintro ⟨hmem, hafter⟩
        split at hmem
        · rcases hiff.mp hmem with rfl | ⟨c, hc, hclient, hrec, rfl, -⟩
          · exact ⟨call, by simp, rfl, hrecorded, rfl, hafter⟩
          · exact ⟨c, List.mem_append_left _ hc, hclient, hrec, rfl, hafter⟩
        · exact absurd hmem List.not_mem_nil
      · rintro ⟨c, hc, hclient, hrec, rfl, hafter⟩
        rcases List.mem_append.mp hc with hc | hc
        · have hle := hlast' c hc
          have hinside : call.now - window < c.now := by linarith
          rw [if_pos ⟨by linarith, by linarith⟩]
          exact ⟨hiff.mpr (Or.inr ⟨c, hc, hclient, hrec, rfl, hinside⟩), hafter⟩
        · rw [List.mem_singleton] at hc
          subst hc
          rw [if_pos ⟨by linarith, by linarith⟩]
          exact ⟨hiff.mpr (Or.inl rfl), hafter⟩
    · rw [Keyspace.members_congr (stateAfter_snoc_of_other hown), ih']
      constructor
      · rintro ⟨c, hc, h⟩
        exact ⟨c, List.mem_append_left _ hc, h⟩
      · rintro ⟨c, hc, hclient, hrecorded, h⟩
        rcases List.mem_append.mp hc with hc | hc
        · exact ⟨c, hc, hclient, hrecorded, h⟩
        · rw [List.mem_singleton] at hc
          subst hc
          exact absurd ⟨hclient, hrecorded⟩ hown

/-- A call counts the different times of the client's recorded calls in its window. -/
theorem count_eq (hfresh : ks (rateKey call.clientId) = none)
    (htime : (calls ++ [call]).Pairwise fun a b => a.now ≤ b.now)
    (hwindow : ∀ c ∈ calls, c.clientId = call.clientId → c.window = call.window)
    (hpos : 1 ≤ call.window) (hrecorded : call.recorded = true) :
    (runPipeline lib call (stateAfter lib calls ks)).1 =
      (timesIn call.clientId (call.now - call.window) call.now (calls ++ [call])).length := by
  obtain ⟨hbefore, -, hlast⟩ := List.pairwise_append.mp htime
  have hlast' : ∀ c ∈ calls, c.now ≤ call.now := fun c hc => hlast c hc call (by simp)
  obtain ⟨counted, hnodup, hcount, hcounted, -⟩ :=
    @runPipeline_count lib call (stateAfter lib calls ks)
  have hold : ∀ p ∈ (stateAfter lib calls ks).members call.now (rateKey call.clientId),
      0 ≤ p.2 := by
    intro p hp
    obtain ⟨c, -, -, rfl⟩ := mem_members_stateAfter hfresh hbefore hlast' hp
    exact c.now_nonneg
  have hopen : call.now - call.window < call.now := by
    have hcast : (1 : ℚ) ≤ call.window := by exact_mod_cast hpos
    linarith
  -- both lists have no duplicates, and the same members
  have hperm : counted.Perm ((timesIn call.clientId (call.now - call.window) call.now
      (calls ++ [call])).map (entry lib)) := by
    rw [List.perm_ext_iff_of_nodup hnodup (nodup_timesIn.map entry_injective)]
    intro p
    rw [hcounted p, counted_iff hold (mem_window_iff hfresh hbefore hwindow hlast'), List.mem_map]
    constructor
    · rintro (rfl | ⟨c, hc, hclient, hrec, rfl, hafter⟩)
      · exact ⟨call.now, mem_timesIn.mpr ⟨call, by simp, rfl, hrecorded, rfl, hopen, le_rfl⟩, rfl⟩
      · exact ⟨c.now, mem_timesIn.mpr ⟨c, List.mem_append_left _ hc, hclient, hrec, rfl, hafter,
          hlast' c hc⟩, rfl⟩
    · rintro ⟨now, hnow, rfl⟩
      obtain ⟨c, hc, hclient, hrec, rfl, hafter, -⟩ := mem_timesIn.mp hnow
      rcases List.mem_append.mp hc with hc | hc
      · exact Or.inr ⟨c, hc, hclient, hrec, rfl, hafter⟩
      · rw [List.mem_singleton] at hc
        subst hc
        exact Or.inl rfl
  rw [hcount, hperm.length_eq, List.length_map]

end Window

/-! ## A sequence of calls of one client -/

variable (lib) in
/-- The calls with their verdicts. -/
def serve : List Call → RateStore → List (Call × Verdict)
  | [], _ => []
  | call :: calls, ks =>
      let (verdict, ks) := checkRateLimit lib call ks
      (call, verdict) :: serve calls ks

/-- An answered call of the client with this limit and window. -/
structure Answered (client : String) (limit window : ℤ) (call : Call) : Prop where
  clientId : call.clientId = client
  limit : call.limit = limit
  window : call.window = window
  pipeline : call.pipeline = some .answered

section Serve

variable {client : String} {limit window : ℤ} {calls : List Call} {ks : RateStore}

theorem Answered.recorded {call : Call} (h : Answered client limit window call) :
    call.recorded = true := by
  unfold Call.recorded
  rw [h.pipeline]

/-- The verdicts of a sequence are those of its calls, each after the ones before it. -/
theorem serve_eq_map {verdict : Call → Verdict}
    (h : ∀ before call after, calls = before ++ call :: after →
      (checkRateLimit lib call (stateAfter lib before ks)).1 = verdict call) :
    serve lib calls ks = calls.map fun call => (call, verdict call) := by
  induction calls generalizing ks with
  | nil => rfl
  | cons call calls ih =>
    have hfirst : (checkRateLimit lib call ks).1 = verdict call := h [] call calls rfl
    have hrest : serve lib calls (checkRateLimit lib call ks).2 =
        calls.map fun call => (call, verdict call) := by
      apply ih
      intro before c after heq
      exact h (call :: before) c after (by rw [heq, List.cons_append])
    show (call, (checkRateLimit lib call ks).1) :: serve lib calls (checkRateLimit lib call ks).2 = _
    rw [hfirst, hrest, List.map_cons]

/-- Only a count beyond the limit is turned away. -/
theorem judge_allowed {limit window : ℤ} {now : ℚ} {count : ℕ} :
    (judge limit window now count).allowed = decide ((count : ℤ) ≤ limit) := by
  unfold judge
  by_cases h : (count : ℤ) > limit
  · rw [if_pos h]
    exact (decide_eq_false (not_le.mpr h)).symm
  · rw [if_neg h]
    exact (decide_eq_true (not_lt.mp h)).symm

/-- The times in the window of a call are known as soon as it is made. -/
theorem timesIn_prefix {before after : List Call} {call : Call} {a : ℚ}
    (htime : (before ++ call :: after).Pairwise fun a b => a.now ≤ b.now)
    (hcall : call.clientId = client ∧ call.recorded = true) :
    (timesIn client a call.now (before ++ [call])).length =
      (timesIn client a call.now (before ++ call :: after)).length := by
  obtain ⟨-, hafter, -⟩ := List.pairwise_append.mp htime
  refine ((List.perm_ext_iff_of_nodup nodup_timesIn nodup_timesIn).mpr ?_).length_eq
  intro now
  rw [mem_timesIn, mem_timesIn]
  constructor
  · rintro ⟨c, hc, h⟩
    refine ⟨c, ?_, h⟩
    rcases List.mem_append.mp hc with hc | hc
    · exact List.mem_append_left _ hc
    · rw [List.mem_singleton.mp hc]
      simp
  · rintro ⟨c, hc, hclient, hrec, rfl, hopen, hle⟩
    rcases List.mem_append.mp hc with hc | hc
    · exact ⟨c, List.mem_append_left _ hc, hclient, hrec, rfl, hopen, hle⟩
    · -- a later call with a time in the window has that of the call
      have hge : call.now ≤ c.now := by
        rcases List.mem_cons.mp hc with rfl | hc
        · exact le_rfl
        · exact List.rel_of_pairwise_cons hafter hc
      exact ⟨call, by simp, hcall.1, hcall.2, le_antisymm hge hle, hopen, hle⟩

/-- A call is let through if the different times in its window are within the limit. -/
theorem serve_answered (hpos : 1 ≤ window) (hcalls : ∀ c ∈ calls, Answered client limit window c)
    (htime : calls.Pairwise fun a b => a.now ≤ b.now) (hfresh : ks (rateKey client) = none) :
    serve lib calls ks = calls.map fun call => (call, judge limit window call.now
      (timesIn client (call.now - window) call.now calls).length) := by
  apply serve_eq_map
  intro before call after heq
  subst heq
  have hcall := hcalls call (by simp)
  have hwindow : ∀ c ∈ before, c.clientId = call.clientId → c.window = call.window := by
    intro c hc _
    rw [(hcalls c (List.mem_append_left _ hc)).window, hcall.window]
  have htime' : (before ++ [call]).Pairwise fun a b => a.now ≤ b.now := by
    refine htime.sublist ?_
    simp
  rw [fst_checkRateLimit, if_pos hcall.pipeline,
    count_eq (hcall.clientId ▸ hfresh) htime' hwindow (hcall.window ▸ hpos) hcall.recorded,
    hcall.clientId, hcall.window, hcall.limit,
    timesIn_prefix htime ⟨hcall.clientId, hcall.recorded⟩]

end Serve

/-! ## The limit -/

/-- The number of calls let through after `a` and not after `b`. -/
def allowedIn (a b : ℚ) (answers : List (Call × Verdict)) : ℕ :=
  answers.countP fun r => r.2.allowed = true ∧ a < r.1.now ∧ r.1.now ≤ b

/-- The number of calls after `a` and not after `b`. -/
def callsIn (a b : ℚ) (calls : List Call) : ℕ := calls.countP fun c => a < c.now ∧ c.now ≤ b

/-- A window with at most `limit` different times has at most `limit` calls: no more than that share
a time. -/
def Sparse (client : String) (limit window : ℤ) (calls : List Call) : Prop :=
  ∀ t : ℚ, ((timesIn client (t - window) t calls).length : ℤ) ≤ limit →
    (callsIn (t - window) t calls : ℤ) ≤ limit

section Limit

variable {client : String} {limit window : ℤ} {calls : List Call} {ks : RateStore}

/-- The calls that are let through are those whose own windows have at most `limit` different
times. -/
theorem allowedIn_serve (hpos : 1 ≤ window) (hcalls : ∀ c ∈ calls, Answered client limit window c)
    (htime : calls.Pairwise fun a b => a.now ≤ b.now) (hfresh : ks (rateKey client) = none)
    (a b : ℚ) : allowedIn a b (serve lib calls ks) = calls.countP fun c =>
      ((timesIn client (c.now - window) c.now calls).length : ℤ) ≤ limit ∧ a < c.now ∧ c.now ≤ b := by
  unfold allowedIn
  rw [serve_answered hpos hcalls htime hfresh, List.countP_map]
  congr 1
  funext c
  simp only [Function.comp_apply, judge_allowed, decide_eq_true_eq]

/-- All the calls that are let through in an interval lie in the window of the last one of them. -/
theorem admitted_le_of_sparse (hlimit : 0 ≤ limit) (htime : calls.Pairwise fun a b => a.now ≤ b.now)
    (hsparse : Sparse client limit window calls) (t : ℚ) :
    ((calls.countP fun c => ((timesIn client (c.now - window) c.now calls).length : ℤ) ≤ limit ∧
      t - window < c.now ∧ c.now ≤ t : ℕ) : ℤ) ≤ limit := by
  rw [List.countP_eq_length_filter]
  set admitted := calls.filter _ with hadmitted
  have hmem : ∀ c ∈ admitted, ((timesIn client (c.now - window) c.now calls).length : ℤ) ≤ limit ∧
      t - window < c.now ∧ c.now ≤ t := by
    intro c hc
    have hin := (List.mem_filter.mp (hadmitted ▸ hc)).2
    rwa [decide_eq_true_eq] at hin
  rcases List.eq_nil_or_concat' admitted with hnil | ⟨front, last, hfront⟩
  · rw [hnil]
    exact hlimit
  · obtain ⟨hfew, -, hlast⟩ := hmem last (by rw [hfront]; simp)
    have hsorted : admitted.Pairwise fun a b => a.now ≤ b.now := htime.sublist List.filter_sublist
    have hwindow : admitted.length ≤ callsIn (last.now - window) last.now calls := by
      rw [hadmitted, ← List.countP_eq_length_filter]
      apply List.countP_mono_left
      intro c hcall hc
      have hc' : c ∈ admitted := List.mem_filter.mpr ⟨hcall, hc⟩
      have hbefore : c.now ≤ last.now := by
        rw [hfront] at hsorted hc'
        rcases List.mem_append.mp hc' with hfirst | hsame
        · exact (List.pairwise_append.mp hsorted).2.2 c hfirst last (by simp)
        · rw [List.mem_singleton.mp hsame]
      have hopen := (hmem c hc').2.1
      rw [decide_eq_true_eq]
      exact ⟨by linarith, hbefore⟩
    have hcount := hsparse last.now hfew
    omega

/-- Calls at different times are as many as their times. -/
theorem sparse_of_lt (hcalls : ∀ c ∈ calls, Answered client limit window c)
    (htime : calls.Pairwise fun a b => a.now < b.now) : Sparse client limit window calls := by
  intro t hfew
  unfold callsIn
  rw [List.countP_eq_length_filter]
  set inside := calls.filter _ with hinside
  have hnodup : (inside.map Call.now).Nodup := by
    rw [List.Nodup, List.pairwise_map]
    exact (htime.sublist List.filter_sublist).imp fun hlt => hlt.ne
  have htimes : inside.map Call.now ⊆ timesIn client (t - window) t calls := by
    intro now hnow
    obtain ⟨c, hc, rfl⟩ := List.mem_map.mp hnow
    obtain ⟨hcall, hbounds⟩ := List.mem_filter.mp (hinside ▸ hc)
    rw [decide_eq_true_eq] at hbounds
    exact mem_timesIn.mpr ⟨c, hcall, (hcalls c hcall).clientId, (hcalls c hcall).recorded, rfl, hbounds⟩
  have hlength := (hnodup.subperm htimes).length_le
  rw [List.length_map] at hlength
  omega

/-- In each interval of a window's length at most `limit` calls are let through, if every window
with at most `limit` different times has at most `limit` calls. That is so for calls at different
times; and where no call is turned away, it takes that. -/
theorem limit_respected_of_sparse (lib : NumberLib) (client : String) (limit window : ℤ)
    (hlimit : 0 ≤ limit) (hpos : 1 ≤ window) (calls : List Call)
    (hcalls : ∀ c ∈ calls, Answered client limit window c)
    (htime : calls.Pairwise fun a b => a.now ≤ b.now) (ks : RateStore)
    (hfresh : ks (rateKey client) = none) :
    (Sparse client limit window calls →
      ∀ t : ℚ, (allowedIn (t - window) t (serve lib calls ks) : ℤ) ≤ limit) ∧
    ((calls.Pairwise fun a b => a.now < b.now) → Sparse client limit window calls) ∧
    ((∀ c ∈ calls, ((timesIn client (c.now - window) c.now calls).length : ℤ) ≤ limit) →
      (∀ t : ℚ, (allowedIn (t - window) t (serve lib calls ks) : ℤ) ≤ limit) →
        Sparse client limit window calls) := by
  refine ⟨?_, sparse_of_lt hcalls, ?_⟩
  · intro hsparse t
    rw [allowedIn_serve hpos hcalls htime hfresh]
    exact admitted_le_of_sparse hlimit htime hsparse t
  · intro hall hrespected t _
    have hcount : allowedIn (t - window) t (serve lib calls ks) = callsIn (t - window) t calls := by
      rw [allowedIn_serve hpos hcalls htime hfresh]
      apply List.countP_congr
      intro c hc
      rw [decide_eq_true_eq, decide_eq_true_eq, and_iff_right (hall c hc)]
    rw [← hcount]
    exact hrespected t

end Limit

/-! ### Calls at one time -/

/-- A call of a client that may make one call a minute. -/
def singleCall (seconds : ℕ) : Call :=
  { minuteCall "ip:203.0.113.9" seconds with limit := 1 }

/-- A call of a client that may make two calls a minute. -/
def doubleCall (seconds : ℕ) : Call :=
  { minuteCall "ip:203.0.113.9" seconds with limit := 2 }

/-- Two calls at one time and one more than a minute later. -/
def pairThenOne : List Call := [doubleCall 10, doubleCall 10, doubleCall 80]

theorem pairThenOne_answered : ∀ c ∈ pairThenOne, Answered "ip:203.0.113.9" 2 60 c := by
  intro c hc
  simp only [pairThenOne, List.mem_cons, List.not_mem_nil, or_false] at hc
  rcases hc with rfl | rfl | rfl <;> exact ⟨rfl, rfl, rfl, rfl⟩

/-- No window has all three. -/
theorem pairThenOne_sparse : Sparse "ip:203.0.113.9" 2 60 pairThenOne := by
  intro t _
  have hcount : callsIn (t - (60 : ℤ)) t pairThenOne ≤ 2 := by
    unfold callsIn pairThenOne
    by_cases hlast : (80 : ℚ) ≤ t
    · have hold : ¬ t - 60 < 10 := by
        rw [not_lt]
        linarith
      simp only [List.countP_cons, List.countP_nil, doubleCall, minuteCall, Nat.cast_ofNat]
      simp [hold]
      split <;> omega
    · simp only [List.countP_cons, List.countP_nil, doubleCall, minuteCall, Nat.cast_ofNat]
      simp [hlast]
      split <;> omega
  exact_mod_cast hcount

/-- Two calls at one time are counted as one, and still no window has more than two. -/
theorem limit_respected_of_sparse_pair :
    Sparse "ip:203.0.113.9" 2 60 pairThenOne ∧
    ∀ t : ℚ, (allowedIn (t - (60 : ℤ)) t (serve compactNumbers pairThenOne fun _ => none) : ℤ) ≤ 2 := by
  have htime : pairThenOne.Pairwise fun a b => a.now ≤ b.now := by decide +kernel
  have hanswers := limit_respected_of_sparse compactNumbers "ip:203.0.113.9" 2 60 (by decide)
    (by decide) pairThenOne pairThenOne_answered htime (fun _ => none) rfl
  exact ⟨pairThenOne_sparse, hanswers.1 pairThenOne_sparse⟩

/-- Both calls find one member under the key, their common one, and both are let through. -/
theorem burst_allowed :
    ¬ ∀ t : ℚ, (allowedIn (t - (60 : ℤ)) t
      (serve compactNumbers [singleCall 10, singleCall 10] fun _ => none) : ℤ) ≤ 1 := by
  intro hclaim
  have htwo := hclaim 10
  revert htwo
  decide +kernel

end FraudDetection.Gateway
