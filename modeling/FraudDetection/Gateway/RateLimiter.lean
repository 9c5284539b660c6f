import Mathlib.Algebra.Order.Field.Rat
import Mathlib.Data.List.Induction
import Mathlib.Data.List.Perm.Subperm
import Mathlib.Tactic.Linarith
import FraudDetection.Python.Numbers
import FraudDetection.Store.Members

/-!
# The rate limiter of the gateway

A sliding window on a sorted set, one key for each client. Every call prunes the key, adds a member
named after its own time and counts the members. A call that Redis does not answer is let through.

`mem_of_mem_runPipeline` says which members a call leaves, and `mem_members_stateAfter` carries this
over a history: each member is the entry of a call of the client. What a call counts is then at most
the number of the client's calls in the window.
-/

namespace FraudDetection.Gateway

open Python Store

/-! ## The call -/

/-- The sorted sets of the clients, by Redis key. -/
abbrev RateStore := Keyspace String (SortedSet String ℚ) ℚ

/-- `int(q)`, which drops the fraction. -/
def truncate (q : ℚ) : ℤ := q.num.tdiv q.den

/-- What `check_rate_limit` returns. -/
structure Verdict where
  allowed : Bool
  remaining : ℤ
  retryAfter : ℤ
  deriving DecidableEq, Repr

/-- How the pipeline goes. It is a transaction, so it takes effect as a whole or not at all. -/
inductive Transaction where
  | answered
  | unanswered
  | lost
  deriving DecidableEq, Repr

/-- A call of `check_rate_limit`: its arguments, the time it reads, and what becomes of its
pipeline. A limiter without a Redis client makes none. -/
structure Call where
  clientId : String
  limit : ℤ
  window : ℤ
  now : ℚ
  pipeline : Option Transaction
  now_nonneg : 0 ≤ now

/-- The Redis key of a client. -/
def rateKey (clientId : String) : String := "rate_limit:" ++ clientId

variable (lib : NumberLib)

/-- The member of a call, `{str(now): now}`. -/
def entry (now : ℚ) : String × ℚ := (lib.str (.float now), now)

/-- The expiry that the pipeline of a call sets, `window + 10` seconds after it. -/
def Call.expiry (call : Call) : ℚ := call.now + ((call.window + 10 : ℤ) : ℚ)

/-- The pipeline: the number of members it counts, and the store it leaves. Redis reads the clock of
the call. -/
def runPipeline (call : Call) (ks : RateStore) : ℕ × RateStore :=
  let key := rateKey call.clientId
  let windowStart := call.now - call.window
  let ks := ks.zremrange call.now key 0 windowStart
  let ks := ks.zadd call.now key (entry lib call.now).1 (entry lib call.now).2
  let count := ks.zcard call.now key
  let ks := ks.expireAt call.now key call.expiry
  (count, ks)

/-- The verdict on a call whose pipeline has counted. -/
def judge (limit window : ℤ) (now : ℚ) (requestCount : ℕ) : Verdict :=
  let windowStart := now - window
  let remaining := max 0 (limit - requestCount)
  if (requestCount : ℤ) > limit then
    let retryAfter := truncate (window - (now - windowStart))
    ⟨false, 0, max retryAfter 1⟩
  else ⟨true, remaining, 0⟩

/-- The verdict without Redis. -/
def degraded (limit : ℤ) : Verdict := ⟨true, limit, 0⟩

/-- `check_rate_limit` -/
def checkRateLimit (call : Call) (ks : RateStore) : Verdict × RateStore :=
  match call.pipeline with
  | none => (degraded call.limit, ks)
  -- the exception is caught, and the request let through
  | some .lost => (degraded call.limit, ks)
  | some .unanswered => (degraded call.limit, (runPipeline lib call ks).2)
  | some .answered =>
      let (requestCount, ks) := runPipeline lib call ks
      (judge call.limit call.window call.now requestCount, ks)

/-- The store after a sequence of calls. -/
def stateAfter (calls : List Call) (ks : RateStore) : RateStore :=
  calls.foldl (fun ks call => (checkRateLimit lib call ks).2) ks

/-- The pipeline of the call has taken effect. -/
def Call.recorded (call : Call) : Bool :=
  match call.pipeline with
  | some .answered => true
  | some .unanswered => true
  | _ => false

/-! ## What one call does -/

section One

variable {lib} {call : Call} {ks ks' : RateStore} {p : String × ℚ} {t : ℚ} {client : String}

theorem rateKey_inj {a b : String} : rateKey a = rateKey b ↔ a = b :=
  String.append_right_inj "rate_limit:"

/-- The members that a call counts: its own, and those before the window and other than its own. -/
theorem runPipeline_count (call : Call) (ks : RateStore) :
    ∃ counted : List (String × ℚ), counted.Nodup ∧ (runPipeline lib call ks).1 = counted.length ∧
      (∀ p, p ∈ counted ↔ p = entry lib call.now ∨
        (p ∈ ks.members call.now (rateKey call.clientId) ∧
          ¬ (0 ≤ p.2 ∧ p.2 ≤ call.now - call.window)) ∧ p.1 ≠ (entry lib call.now).1) ∧
      ∀ t, (runPipeline lib call ks).2.members t (rateKey call.clientId) =
        if call.now < call.expiry ∧ t ≤ call.expiry then counted else [] := by
  refine ⟨_, Keyspace.nodup_members _ call.now _, Keyspace.zcard_eq_length _ _ _, ?_, ?_⟩
  · intro p
    rw [Keyspace.mem_members_zadd, Keyspace.members_zremrange, List.mem_filter, decide_eq_true_eq]
  · exact fun t => Keyspace.members_expireAt _ t

/-- The pipeline acts on the client's key only, and reads nothing else. -/
theorem actsOn_runPipeline (call : Call) :
    Keyspace.ActsOn (fun ks => (runPipeline lib call ks).2) (rateKey call.clientId) :=
  (Keyspace.ActsOn.expireAt _ _ _).comp
    ((Keyspace.ActsOn.zadd _ _ _ _).comp (Keyspace.ActsOn.zremrange _ _ _ _))

theorem snd_checkRateLimit (call : Call) (ks : RateStore) :
    (checkRateLimit lib call ks).2 = if call.recorded then (runPipeline lib call ks).2 else ks := by
  unfold checkRateLimit Call.recorded
  split <;> simp [*]

/-- The verdict depends on the store only where the pipeline was answered. -/
theorem fst_checkRateLimit (call : Call) (ks : RateStore) :
    (checkRateLimit lib call ks).1 =
      if call.pipeline = some .answered then
        judge call.limit call.window call.now (runPipeline lib call ks).1
      else degraded call.limit := by
  unfold checkRateLimit
  split <;> simp [*]

theorem actsOn_checkRateLimit (call : Call) :
    Keyspace.ActsOn (fun ks => (checkRateLimit lib call ks).2) (rateKey call.clientId) where
  frame := by
    intro ks k hne
    rw [snd_checkRateLimit]
    split
    · exact (actsOn_runPipeline call).frame ks k hne
    · rfl
  congr := by
    intro ks ks' h
    rw [snd_checkRateLimit, snd_checkRateLimit]
    split
    · exact (actsOn_runPipeline call).congr ks ks' h
    · exact h

/-- Two stores with the same entry under the client's key give the same verdict. -/
theorem fst_checkRateLimit_congr (h : ks (rateKey call.clientId) = ks' (rateKey call.clientId)) :
    (checkRateLimit lib call ks).1 = (checkRateLimit lib call ks').1 := by
  rw [fst_checkRateLimit, fst_checkRateLimit]
  have hpruned := (Keyspace.ActsOn.zremrange call.now (rateKey call.clientId) (0 : ℚ)
    (call.now - call.window)).congr ks ks' h
  have hadded := (Keyspace.ActsOn.zadd call.now (rateKey call.clientId) (entry lib call.now).1
    (entry lib call.now).2).congr _ _ hpruned
  have hcount : (runPipeline lib call ks).1 = (runPipeline lib call ks').1 := by
    refine (Keyspace.zcard_eq_length _ _ _).trans (Eq.trans ?_ (Keyspace.zcard_eq_length _ _ _).symm)
    rw [Keyspace.members_congr hadded]
  rw [hcount]

end One

/-! ## A history of calls -/

section History

variable {lib} {calls : List Call} {call : Call} {ks ks' : RateStore} {p : String × ℚ} {t : ℚ}
  {client : String}

theorem stateAfter_snoc (calls : List Call) (call : Call) (ks : RateStore) :
    stateAfter lib (calls ++ [call]) ks = (checkRateLimit lib call (stateAfter lib calls ks)).2 := by
  unfold stateAfter
  rw [List.foldl_append]
  rfl

/-- The entry of a client after a history is that after the client's own calls. -/
theorem stateAfter_own (calls : List Call) (ks : RateStore) :
    stateAfter lib (calls.filter fun c => c.clientId = client) ks (rateKey client) =
      stateAfter lib calls ks (rateKey client) := by
  induction calls using List.reverseRecOn with
  | nil => rfl
  | append_singleton calls call ih =>
    rw [List.filter_append, stateAfter_snoc]
    by_cases hown : call.clientId = client
    · have hkept : [call].filter (fun c => c.clientId = client) = [call] := by simp [hown]
      rw [hkept, stateAfter_snoc]
      subst hown
      exact (actsOn_checkRateLimit call).congr _ _ ih
    · have hdropped : [call].filter (fun c => c.clientId = client) = [] := by simp [hown]
      rw [hdropped, List.append_nil, ih]
      refine ((actsOn_checkRateLimit call).frame _ _ ?_).symm
      intro hkey
      exact hown (rateKey_inj.mp hkey.symm)

/-- A pipeline leaves the members that were there, and the entry of its call. -/
theorem mem_of_mem_runPipeline
    (h : p ∈ (runPipeline lib call ks).2.members t (rateKey call.clientId)) :
    p = entry lib call.now ∨ p ∈ ks.members call.now (rateKey call.clientId) := by
  obtain ⟨counted, -, -, hcounted, hleft⟩ := @runPipeline_count lib call ks
  rw [hleft t] at h
  split at h
  · rcases (hcounted p).mp h with hown | ⟨⟨hold, -⟩, -⟩
    · exact Or.inl hown
    · exact Or.inr hold
  · exact absurd h List.not_mem_nil

/-- Every member under the key of a client is the entry of one of its calls. -/
theorem mem_members_stateAfter (hfresh : ks (rateKey client) = none)
    (htime : calls.Pairwise fun a b => a.now ≤ b.now) (ht : ∀ c ∈ calls, c.now ≤ t)
    (h : p ∈ (stateAfter lib calls ks).members t (rateKey client)) :
    ∃ c ∈ calls, c.clientId = client ∧ p = entry lib c.now := by
  induction calls using List.reverseRecOn generalizing t with
  | nil =>
    have hempty : ks.members t (rateKey client) = [] :=
      Keyspace.members_of_none (Keyspace.find?_of_none hfresh)
    exact absurd (hempty ▸ h : p ∈ []) List.not_mem_nil
  | append_singleton calls call ih =>
    obtain ⟨hbefore, -, hlast⟩ := List.pairwise_append.mp htime
    have hlast' : ∀ c ∈ calls, c.now ≤ call.now := fun c hc => hlast c hc call (by simp)
    have hearlier : (∃ c ∈ calls, c.clientId = client ∧ p = entry lib c.now) →
        ∃ c ∈ calls ++ [call], c.clientId = client ∧ p = entry lib c.now := by
      rintro ⟨c, hc, hentry⟩
      exact ⟨c, List.mem_append_left _ hc, hentry⟩
    have htbefore : ∀ c ∈ calls, c.now ≤ t := fun c hc => ht c (List.mem_append_left _ hc)
    rw [stateAfter_snoc] at h
    by_cases hown : call.clientId = client
    · subst hown
      rw [snd_checkRateLimit] at h
      split at h
      · rcases mem_of_mem_runPipeline h with rfl | hold
        · exact ⟨call, by simp, rfl, rfl⟩
        · exact hearlier (ih hbefore hlast' hold)
      · exact hearlier (ih hbefore htbefore h)
    · have hframe := (@actsOn_checkRateLimit lib call).frame (stateAfter lib calls ks)
        (rateKey client) (fun hkey => hown (rateKey_inj.mp hkey.symm))
      rw [Keyspace.members_congr hframe] at h
      exact hearlier (ih hbefore htbefore h)

end History

/-! ## No false rejection -/

/-- The calls of the client in the window of a call: the call itself, and those before it that are
less than a window old. -/
def callsInWindow (before : List Call) (call : Call) : ℕ :=
  before.countP (fun c => c.clientId = call.clientId ∧ call.now - call.window < c.now) + 1

section Count

variable {lib} {before : List Call} {call : Call} {ks : RateStore}

/-- A call does not count more members than the client has made calls in the window. -/
theorem count_le_callsInWindow (hfresh : ks (rateKey call.clientId) = none)
    (htime : (before ++ [call]).Pairwise fun a b => a.now ≤ b.now) :
    (runPipeline lib call (stateAfter lib before ks)).1 ≤ callsInWindow before call := by
  obtain ⟨hbefore, -, hlast⟩ := List.pairwise_append.mp htime
  obtain ⟨counted, hnodup, hcount, hcounted, -⟩ :=
    @runPipeline_count lib call (stateAfter lib before ks)
  -- the entries of the calls in the window
  let inWindow := before.filter fun c => c.clientId = call.clientId ∧ call.now - call.window < c.now
  have hsub : counted ⊆ entry lib call.now :: inWindow.map fun c => entry lib c.now := by
    intro p hp
    rcases (hcounted p).mp hp with rfl | ⟨⟨hold, hrange⟩, -⟩
    · exact List.mem_cons_self
    · obtain ⟨c, hc, hclient, rfl⟩ := mem_members_stateAfter hfresh hbefore
        (fun c hc => hlast c hc call (by simp)) hold
      have hafter : call.now - call.window < c.now := by
        by_contra hold
        exact hrange ⟨c.now_nonneg, not_lt.mp hold⟩
      refine List.mem_cons_of_mem _ (List.mem_map.mpr ⟨c, ?_, rfl⟩)
      exact List.mem_filter.mpr ⟨hc, by simp [hclient, hafter]⟩
  have hle := (hnodup.subperm hsub).length_le
  rw [List.length_cons, List.length_map, ← List.countP_eq_length_filter] at hle
  rw [hcount]
  exact hle

/-- A count within the limit is let through, with what is left of the limit. -/
theorem judge_of_le {limit window : ℤ} {now : ℚ} {count : ℕ} (h : (count : ℤ) ≤ limit) :
    judge limit window now count = ⟨true, limit - count, 0⟩ := by
  unfold judge
  rw [if_neg (by omega), max_eq_right (by omega)]

end Count

/-- A client that has made at most `limit` calls in the window is let through and told of at least
what is left; only its own calls matter; and a call that Redis does not answer is let through. -/
theorem no_false_rejection (before : List Call) (call : Call) (ks : RateStore)
    (hfresh : ks (rateKey call.clientId) = none)
    (htime : (before ++ [call]).Pairwise fun a b => a.now ≤ b.now) :
    ((callsInWindow before call : ℤ) ≤ call.limit →
      (checkRateLimit lib call (stateAfter lib before ks)).1.allowed = true ∧
        call.limit - callsInWindow before call ≤
          (checkRateLimit lib call (stateAfter lib before ks)).1.remaining) ∧
    (checkRateLimit lib call (stateAfter lib before ks)).1 =
      (checkRateLimit lib call
        (stateAfter lib (before.filter fun c => c.clientId = call.clientId) ks)).1 ∧
    (call.pipeline ≠ some .answered →
      (checkRateLimit lib call (stateAfter lib before ks)).1.allowed = true) := by
  refine ⟨?_, ?_, ?_⟩
  · intro hfew
    have hcount := @count_le_callsInWindow lib before call ks hfresh htime
    rw [fst_checkRateLimit]
    split
    · rw [judge_of_le (by omega)]
      refine ⟨rfl, ?_⟩
      show call.limit - (callsInWindow before call : ℤ) ≤ call.limit - _
      omega
    · refine ⟨rfl, ?_⟩
      show call.limit - (callsInWindow before call : ℤ) ≤ call.limit
      omega
  · exact fst_checkRateLimit_congr (stateAfter_own before ks).symm
  · intro hfails
    rw [fst_checkRateLimit, if_neg hfails]
    rfl

/-! ### Two calls in a window of a minute -/

theorem seconds_nonneg (seconds : ℕ) : (0 : ℚ) ≤ seconds := seconds.cast_nonneg

/-- A call of a client with the limit of a hundred calls a minute, at a time after the epoch. -/
def minuteCall (clientId : String) (seconds : ℕ) : Call where
  clientId := clientId
  limit := 100
  window := 60
  now := seconds
  pipeline := some .answered
  now_nonneg := seconds_nonneg seconds

theorem no_false_rejection_minute :
    (checkRateLimit compactNumbers (minuteCall "ip:203.0.113.9" 30) (stateAfter compactNumbers
      [minuteCall "ip:203.0.113.9" 10, minuteCall "user:7" 20] fun _ => none)).1.allowed = true := by
  have htime : ([minuteCall "ip:203.0.113.9" 10, minuteCall "user:7" 20] ++
      [minuteCall "ip:203.0.113.9" 30]).Pairwise fun a b => a.now ≤ b.now := by
    decide +kernel
  exact ((no_false_rejection compactNumbers _ _ (fun _ => none) rfl htime).1
    (by decide +kernel)).1

end FraudDetection.Gateway
