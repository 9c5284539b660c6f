import Mathlib.Algebra.Order.Field.Rat
import Mathlib.Data.List.Induction
import Mathlib.Tactic.Linarith
import FraudDetection.Store.SortedSet
import FraudDetection.Python.CompactJson
import FraudDetection.Python.Split

/-!
# `VelocityCounter`

A sliding-window counter on a sorted set, one key for each entity. Every call prunes the key to its
own window and every increment sets the expiry of the key from its own window, so a call with one
window can take entries away that a later call with another window should count.

`increment_spec` and `getCount_spec` say what one call does to the members under the key. A history
is a list of calls; `entries` are its increments that no later call pruned and no expiry dropped,
and `holds_stateAfter` shows by induction on the history that these are the members stored. The
count returned is their number, and `exact_iff` compares it with the number of increments in the
window.
-/

namespace FraudDetection.Redis

open Python Store

/-- The counters under one key prefix. -/
structure VelocityCounter where
  keyPrefix : String

/-- The sorted sets of the counters, by Redis key. -/
abbrev CounterStore := Keyspace String (SortedSet String ℚ) ℚ

namespace VelocityCounter

/-! ## The calls -/

variable (py : PyLib) (vc : VelocityCounter) (entityType entityId : String)

/-- The Redis key of an entity's counter. -/
def key : String := vc.keyPrefix ++ ":" ++ entityType ++ ":" ++ entityId

/-- The member an increment adds: its time and a generated id. -/
def member (now : ℚ) (uuid : String) : String := py.str (.float now) ++ ":" ++ uuid

/-- Record an event and return the updated count within the window. The commands run as one
pipeline, at the time of the call. -/
def increment (windowSeconds : ℤ) (now : ℚ) (uuid : String) (ks : CounterStore) : ℕ × CounterStore :=
  let key := vc.key entityType entityId
  let windowStart := now - windowSeconds
  let ks := ks.zremrangebyscore now key windowStart
  let ks := ks.zadd now key (member py now uuid) now
  let count := ks.zcard now key
  let ks := ks.expireAt now key (now + ((windowSeconds + 60 : ℤ) : ℚ))
  (count, ks)

/-- Return the number of events within the window, pruning stale entries first. -/
def getCount (windowSeconds : ℤ) (now : ℚ) (ks : CounterStore) : ℕ × CounterStore :=
  let key := vc.key entityType entityId
  let windowStart := now - windowSeconds
  let ks := ks.zremrangebyscore now key windowStart
  let count := ks.zcount now key windowStart
  (count, ks)

/-! ## What one call does -/

/-- The members of `ps` that a call at time `now` finds unexpired and does not prune. -/
def retained (ps : List (String × ℚ)) (d now : ℚ) (windowSeconds : ℤ) : List (String × ℚ) :=
  (if now ≤ d then ps else []).filter fun p => now - windowSeconds < p.2

section Spec

variable {py vc entityType entityId} {ks : CounterStore} {ps : List (String × ℚ)} {d now : ℚ}
  {windowSeconds : ℤ}

/-- Pruning leaves the retained members. -/
theorem holds_pruned (now : ℚ) (windowSeconds : ℤ) {k : String}
    (h : Keyspace.Holds (ks k) ps (some d)) :
    Keyspace.Holds (ks.zremrangebyscore now k (now - windowSeconds) k)
      (retained ps d now windowSeconds) (some d) :=
  (h.find? now).zremrangebyscore (now - (windowSeconds : ℚ))

/-- The rest of the pipeline sees what pruning left. -/
theorem holds_find?_retained {k : String}
    (h : Keyspace.Holds (ks k) (retained ps d now windowSeconds) (some d)) :
    Keyspace.Holds (ks.find? now k) (retained ps d now windowSeconds) (some d) := by
  have hfound := h.find? now
  by_cases hd : now ≤ d
  · simpa [hd] using hfound
  · have hnil : retained ps d now windowSeconds = [] := by
      unfold retained
      rw [if_neg hd, List.filter_nil]
    rw [hnil] at hfound ⊢
    rwa [ite_self] at hfound

/-- `get_count` returns the number of retained members and leaves them. -/
theorem getCount_spec (h : Keyspace.Holds (ks (vc.key entityType entityId)) ps (some d)) :
    (vc.getCount entityType entityId windowSeconds now ks).1
      = (retained ps d now windowSeconds).length ∧
    Keyspace.Holds ((vc.getCount entityType entityId windowSeconds now ks).2
      (vc.key entityType entityId)) (retained ps d now windowSeconds) (some d) := by
  have hpruned := holds_pruned now windowSeconds h
  refine ⟨?_, hpruned⟩
  have hcount := (holds_find?_retained hpruned).zcount (now - (windowSeconds : ℚ))
  refine hcount.trans (List.countP_eq_length.mpr ?_)
  intro p hp
  have hafter := (List.mem_filter.mp hp).2
  rw [decide_eq_true_eq] at hafter ⊢
  exact hafter.le

/-- `increment` adds its member to the retained ones, returns their number, and sets the expiry of
the key from its own window. -/
theorem increment_spec (h : Keyspace.Holds (ks (vc.key entityType entityId)) ps (some d))
    (hw : 1 ≤ windowSeconds) {uuid : String} (huuid : member py now uuid ∉ ps.map Prod.fst) :
    (vc.increment py entityType entityId windowSeconds now uuid ks).1
      = (retained ps d now windowSeconds ++ [(member py now uuid, now)]).length ∧
    Keyspace.Holds ((vc.increment py entityType entityId windowSeconds now uuid ks).2
      (vc.key entityType entityId))
      (retained ps d now windowSeconds ++ [(member py now uuid, now)])
      (some (now + ((windowSeconds + 60 : ℤ) : ℚ))) := by
  obtain ⟨d', hvisible⟩ := h.slide (now - (windowSeconds : ℚ)) huuid now
  have hpos : now < now + ((windowSeconds + 60 : ℤ) : ℚ) := by
    have hwide : (0 : ℚ) < ((windowSeconds + 60 : ℤ) : ℚ) := by
      exact_mod_cast (by omega : 0 < windowSeconds + 60)
    linarith
  exact ⟨hvisible.zcard, hvisible.expireAt hpos⟩

end Spec

/-! ## Histories -/

/-- A call on one entity: an `increment` with the id it generates, or a `get_count`. -/
structure Call where
  now : ℚ
  windowSeconds : ℤ
  uuid : Option String

/-- Whether the call is an `increment`. -/
def Call.isIncrement (k : Call) : Bool := k.uuid.isSome

/-- The expiry an increment gives the key. -/
def Call.expiry (k : Call) : ℚ := k.now + ((k.windowSeconds + 60 : ℤ) : ℚ)

/-- What the call adds to the sorted set. -/
def Call.added (k : Call) : List (String × ℚ) :=
  match k.uuid with
  | some uuid => [(member py k.now uuid, k.now)]
  | none => []

/-- Make one call on the entity: the count it returns, and the store it leaves. -/
def perform (k : Call) (ks : CounterStore) : ℕ × CounterStore :=
  match k.uuid with
  | some uuid => vc.increment py entityType entityId k.windowSeconds k.now uuid ks
  | none => vc.getCount entityType entityId k.windowSeconds k.now ks

/-- The store after a history of calls on the entity. -/
def stateAfter (history : List Call) (ks : CounterStore) : CounterStore :=
  history.foldl (fun ks k => (vc.perform py entityType entityId k ks).2) ks

/-- The expiry of the key after a history: that set by its last increment. -/
def expiryAfter (d : ℚ) (history : List Call) : ℚ :=
  history.foldl (fun d k => if k.isIncrement then k.expiry else d) d

/-- An entry with this score, in a key that expires at `d`, outlives the calls: none of them prunes
it, and each comes no later than the expiry set by the increments so far. -/
def kept (score : ℚ) : ℚ → List Call → Bool
  | _, [] => true
  | d, k :: later => decide (k.now - k.windowSeconds < score) && decide (k.now ≤ d) &&
      kept score (if k.isIncrement then k.expiry else d) later

/-- The entries of a history: those of its increments that outlive the calls after them. -/
def entries : List Call → List (String × ℚ)
  | [] => []
  | j :: later => if kept j.now j.expiry later then j.added py ++ entries later else entries later

section Entries

variable {py}

theorem expiryAfter_snoc (d : ℚ) (history : List Call) (k : Call) :
    expiryAfter d (history ++ [k])
      = if k.isIncrement then k.expiry else expiryAfter d history := by
  simp [expiryAfter, List.foldl_append]

theorem kept_snoc (score d : ℚ) (later : List Call) (k : Call) :
    kept score d (later ++ [k]) = (kept score d later &&
      (decide (k.now - k.windowSeconds < score) && decide (k.now ≤ expiryAfter d later))) := by
  induction later generalizing d with
  | nil =>
      rw [List.nil_append, kept, kept, kept, Bool.true_and, Bool.and_true]
      rfl
  | cons l later ih =>
      rw [List.cons_append, kept, ih, kept, ← Bool.and_assoc]
      rfl

theorem Call.added_of_getCount {j : Call} (hj : j.isIncrement = false) : j.added py = [] := by
  unfold Call.added
  unfold Call.isIncrement at hj
  cases huuid : j.uuid with
  | none => rfl
  | some uuid => simp [huuid] at hj

theorem Call.length_added {j : Call} (hj : j.isIncrement = true) : (j.added py).length = 1 := by
  unfold Call.added
  unfold Call.isIncrement at hj
  cases huuid : j.uuid with
  | none => simp [huuid] at hj
  | some uuid => rfl

/-- What a history adds all has the times of its increments. -/
theorem Call.score_of_mem_added {j : Call} {p : String × ℚ} (hp : p ∈ j.added py) :
    p.2 = j.now := by
  unfold Call.added at hp
  split at hp
  · rw [List.mem_singleton.mp hp]
  · cases hp

theorem retained_append (ps qs : List (String × ℚ)) (d now : ℚ) (windowSeconds : ℤ) :
    retained (ps ++ qs) d now windowSeconds
      = retained ps d now windowSeconds ++ retained qs d now windowSeconds := by
  unfold retained
  split <;> simp

/-- The entry of an increment is retained by a call until its expiry whose window it is in. -/
theorem retained_added (j : Call) (d now : ℚ) (windowSeconds : ℤ) :
    retained (j.added py) d now windowSeconds
      = if now - windowSeconds < j.now ∧ now ≤ d then j.added py else [] := by
  unfold retained
  by_cases hd : now ≤ d
  · rw [if_pos hd]
    by_cases hw : now - windowSeconds < j.now
    · rw [if_pos ⟨hw, hd⟩, List.filter_eq_self]
      intro p hp
      rw [Call.score_of_mem_added hp]
      simpa using hw
    · rw [if_neg fun h => hw h.1, List.filter_eq_nil_iff]
      intro p hp
      rw [Call.score_of_mem_added hp]
      simpa using hw
  · rw [if_neg hd, if_neg fun h => hd h.2, List.filter_nil]

/-- One more call keeps the entries it finds unexpired and does not prune, and adds its own. The
expiry `d` from before the history matters only where there is no entry. -/
theorem entries_snoc (d : ℚ) (history : List Call) (k : Call) :
    entries py (history ++ [k])
      = retained (entries py history) (expiryAfter d history) k.now k.windowSeconds
        ++ k.added py := by
  induction history generalizing d with
  | nil => simp [entries, kept, retained]
  | cons j later ih =>
      rw [List.cons_append, entries, entries, kept_snoc]
      cases hj : j.isIncrement with
      | false =>
          -- a `get_count` adds nothing and leaves the expiry alone
          have hexpiry : expiryAfter d (j :: later) = expiryAfter d later := by
            simp [expiryAfter, hj]
          rw [hexpiry, Call.added_of_getCount hj]
          simpa using ih d
      | true =>
          have hexpiry : expiryAfter d (j :: later) = expiryAfter j.expiry later := by
            simp [expiryAfter, hj]
          rw [hexpiry, ih j.expiry]
          by_cases hkept : kept j.now j.expiry later = true
          · -- the entry of `j` is still there: the new call decides about it
            rw [if_pos hkept, retained_append, retained_added]
            simp only [hkept, Bool.true_and, Bool.and_eq_true, decide_eq_true_eq]
            split <;> simp
          · simp [hkept]

variable (py) in
/-- The entries of a history are members its increments added. -/
theorem entries_sublist (history : List Call) :
    (entries py history).Sublist (history.flatMap (Call.added py)) := by
  induction history with
  | nil => exact List.Sublist.slnil
  | cons j later ih =>
      rw [entries, List.flatMap_cons]
      split
      · exact ih.append_left _
      · exact (ih.trans (List.sublist_append_right _ _))

/-- In the words of the calls: each later call starts its window before the entry and comes no later
than the expiry set by the increments up to it. -/
theorem kept_iff {score d : ℚ} {later : List Call} :
    kept score d later = true ↔ ∀ before k after, later = before ++ k :: after →
      k.now - k.windowSeconds < score ∧ k.now ≤ expiryAfter d before := by
  induction later generalizing d with
  | nil => simp [kept]
  | cons l later ih =>
      rw [forall_cut_cons, kept, Bool.and_eq_true, Bool.and_eq_true, decide_eq_true_eq,
        decide_eq_true_eq, ih]
      rfl

end Entries

/-! ## What is stored -/

section Stored

variable {py vc entityType entityId} {ks : CounterStore}

theorem stateAfter_snoc (history : List Call) (k : Call) :
    vc.stateAfter py entityType entityId (history ++ [k]) ks
      = (vc.perform py entityType entityId k
        (vc.stateAfter py entityType entityId history ks)).2 := by
  simp [stateAfter, List.foldl_append]

/-- One call on a key that holds the entries of a history. -/
theorem perform_spec {history : List Call} {k : Call}
    (h : Keyspace.Holds (ks (vc.key entityType entityId)) (entries py history)
      (some (expiryAfter 0 history)))
    (hw : 1 ≤ k.windowSeconds)
    (hunique : (((history ++ [k]).flatMap (Call.added py)).map Prod.fst).Nodup) :
    (vc.perform py entityType entityId k ks).1 = (entries py (history ++ [k])).length ∧
    Keyspace.Holds ((vc.perform py entityType entityId k ks).2 (vc.key entityType entityId))
      (entries py (history ++ [k])) (some (expiryAfter 0 (history ++ [k]))) := by
  rw [entries_snoc 0, expiryAfter_snoc]
  unfold perform Call.isIncrement Call.added
  cases huuid : k.uuid with
  | none =>
      simp only [Option.isSome_none, Bool.false_eq_true, if_false, List.append_nil]
      exact getCount_spec h
  | some uuid =>
      simp only [Option.isSome_some, if_true]
      refine increment_spec h hw ?_
      intro hmem
      rw [List.flatMap_append, List.map_append, List.nodup_append] at hunique
      have hold := ((entries_sublist py history).map Prod.fst).mem hmem
      exact hunique.2.2 _ hold (member py k.now uuid) (by simp [Call.added, huuid]) rfl

/-- After a history on a fresh key, the key holds the entries of the history. -/
theorem holds_stateAfter (hfresh : ks (vc.key entityType entityId) = none) (history : List Call)
    (hw : ∀ k ∈ history, 1 ≤ k.windowSeconds)
    (hunique : ((history.flatMap (Call.added py)).map Prod.fst).Nodup) :
    Keyspace.Holds (vc.stateAfter py entityType entityId history ks (vc.key entityType entityId))
      (entries py history) (some (expiryAfter 0 history)) := by
  -- on the last call: the store it finds is that of the history before it
  induction history using List.reverseRecOn with
  | nil => exact Keyspace.holds_nil.mpr hfresh
  | append_singleton history k ih =>
      have hbefore : ((history.flatMap (Call.added py)).map Prod.fst).Nodup := by
        rw [List.flatMap_append, List.map_append] at hunique
        exact (List.nodup_append.mp hunique).1
      have hstored := ih (fun l hl => hw l (List.mem_append_left _ hl)) hbefore
      rw [stateAfter_snoc]
      exact (perform_spec hstored (hw k (by simp)) hunique).2

end Stored

/-! ## Exactness -/

/-- `j` is an increment in the window of the call `k`. -/
def inWindow (k j : Call) : Bool :=
  j.isIncrement && decide (k.now - k.windowSeconds < j.now) && decide (j.now ≤ k.now)

/-- The number of entries, compared with the number of increments that a predicate selects: it is at
most that, and equal exactly when no selected increment is lost. -/
theorem length_entries_iff {history : List Call} {select : Call → Bool}
    (hinc : ∀ j, select j = true → j.isIncrement = true)
    (hkept : ∀ before j after, history = before ++ j :: after → j.isIncrement = true →
      kept j.now j.expiry after = true → select j = true) :
    (entries py history).length ≤ history.countP select ∧
    ((entries py history).length = history.countP select ↔
      ∀ before j after, history = before ++ j :: after → select j = true →
        kept j.now j.expiry after = true) := by
  induction history with
  | nil => simp [entries]
  | cons j later ih =>
      obtain ⟨hfirst, hrest⟩ := forall_cut_cons.mp hkept
      obtain ⟨hle, hiff⟩ := ih hrest
      rw [forall_cut_cons, ← hiff, List.countP_cons, entries]
      by_cases hk : kept j.now j.expiry later = true
      · -- kept: counted on both sides if it is an increment, on neither if it is not
        rw [if_pos hk, List.length_append]
        by_cases hj : j.isIncrement = true
        · rw [if_pos (hfirst hj hk), Call.length_added hj]
          simp only [hk, imp_true_iff, true_and]
          omega
        · have hsel : select j = false := by
            by_contra hyes
            exact hj (hinc j (by simpa using hyes))
          rw [Call.added_of_getCount (by simpa using hj), hsel]
          simp only [List.length_nil, Bool.false_eq_true, if_false, false_imp_iff, true_and]
          omega
      · rw [if_neg hk]
        by_cases hsel : select j = true
        · -- selected and lost: from here on the entries stay behind
          rw [if_pos hsel]
          exact ⟨by omega, iff_of_false (by omega) fun hall => hk (hall.1 hsel)⟩
        · rw [if_neg hsel, and_iff_right fun h => absurd h hsel]
          exact ⟨by omega, by omega⟩

/-- The count a call returns is the number of increments in its window exactly when each of these
increments outlives the calls after it: none of them starts its window at or after it, and each
comes no later than the expiry that the increments made until then gave the key. -/
theorem exact_iff (vc : VelocityCounter) (py : PyLib) (entityType entityId : String)
    (ks : CounterStore) (hfresh : ks (vc.key entityType entityId) = none)
    (before : List Call) (k : Call)
    (htime : (before ++ [k]).Pairwise fun i j => i.now ≤ j.now)
    (hw : ∀ j ∈ before ++ [k], 1 ≤ j.windowSeconds)
    (hunique : (((before ++ [k]).flatMap (Call.added py)).map Prod.fst).Nodup) :
    (vc.perform py entityType entityId k (vc.stateAfter py entityType entityId before ks)).1
        = (before ++ [k]).countP (inWindow k) ↔
      ∀ a j b l c, before ++ [k] = a ++ j :: (b ++ l :: c) → inWindow k j = true →
        l.now - l.windowSeconds < j.now ∧ l.now ≤ expiryAfter 0 (j :: b) := by
  have hbefore : ((before.flatMap (Call.added py)).map Prod.fst).Nodup := by
    rw [List.flatMap_append, List.map_append] at hunique
    exact (List.nodup_append.mp hunique).1
  have hstored := holds_stateAfter hfresh before (fun j hj => hw j (List.mem_append_left _ hj)) hbefore
  have hwk := hw k (by simp)
  rw [(perform_spec hstored hwk hunique).1]
  have hinc : ∀ j, inWindow k j = true → j.isIncrement = true := by
    intro j hj
    simp only [inWindow, Bool.and_eq_true] at hj
    exact hj.1.1
  have hkept : ∀ a j b, before ++ [k] = a ++ j :: b → j.isIncrement = true →
      kept j.now j.expiry b = true → inWindow k j = true := by
    intro a j b heq hj hkept
    have hlast : j.now ≤ k.now ∧ k.now - k.windowSeconds < j.now := by
      rcases List.eq_nil_or_concat' b with rfl | ⟨b, l, rfl⟩
      · obtain ⟨-, hlast⟩ := List.append_inj' heq rfl
        cases hlast
        have hpos : (0 : ℚ) < (k.windowSeconds : ℚ) := by exact_mod_cast (by omega)
        exact ⟨le_rfl, by linarith⟩
      · have hend : before ++ [k] = (a ++ j :: b) ++ [l] := by
          rw [heq]
          simp
        obtain ⟨hfront, hlast⟩ := List.append_inj' hend rfl
        cases hlast
        rw [hfront, List.pairwise_append] at htime
        have hle := htime.2.2 j (by simp) k (by simp)
        exact ⟨hle, (kept_iff.mp hkept b k [] rfl).1⟩
    simp [inWindow, hj, hlast.1, hlast.2]
  rw [(length_entries_iff py hinc hkept).2]
  constructor
  · intro hall a j b l c heq hj
    have hout := kept_iff.mp (hall a j (b ++ l :: c) heq hj) b l c rfl
    have hexpiry : expiryAfter 0 (j :: b) = expiryAfter j.expiry b := by
      simp [expiryAfter, hinc j hj]
    rwa [hexpiry]
  · intro hall a j b heq hj
    rw [kept_iff]
    intro b' l c hb
    have hout := hall a j b' l c (by rw [heq, hb]) hj
    have hexpiry : expiryAfter 0 (j :: b') = expiryAfter j.expiry b' := by
      simp [expiryAfter, hinc j hj]
    rwa [hexpiry] at hout

/-! ### Two windows on one card -/

/-- A counter with the default prefix. -/
def sampleCounter : VelocityCounter := ⟨"fraud:velocity"⟩

/-- An event is recorded at time 0, and a minute-wide count is taken at time 100. -/
def mixedHistory : List Call := [⟨0, 3600, some "u-1"⟩, ⟨100, 60, none⟩]

/-- An hour-wide count at time 101. -/
def hourCount : Call := ⟨101, 3600, none⟩

theorem mixedHistory_time : (mixedHistory ++ [hourCount]).Pairwise fun i j => i.now ≤ j.now := by
  simp [mixedHistory, hourCount]
  norm_num

theorem mixedHistory_windows : ∀ j ∈ mixedHistory ++ [hourCount], 1 ≤ j.windowSeconds := by
  simp [mixedHistory, hourCount]

theorem mixedHistory_unique (py : PyLib) :
    (((mixedHistory ++ [hourCount]).flatMap (Call.added py)).map Prod.fst).Nodup := by
  simp [mixedHistory, hourCount, Call.added]

theorem exact_iff_mixed :
    (sampleCounter.perform CompactJson.compactJson "card" "4111" hourCount
        (sampleCounter.stateAfter CompactJson.compactJson "card" "4111" mixedHistory
          fun _ => none)).1
        = (mixedHistory ++ [hourCount]).countP (inWindow hourCount) ↔
      ∀ a j b l c, mixedHistory ++ [hourCount] = a ++ j :: (b ++ l :: c) →
        inWindow hourCount j = true →
        l.now - l.windowSeconds < j.now ∧ l.now ≤ expiryAfter 0 (j :: b) :=
  exact_iff sampleCounter CompactJson.compactJson "card" "4111" (fun _ => none) rfl mixedHistory
    hourCount mixedHistory_time mixedHistory_windows (mixedHistory_unique _)

/-- The event is in the hour before the last call and is not counted: the minute-wide count before
it pruned the event. -/
theorem hourCount_misses_event :
    ¬ ∀ (before : List Call) (k : Call),
      ((before ++ [k]).Pairwise fun i j => i.now ≤ j.now) →
      (∀ j ∈ before ++ [k], 1 ≤ j.windowSeconds) →
      (((before ++ [k]).flatMap (Call.added CompactJson.compactJson)).map Prod.fst).Nodup →
      (sampleCounter.perform CompactJson.compactJson "card" "4111" k
        (sampleCounter.stateAfter CompactJson.compactJson "card" "4111" before fun _ => none)).1
        = (before ++ [k]).countP (inWindow k) := by
  intro hclaim
  have hexact := hclaim mixedHistory hourCount mixedHistory_time mixedHistory_windows
    (mixedHistory_unique _)
  have hstored : Keyspace.Holds (sampleCounter.stateAfter CompactJson.compactJson "card" "4111"
      mixedHistory (fun _ => none) (sampleCounter.key "card" "4111"))
      (entries CompactJson.compactJson mixedHistory) (some (expiryAfter 0 mixedHistory)) := by
    refine holds_stateAfter rfl mixedHistory ?_ ?_
    · exact fun j hj => mixedHistory_windows j (List.mem_append_left _ hj)
    · simp [mixedHistory, Call.added]
  have hcount := (perform_spec hstored (k := hourCount) (by decide) (mixedHistory_unique _)).1
  rw [hcount] at hexact
  have hentries : entries CompactJson.compactJson (mixedHistory ++ [hourCount]) = [] := by
    simp [mixedHistory, hourCount, entries, kept, Call.added]
    norm_num
  have hwindow : (mixedHistory ++ [hourCount]).countP (inWindow hourCount) = 1 := by
    simp [mixedHistory, hourCount, inWindow, Call.isIncrement, List.countP_cons]
    norm_num
  rw [hentries, hwindow] at hexact
  cases hexact

end VelocityCounter

end FraudDetection.Redis
