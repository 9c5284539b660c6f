import Mathlib.Data.List.Induction
import FraudDetection.Stream.Aggregator
import FraudDetection.Python.CompactJson

/-!
# The windowed transaction count

The sorted set of a window is pruned to the window by every transaction of its customer, and expires
ten seconds after the window of the last one. So `txn_count` is the number of the customer's
transactions in the window.

`stored` is the list of transactions in the window that ends at the customer's last one.
`recordTxns_stored` shows that a transaction of the customer leaves the next such list, and
`holds_after` extends this to a history, where the transactions of other customers change nothing.
-/

namespace FraudDetection.Stream

open Python Store

/-! ## What is stored -/

/-- The member a transaction adds to the sorted sets, with its score. -/
def Event.entry (e : Event) : String × ℚ := (e.member, e.now)

/-- The transactions that start a window of length `win.seconds` before `now`, or later. -/
def since (win : Window) (now : ℚ) (es : List Event) : List Event :=
  es.filter fun j => now - win.seconds < j.now

/-- Of a customer's transactions, those in the window that ends at the last one. -/
def stored (win : Window) (mine : List Event) : List Event :=
  match mine.getLast? with
  | some last => since win last.now mine
  | none => []

/-- The expiry of a customer's keys after its transactions. -/
def deadlineAfter (win : Window) (mine : List Event) : ℚ :=
  match mine.getLast? with
  | some last => last.deadline win
  | none => 0

@[simp] theorem stored_nil (win : Window) : stored win [] = [] := rfl

theorem stored_concat (win : Window) (mine : List Event) (e : Event) :
    stored win (mine ++ [e]) = since win e.now mine ++ [e] := by
  have hpos := win.seconds_pos
  rw [stored, List.getLast?_concat]
  show since win e.now (mine ++ [e]) = _
  have hself : [e].filter (fun j => e.now - win.seconds < j.now) = [e] := by
    simpa using hpos
  rw [since, List.filter_append, hself]
  rfl

@[simp] theorem deadlineAfter_concat (win : Window) (mine : List Event) (e : Event) :
    deadlineAfter win (mine ++ [e]) = e.deadline win := by
  rw [deadlineAfter, List.getLast?_concat]

/-- Neither the pruning by earlier transactions nor the expiry of the key loses a transaction that
is in the window of the next one. -/
theorem retained_stored (win : Window) {mine : List Event} {now : ℚ}
    (htime : mine.Pairwise fun i j => i.now ≤ j.now) (hnow : ∀ j ∈ mine, j.now ≤ now) :
    (if now ≤ deadlineAfter win mine then (stored win mine).map Event.entry else []).filter
        (fun p => now - win.seconds < p.2)
      = (since win now mine).map Event.entry := by
  rcases List.eq_nil_or_concat' mine with rfl | ⟨before, last, rfl⟩
  · rw [stored_nil, List.map_nil, ite_self]
    rfl
  · rw [deadlineAfter_concat, stored, List.getLast?_concat]
    have hlast : ∀ j ∈ before ++ [last], j.now ≤ last.now := by
      intro j hj
      rcases List.mem_append.mp hj with hj | hj
      · exact (List.pairwise_append.mp htime).2.2 j hj last (by simp)
      · rw [List.mem_singleton.mp hj]
    have hle := hnow last (by simp)
    by_cases hd : now ≤ last.deadline win
    · rw [if_pos hd, List.filter_map]
      congr 1
      unfold since
      rw [List.filter_filter]
      apply List.filter_congr
      intro j hj
      have himp : now - win.seconds < j.now → last.now - win.seconds < j.now := by
        intro h
        linarith
      simp only [Function.comp_apply, Event.entry]
      by_cases h : now - win.seconds < j.now
      · simp [h, himp h]
      · simp [h]
    · -- the key has expired: everything it held is older than the window
      rw [if_neg hd, List.filter_nil, eq_comm, List.map_eq_nil_iff, since, List.filter_eq_nil_iff]
      intro j hj
      have hold := hlast j hj
      unfold Event.deadline at hd
      rw [decide_eq_true_eq]
      linarith

/-- What a transaction leaves in the sorted set of a window, if it finds there what its customer's
earlier transactions left. -/
theorem recordTxns_stored (win : Window) {mine : List Event} (e : Event)
    {ks : Keyspace String (SortedSet String ℚ) ℚ}
    (h : Keyspace.Holds (ks (key e.customer .txns win)) ((stored win mine).map Event.entry)
      (some (deadlineAfter win mine)))
    (htime : (mine ++ [e]).Pairwise fun i j => i.now ≤ j.now)
    (hnew : e.member ∉ mine.map Event.member) :
    Keyspace.Holds (e.recordTxns win ks (key e.customer .txns win))
      ((stored win (mine ++ [e])).map Event.entry) (some (deadlineAfter win (mine ++ [e]))) := by
  have hnotin : e.member ∉ ((stored win mine).map Event.entry).map Prod.fst := by
    intro hmem
    rw [List.map_map] at hmem
    obtain ⟨j, hj, heq⟩ := List.mem_map.mp hmem
    refine hnew (List.mem_map.mpr ⟨j, ?_, heq⟩)
    unfold stored at hj
    split at hj
    · exact List.mem_of_mem_filter hj
    · cases hj
  obtain ⟨d', hslide⟩ := h.slide (e.now - win.seconds) hnotin e.now
  rw [List.pairwise_append] at htime
  rw [retained_stored win htime.1 fun j hj => htime.2.2 j hj e (by simp)] at hslide
  rw [stored_concat, deadlineAfter_concat, List.map_append]
  exact hslide.expireAt (e.lt_deadline win)

section History

variable (lib : NumberLib)

/-- The store after transactions, starting from an empty one. -/
def after (es : List Event) : VelocityStore :=
  es.foldl (fun store e => e.record lib store) VelocityStore.empty

theorem after_concat (es : List Event) (e : Event) :
    after lib (es ++ [e]) = e.record lib (after lib es) := by
  rw [after, List.foldl_append]
  rfl

variable {lib}

/-- After transactions of any customers, the sorted set of a customer's window holds the stored
ones. -/
theorem holds_after {es : List Event} (htime : es.Pairwise fun i j => i.now ≤ j.now)
    (hunique : (es.map Event.member).Nodup) (c : String) (win : Window) :
    Keyspace.Holds ((after lib es).txns (key c .txns win))
      ((stored win (own c es)).map Event.entry) (some (deadlineAfter win (own c es))) := by
  induction es using List.reverseRecOn with
  | nil => exact Keyspace.holds_nil.mpr rfl
  | append_singleton es e ih =>
      have hmine : (own c (es ++ [e])).Sublist (es ++ [e]) := List.filter_sublist
      have hbefore := ih (htime.sublist (List.sublist_append_left _ _))
        (hunique.sublist ((List.sublist_append_left _ _).map _))
      rw [after_concat]
      by_cases hc : c = e.customer
      · subst hc
        rw [own_concat_self] at hmine ⊢
        rw [e.record_txns lib win]
        refine recordTxns_stored win e hbefore (htime.sublist hmine) ?_
        have hnodup := hunique.sublist (hmine.map _)
        rw [List.map_append, List.nodup_append] at hnodup
        intro hmem
        exact hnodup.2.2 _ hmem e.member (by simp) rfl
      · rw [own_concat_of_ne es hc, (e.record_frame lib win _ hc).1]
        exact hbefore

end History

/-! ## The count -/

/-- The transactions of the customer `c` with a timestamp in `(now - win.seconds, now]`. -/
def inWindow (lib : NumberLib) (c : String) (win : Window) (now : ℚ) (history : List Call) :
    List Event :=
  (own c (Call.events lib history)).filter fun j => now - win.seconds < j.now ∧ j.now ≤ now

section Count

variable {lib : NumberLib}

theorem events_concat {k : Call} {e : Event} (he : k.event lib = some e) (history : List Call) :
    Call.events lib (history ++ [k]) = Call.events lib history ++ [e] := by
  rw [Call.events, List.filterMap_append]
  simp [Call.events, he]

/-- The transactions of a history are in the order of its calls. -/
theorem events_time {history : List Call} (htime : history.Pairwise fun i j => i.now ≤ j.now) :
    (Call.events lib history).Pairwise fun i j => i.now ≤ j.now := by
  rw [Call.events, List.pairwise_filterMap]
  refine htime.imp ?_
  intro i j hij e he e' he'
  rw [Call.event_now he, Call.event_now he']
  exact hij

theorem events_now {history : List Call} {now : ℚ} (hnow : ∀ k ∈ history, k.now ≤ now) :
    ∀ j ∈ Call.events lib history, j.now ≤ now := by
  intro j hj
  obtain ⟨k, hk, hevent⟩ := List.mem_filterMap.mp hj
  rw [Call.event_now hevent]
  exact hnow k hk

/-- Distinct ids make distinct members. -/
theorem members_nodup {history : List Call}
    (hunique : (history.map fun k => k.uuid.text).Nodup) :
    ((Call.events lib history).map Event.member).Nodup := by
  rw [List.Nodup, List.pairwise_map] at hunique ⊢
  rw [Call.events, List.pairwise_filterMap]
  refine hunique.imp ?_
  intro i j hne e he e' he' heq
  have huuid := Event.uuid_of_member heq
  rw [Call.event_uuid he, Call.event_uuid he'] at huuid
  exact hne huuid

/-- In a history that ends with a transaction of the customer, the transactions in its window are
the stored ones. -/
theorem inWindow_eq_stored {history : List Call} {k : Call} {e : Event}
    (htime : (history ++ [k]).Pairwise fun i j => i.now ≤ j.now) (he : k.event lib = some e)
    (win : Window) :
    inWindow lib e.customer win k.now (history ++ [k])
      = stored win (own e.customer (Call.events lib (history ++ [k]))) := by
  have hsorted := @events_time lib _ htime
  rw [events_concat he, List.pairwise_append] at hsorted
  rw [inWindow, events_concat he, own_concat_self, stored_concat, List.filter_append]
  have hpos := win.seconds_pos
  have hself : [e].filter (fun j => k.now - win.seconds < j.now ∧ j.now ≤ k.now) = [e] := by
    rw [List.filter_eq_self]
    intro j hj
    rw [List.mem_singleton.mp hj, Call.event_now he]
    simpa using hpos
  rw [hself, since]
  congr 1
  apply List.filter_congr
  intro j hj
  have hle := hsorted.2.2 j (List.mem_of_mem_filter hj) e (by simp)
  rw [Call.event_now he] at hle ⊢
  simp [hle]

/-- What a call reads back from a window is what the history stored. -/
theorem stateAfter_eq_after (history : List Call) :
    Call.stateAfter lib history VelocityStore.empty = after lib (Call.events lib history) :=
  Call.stateAfter_eq history VelocityStore.empty

/-- `ZRANGE` shows the visible members. -/
theorem zrange_of_holds {ks : Keyspace String (SortedSet String ℚ) ℚ} {now : ℚ} {name : String}
    {ps : List (String × ℚ)} {t : Option ℚ} (h : Keyspace.Holds (ks.find? now name) ps t) :
    zrange ks now name = ps.map Prod.fst := by
  by_cases hps : ps = []
  · subst hps
    rw [Keyspace.holds_nil] at h
    rw [zrange, h]
    rfl
  · obtain ⟨z, hz, rfl⟩ := (Keyspace.holds_of_ne hps).mp h
    rw [zrange, hz]

/-- What a call reads of the sorted set of a window. -/
theorem read_stored {history : List Call} {k : Call} {e : Event} {snapshot : VelocitySnapshot}
    (htime : (history ++ [k]).Pairwise fun i j => i.now ≤ j.now)
    (hunique : ((history ++ [k]).map fun j => j.uuid.text).Nodup)
    (he : k.event lib = some e)
    (hok : (k.perform lib (Call.stateAfter lib history VelocityStore.empty)).1 = .ok snapshot)
    (win : Window) :
    (snapshot.window win).txnCount
      = (stored win (own e.customer (Call.events lib (history ++ [k])))).length ∧
    (snapshot.window win).maxAmount
      = parseMax lib ((stored win (own e.customer (Call.events lib (history ++ [k])))).map
          Event.member) := by
  obtain ⟨e', he', -, rfl⟩ := Call.perform_ok hok
  obtain rfl : e = e' := Option.some.inj (he.symm.trans he')
  have hholds := @holds_after lib (Call.events lib (history ++ [k])) (events_time htime)
    (members_nodup hunique) e.customer win
  rw [events_concat he, after_concat, own_concat_self, deadlineAfter_concat,
    ← stateAfter_eq_after] at hholds
  have hread := hholds.visible e.now (by
    intro t ht
    cases ht
    exact (e.lt_deadline win).le)
  rw [events_concat he, own_concat_self]
  constructor
  · show Keyspace.zcard _ e.now (key e.customer .txns win) = _
    rw [hread.zcard, List.length_map]
  · show parseMax lib (zrange _ e.now (key e.customer .txns win)) = _
    rw [zrange_of_holds hread, List.map_map]
    rfl

/-- In every snapshot the count of a window is the number of the customer's transactions in it,
whatever other customers did. -/
theorem txnCount_exact (lib : NumberLib) (history : List Call) (k : Call) (e : Event)
    (snapshot : VelocitySnapshot)
    (htime : (history ++ [k]).Pairwise fun i j => i.now ≤ j.now)
    (hunique : ((history ++ [k]).map fun j => j.uuid.text).Nodup)
    (he : k.event lib = some e)
    (hok : (k.perform lib (Call.stateAfter lib history VelocityStore.empty)).1 = .ok snapshot)
    (win : Window) :
    (snapshot.window win).txnCount
      = (inWindow lib e.customer win k.now (history ++ [k])).length := by
  rw [(read_stored htime hunique he hok win).1, inWindow_eq_stored htime he]

end Count

/-! ### Two customers -/

/-- A customer's transaction, and one of a customer whose id looks like part of a key. -/
def mixedCalls : List Call :=
  [sampleCall "alice" 40 "m-1" "DE" 0 '0', sampleCall "alice:txns:1m" 70 "m-2" "FR" 10 '1']

/-- The first customer's second transaction. -/
def aliceAgain : Call := sampleCall "alice" 25 "m-1" "DE" 30 '2'

theorem txnCount_exact_mixed : ∃ snapshot,
    (aliceAgain.perform compactNumbers
      (Call.stateAfter compactNumbers mixedCalls VelocityStore.empty)).1 = .ok snapshot ∧
    (snapshot.window .m1).txnCount
      = (inWindow compactNumbers "alice" .m1 30 (mixedCalls ++ [aliceAgain])).length := by
  refine ⟨_, perform_sample compactNumbers _ _ _ _ _ _ _, ?_⟩
  refine txnCount_exact compactNumbers mixedCalls aliceAgain
    (sampleEvent compactNumbers "alice" 25 "m-1" "DE" 30 '2') _ ?_ ?_ (event_sample _ _ _ _ _ _ _)
    (perform_sample _ _ _ _ _ _ _ _) .m1
  · simp [mixedCalls, aliceAgain, sampleCall]
    norm_num
  · simp [mixedCalls, aliceAgain, sampleCall, sampleUuid, uuidText]

end FraudDetection.Stream
