import Mathlib.Algebra.BigOperators.Group.List.Basic
import FraudDetection.Stream.WindowCount
import FraudDetection.Stream.ThresholdEvaluator

/-!
# The sums and the distinct counts of the stream processor

The sum of a window and its sets of merchants and countries forget only when their key expires, and
every transaction of the customer puts the expiry off. So they cover the customer's last session:
its latest transactions with at most the window and ten seconds between neighbours.

`Accumulated` says what the three keys hold after a history in terms of the last session, and
`accumulated_after` shows it by induction on the history. The transactions in the window are the
recent part of that session (`inWindow_eq_since`), which turns exactness into a condition on the
rest of it.
-/

namespace FraudDetection.Stream

open Python Store

/-! ## Sessions -/

/-- The second of two successive transactions of a customer finds the keys of the window alive. -/
def alive (win : Window) (i j : Event) : Prop := j.now ≤ i.deadline win

instance (win : Window) : DecidableRel (alive win) := fun i j =>
  inferInstanceAs (Decidable (j.now ≤ i.deadline win))

/-- The last session of a customer: its latest transactions, as far back as each of them finds the
keys of the window alive. -/
def lastSession (lib : NumberLib) (c : String) (win : Window) (history : List Call) : List Event :=
  session (alive win) (own c (Call.events lib history))

/-- What accumulates over a session goes on with the next transaction if that finds the key alive,
and starts again otherwise. -/
theorem accumulate_concat {V : Type} (win : Window) (f : V → Event → V) (empty : V)
    (mine : List Event) (e : Event) :
    f (if ∀ t ∈ mine.getLast?.map (Event.deadline win), e.now ≤ t
        then (session (alive win) mine).foldl f empty else empty) e
      = (session (alive win) (mine ++ [e])).foldl f empty := by
  have hiff : (∀ t ∈ mine.getLast?.map (Event.deadline win), e.now ≤ t) ↔
      ∀ x ∈ mine.getLast?, alive win x e := by
    simp [alive]
  rw [foldl_session_concat, if_congr hiff rfl rfl]

/-! ## What is stored -/

/-- What the accumulating keys of a customer and a window hold after its transactions. -/
structure Accumulated (lib : NumberLib) (c : String) (win : Window) (mine : List Event)
    (store : VelocityStore) : Prop where
  sums : Keyspace.Accrued (store.sums (key c .sum win)) 0
    ((session (alive win) mine).foldl (Event.addTo lib) 0)
    (mine.getLast?.map (Event.deadline win))
  merchants : Keyspace.Accrued (store.merchants (key c .merch win)) ∅
    ((session (alive win) mine).foldl (fun s j => insert j.txn.merchantId s) ∅)
    (mine.getLast?.map (Event.deadline win))
  countries : Keyspace.Accrued (store.countries (key c .country win)) ∅
    ((session (alive win) mine).foldl (fun s j => insert j.txn.country s) ∅)
    (mine.getLast?.map (Event.deadline win))

section Stored

variable {lib : NumberLib} {win : Window} {mine : List Event} {store : VelocityStore}

/-- A transaction of the customer extends what its keys hold. -/
theorem Accumulated.record {e : Event} (h : Accumulated lib e.customer win mine store) :
    Accumulated lib e.customer win (mine ++ [e]) (e.record lib store) where
  sums := by
    rw [e.record_sums lib win, ← accumulate_concat, List.getLast?_concat]
    unfold Event.recordSum Event.addTo
    cases lib.incrArgument e.txn.amount with
    | none => exact (h.sums.find? e.now).expireAt (e.lt_deadline win)
    | some amount => exact h.sums.touch (lib.incrSum · amount) (e.lt_deadline win)
  merchants := by
    rw [e.record_merchants lib win, ← accumulate_concat, List.getLast?_concat]
    exact h.merchants.touch (insert e.txn.merchantId) (e.lt_deadline win)
  countries := by
    rw [e.record_countries lib win, ← accumulate_concat, List.getLast?_concat]
    exact h.countries.touch (insert e.txn.country) (e.lt_deadline win)

/-- A transaction of another customer changes nothing. -/
theorem Accumulated.frame {c : String} (h : Accumulated lib c win mine store) {e : Event}
    (hc : c ≠ e.customer) : Accumulated lib c win mine (e.record lib store) := by
  obtain ⟨-, hsums, hmerchants, hcountries⟩ := e.record_frame lib win store hc
  refine ⟨?_, ?_, ?_⟩
  · rw [hsums]
    exact h.sums
  · rw [hmerchants]
    exact h.merchants
  · rw [hcountries]
    exact h.countries

variable (lib) in
/-- After transactions of any customers, the keys of each customer cover its last session. -/
theorem accumulated_after (es : List Event) (c : String) (win : Window) :
    Accumulated lib c win (own c es) (after lib es) := by
  induction es using List.reverseRecOn with
  | nil =>
      refine ⟨?_, ?_, ?_⟩
      all_goals exact Or.inl ⟨rfl, rfl⟩
  | append_singleton es e ih =>
      rw [after_concat]
      by_cases hc : c = e.customer
      · subst hc
        rw [own_concat_self]
        exact ih.record
      · rw [own_concat_of_ne es hc]
        exact ih.frame hc

end Stored

/-! ## The window within the session -/

/-- In a list ordered by time, what lies after a time is a final segment. -/
theorem filter_suffix {l : List Event} (htime : l.Pairwise fun i j => i.now ≤ j.now) (start : ℚ) :
    l.filter (fun j => start < j.now) <:+ l := by
  induction l with
  | nil => exact List.suffix_refl _
  | cons a l ih =>
      rw [List.pairwise_cons] at htime
      by_cases ha : start < a.now
      · have hall : (a :: l).filter (fun j => start < j.now) = a :: l := by
          rw [List.filter_eq_self]
          intro j hj
          rcases List.mem_cons.mp hj with rfl | hj
          · simpa using ha
          · simpa using lt_of_lt_of_le ha (htime.1 j hj)
        rw [hall]
      · rw [List.filter_cons_of_neg (by simpa using ha)]
        exact (ih htime.2).trans (List.suffix_cons a l)

/-- The transactions in a window are the recent ones of the last session: between neighbours in the
window the keys stay alive. -/
theorem since_session (win : Window) {mine : List Event} {now : ℚ}
    (htime : mine.Pairwise fun i j => i.now ≤ j.now) (hnow : ∀ j ∈ mine, j.now ≤ now) :
    since win now mine = since win now (session (alive win) mine) := by
  have hchain : (since win now mine).IsChain (alive win) := by
    apply List.Pairwise.isChain
    rw [List.pairwise_iff_forall_sublist]
    intro i j hij
    have hi := (List.mem_filter.mp (hij.mem (by simp : i ∈ [i, j]))).2
    have hj := hnow j (List.mem_of_mem_filter (hij.mem (by simp : j ∈ [i, j])))
    rw [decide_eq_true_eq] at hi
    unfold alive Event.deadline
    linarith
  have hwindow : since win now mine <:+ session (alive win) mine :=
    suffix_session (filter_suffix htime _) hchain
  have hinto : (since win now mine).Sublist (since win now (session (alive win) mine)) := by
    have hkept := hwindow.sublist.filter fun j => now - win.seconds < j.now
    rw [since, List.filter_filter] at hkept
    simp only [Bool.and_self] at hkept
    exact hkept
  have hback : (since win now (session (alive win) mine)).Sublist (since win now mine) :=
    (session_suffix mine).sublist.filter _
  exact hinto.antisymm hback

/-! ## What a snapshot shows -/

/-- Inserting one by one makes the set of what was inserted. -/
theorem foldl_insert (f : Event → String) (es : List Event) :
    es.foldl (fun s j => insert (f j) s) ∅ = (es.map f).toFinset := by
  induction es using List.reverseRecOn with
  | nil => rfl
  | append_singleton es e ih =>
      rw [List.foldl_append, ih]
      ext x
      simp

section Snapshot

variable {lib : NumberLib} {history : List Call} {k : Call} {e : Event}

/-- The transactions in the window of a call are the recent ones of the last session. -/
theorem inWindow_eq_since (htime : (history ++ [k]).Pairwise fun i j => i.now ≤ j.now)
    (he : k.event lib = some e) (win : Window) :
    inWindow lib e.customer win k.now (history ++ [k])
      = since win k.now (lastSession lib e.customer win (history ++ [k])) := by
  have hsorted := @events_time lib _ htime
  have hmine : (own e.customer (Call.events lib (history ++ [k]))).Pairwise
      fun i j => i.now ≤ j.now := hsorted.sublist List.filter_sublist
  have hnow : ∀ j ∈ own e.customer (Call.events lib (history ++ [k])), j.now ≤ k.now := by
    intro j hj
    have hmem := List.mem_of_mem_filter hj
    rw [events_concat he, List.pairwise_append] at hsorted
    rw [events_concat he] at hmem
    rw [← Call.event_now he]
    rcases List.mem_append.mp hmem with hbefore | hlast
    · exact hsorted.2.2 j hbefore e (by simp)
    · rw [List.mem_singleton.mp hlast]
  rw [lastSession, ← since_session win hmine hnow, inWindow, since]
  apply List.filter_congr
  intro j hj
  simp [hnow j hj]

/-- What a call reads of the accumulating keys. -/
theorem read_accumulated (he : k.event lib = some e) {snapshot : VelocitySnapshot}
    (hok : (k.perform lib (Call.stateAfter lib history VelocityStore.empty)).1 = .ok snapshot)
    (win : Window) :
    (snapshot.window win).txnSum
      = shownSum lib (lastSession lib e.customer win (history ++ [k])) ∧
    (snapshot.window win).distinctMerchants
      = ((lastSession lib e.customer win (history ++ [k])).map (·.txn.merchantId)).toFinset.card ∧
    (snapshot.window win).distinctCountries
      = ((lastSession lib e.customer win (history ++ [k])).map (·.txn.country)).toFinset.card := by
  obtain ⟨e', he', -, rfl⟩ := Call.perform_ok hok
  obtain rfl : e = e' := Option.some.inj (he.symm.trans he')
  have hheld := accumulated_after lib (Call.events lib (history ++ [k])) e.customer win
  have hlast : (own e.customer (Call.events lib (history ++ [k]))).getLast? = some e := by
    rw [events_concat he, own_concat_self, List.getLast?_concat]
  have hvisible : ∀ t ∈ (some e).map (Event.deadline win), e.now ≤ t := by
    intro t ht
    obtain rfl : e.deadline win = t := by simpa using ht
    exact (e.lt_deadline win).le
  have hstore : after lib (Call.events lib (history ++ [k]))
      = e.record lib (Call.stateAfter lib history VelocityStore.empty) := by
    rw [events_concat he, after_concat, ← stateAfter_eq_after]
  rw [hstore] at hheld
  obtain ⟨hsums, hmerchants, hcountries⟩ := hheld
  rw [hlast] at hsums hmerchants hcountries
  refine ⟨?_, ?_, ?_⟩
  · exact congrArg lib.floatReply (hsums.visible hvisible).get
  · refine (hmerchants.visible hvisible).pfcount.trans ?_
    rw [foldl_insert]
    rfl
  · refine (hcountries.visible hvisible).pfcount.trans ?_
    rw [foldl_insert]
    rfl

end Snapshot

/-! ## The sum -/

/-- The transactions of a list that are too old for the window. -/
def older (win : Window) (now : ℚ) (es : List Event) : List Event :=
  es.filter fun j => j.now ≤ now - win.seconds

theorem sum_eq_since_add_older (f : Event → ℚ) (win : Window) (now : ℚ) (es : List Event) :
    (es.map f).sum = ((since win now es).map f).sum + ((older win now es).map f).sum := by
  induction es with
  | nil => simp [since, older]
  | cons e es ih =>
      unfold since older at ih ⊢
      by_cases h : now - win.seconds < e.now
      · rw [List.filter_cons_of_pos (by simpa using h),
          List.filter_cons_of_neg (by simpa using h)]
        simp only [List.map_cons, List.sum_cons]
        linarith
      · rw [List.filter_cons_of_neg (by simpa using h),
          List.filter_cons_of_pos (by simpa using h)]
        simp only [List.map_cons, List.sum_cons]
        linarith

/-- The sum in a snapshot is that of the window exactly when the amounts in the last session that
are too old for the window add up to nothing. -/
theorem txnSum_exact_iff (lib : NumberLib) (hexact : lib.Exact) (history : List Call) (k : Call)
    (e : Event) (snapshot : VelocitySnapshot)
    (htime : (history ++ [k]).Pairwise fun i j => i.now ≤ j.now)
    (he : k.event lib = some e)
    (hok : (k.perform lib (Call.stateAfter lib history VelocityStore.empty)).1 = .ok snapshot)
    (win : Window) :
    (snapshot.window win).txnSum
        = ((inWindow lib e.customer win k.now (history ++ [k])).map (Event.amount lib)).sum ↔
      ((older win k.now (lastSession lib e.customer win (history ++ [k]))).map
        (Event.amount lib)).sum = 0 := by
  rw [(read_accumulated he hok win).1, shownSum_of_exact hexact, inWindow_eq_since htime he,
    sum_eq_since_add_older (Event.amount lib) win k.now]
  constructor
  · intro h
    linarith
  · intro h
    linarith

/-! ### A minute apart -/

/-- A customer's transaction at time 0. -/
def firstCall : Call := sampleCall "alice" 40 "m-1" "DE" 0 '0'

/-- The same customer's transaction a minute later, at another merchant in another country. -/
def minuteLater : Call := sampleCall "alice" 25 "m-2" "FR" 60 '1'

/-- The transactions of the two calls. -/
def minuteEvents (lib : NumberLib) : List Event :=
  [sampleEvent lib "alice" 40 "m-1" "DE" 0 '0',
    sampleEvent lib "alice" 25 "m-2" "FR" 60 '1']

theorem minute_time : ([firstCall] ++ [minuteLater]).Pairwise fun i j => i.now ≤ j.now := by
  simp [firstCall, minuteLater, sampleCall]

theorem own_minute (lib : NumberLib) : own "alice" (Call.events lib ([firstCall] ++ [minuteLater]))
    = minuteEvents lib := by
  simp [Call.events, firstCall, minuteLater, own, minuteEvents, Event.customer, sampleEvent]

theorem inWindow_minute (lib : NumberLib) :
    inWindow lib "alice" .m1 60 ([firstCall] ++ [minuteLater])
      = [sampleEvent lib "alice" 25 "m-2" "FR" 60 '1'] := by
  rw [inWindow, own_minute]
  simp [minuteEvents, sampleEvent, Window.seconds]

theorem lastSession_minute (lib : NumberLib) :
    lastSession lib "alice" .m1 ([firstCall] ++ [minuteLater]) = minuteEvents lib := by
  rw [lastSession, own_minute]
  refine session_of_isChain ?_
  norm_num [minuteEvents, alive, Event.deadline, sampleEvent, Window.seconds]

theorem txnSum_exact_iff_minute : ∃ snapshot,
    (minuteLater.perform exactNumbers
      (Call.stateAfter exactNumbers [firstCall] VelocityStore.empty)).1 = .ok snapshot ∧
    ((snapshot.window .m1).txnSum
        = ((inWindow exactNumbers "alice" .m1 60 ([firstCall] ++ [minuteLater])).map
            (Event.amount exactNumbers)).sum ↔
      ((older .m1 60 (lastSession exactNumbers "alice" .m1 ([firstCall] ++ [minuteLater]))).map
        (Event.amount exactNumbers)).sum = 0) := by
  refine ⟨_, perform_sample exactNumbers _ _ _ _ _ _ _, ?_⟩
  exact txnSum_exact_iff exactNumbers exact_exactNumbers [firstCall] minuteLater
    (sampleEvent exactNumbers "alice" 25 "m-2" "FR" 60 '1') _ minute_time
    (event_sample _ _ _ _ _ _ _) (perform_sample _ _ _ _ _ _ _ _) .m1

/-- The first amount has left the minute-wide window and is still in the sum: the second transaction
comes before the key expires. -/
theorem txnSum_keeps_old_amount :
    ¬ ∀ (history : List Call) (k : Call) (e : Event) (snapshot : VelocitySnapshot),
      ((history ++ [k]).Pairwise fun i j => i.now ≤ j.now) →
      k.event exactNumbers = some e →
      (k.perform exactNumbers
        (Call.stateAfter exactNumbers history VelocityStore.empty)).1 = .ok snapshot →
      ∀ win, (snapshot.window win).txnSum
        = ((inWindow exactNumbers e.customer win k.now (history ++ [k])).map
            (Event.amount exactNumbers)).sum := by
  intro hclaim
  have hevent : minuteLater.event exactNumbers
      = some (sampleEvent exactNumbers "alice" 25 "m-2" "FR" 60 '1') := event_sample _ _ _ _ _ _ _
  have hok := perform_sample exactNumbers "alice" 25 "m-2" "FR" 60 '1'
    (Call.stateAfter exactNumbers [firstCall] VelocityStore.empty)
  have hexact := hclaim [firstCall] minuteLater _ _ minute_time hevent hok .m1
  have hread := (read_accumulated hevent hok .m1).1
  rw [hread, shownSum_of_exact exact_exactNumbers] at hexact
  have hsession : ((lastSession exactNumbers "alice" .m1 ([firstCall] ++ [minuteLater])).map
      (Event.amount exactNumbers)).sum = 65 := by
    rw [lastSession_minute]
    simp [minuteEvents, amount_sample]
    norm_num
  have hwindow : ((inWindow exactNumbers "alice" .m1 60 ([firstCall] ++ [minuteLater])).map
      (Event.amount exactNumbers)).sum = 25 := by
    rw [inWindow_minute]
    simp [amount_sample]
  have heq : (65 : ℚ) = 25 := hsession.symm.trans (hexact.trans hwindow)
  norm_num at heq

/-! ## The distinct counts -/

/-- A part of a list has as many different values as the whole exactly when every value of the whole
occurs in the part. -/
theorem card_eq_iff (f : Event → String) {part whole : List Event} (hsub : part ⊆ whole) :
    (whole.map f).toFinset.card = (part.map f).toFinset.card ↔
      ∀ j ∈ whole, ∃ i ∈ part, f i = f j := by
  have hinto : (part.map f).toFinset ⊆ (whole.map f).toFinset := by
    intro x hx
    rw [List.mem_toFinset, List.mem_map] at hx ⊢
    obtain ⟨i, hi, rfl⟩ := hx
    exact ⟨i, hsub hi, rfl⟩
  constructor
  · intro hcard j hj
    have heq := Finset.eq_of_subset_of_card_le hinto hcard.le
    have hmem : f j ∈ (part.map f).toFinset := by
      rw [heq, List.mem_toFinset]
      exact List.mem_map_of_mem hj
    rwa [List.mem_toFinset, List.mem_map] at hmem
  · intro hall
    congr 1
    apply Finset.Subset.antisymm
    · intro x hx
      rw [List.mem_toFinset, List.mem_map] at hx ⊢
      obtain ⟨j, hj, rfl⟩ := hx
      exact hall j hj
    · exact hinto

/-- More than one value occurs exactly when two elements differ. -/
theorem one_lt_card_iff (f : Event → String) (es : List Event) :
    1 < (es.map f).toFinset.card ↔ ∃ i ∈ es, ∃ j ∈ es, f i ≠ f j := by
  rw [Finset.one_lt_card]
  simp [List.mem_toFinset]

/-- The distinct counts in a snapshot are those of the windows, and `GEO_ANOMALY` is reported only
for two countries within the last minute, exactly when in each window every merchant and every
country of the last session occurs. -/
theorem distinct_exact_iff (lib : NumberLib) (history : List Call) (k : Call) (e : Event)
    (snapshot : VelocitySnapshot)
    (htime : (history ++ [k]).Pairwise fun i j => i.now ≤ j.now)
    (he : k.event lib = some e)
    (hok : (k.perform lib (Call.stateAfter lib history VelocityStore.empty)).1 = .ok snapshot)
    (settings : StreamProcessorSettings) (txnId : Json) (stamp : ℕ → Stamp) :
    ((∀ win,
        (snapshot.window win).distinctMerchants
          = ((inWindow lib e.customer win k.now (history ++ [k])).map
              (·.txn.merchantId)).toFinset.card ∧
        (snapshot.window win).distinctCountries
          = ((inWindow lib e.customer win k.now (history ++ [k])).map
              (·.txn.country)).toFinset.card) ∧
      (reportsPattern "GEO_ANOMALY" (evaluate settings snapshot txnId stamp) →
        ∃ i ∈ inWindow lib e.customer .m1 k.now (history ++ [k]),
          ∃ j ∈ inWindow lib e.customer .m1 k.now (history ++ [k]),
            i.txn.country ≠ j.txn.country)) ↔
      ∀ win, ∀ j ∈ lastSession lib e.customer win (history ++ [k]),
        (∃ i ∈ inWindow lib e.customer win k.now (history ++ [k]),
          i.txn.merchantId = j.txn.merchantId) ∧
        ∃ i ∈ inWindow lib e.customer win k.now (history ++ [k]), i.txn.country = j.txn.country := by
  have hsub : ∀ win, inWindow lib e.customer win k.now (history ++ [k])
      ⊆ lastSession lib e.customer win (history ++ [k]) := by
    intro win
    rw [inWindow_eq_since htime he]
    exact List.filter_sublist.subset
  have hcounts : ∀ win, ((snapshot.window win).distinctMerchants
        = ((inWindow lib e.customer win k.now (history ++ [k])).map
            (·.txn.merchantId)).toFinset.card ∧
      (snapshot.window win).distinctCountries
        = ((inWindow lib e.customer win k.now (history ++ [k])).map
            (·.txn.country)).toFinset.card) ↔
      ∀ j ∈ lastSession lib e.customer win (history ++ [k]),
        (∃ i ∈ inWindow lib e.customer win k.now (history ++ [k]),
          i.txn.merchantId = j.txn.merchantId) ∧
        ∃ i ∈ inWindow lib e.customer win k.now (history ++ [k]),
          i.txn.country = j.txn.country := by
    intro win
    obtain ⟨-, hmerchants, hcountries⟩ := read_accumulated he hok win
    rw [hmerchants, hcountries, card_eq_iff (·.txn.merchantId) (hsub win),
      card_eq_iff (·.txn.country) (hsub win)]
    exact forall₂_and.symm
  rw [← forall_congr' hcounts]
  refine and_iff_left_of_imp ?_
  intro hexact hreport
  rw [reportsPattern_evaluate, geoAnomaly_mem_patterns, (hexact .m1).2, one_lt_card_iff] at hreport
  exact hreport

/-- The id and the time of sample messages. -/
def sampleStamp (_ : ℕ) : Stamp := ⟨sampleUuid '0', "2026-01-01T00:00:00+00:00"⟩

theorem distinct_exact_iff_minute : ∃ snapshot,
    (minuteLater.perform compactNumbers
      (Call.stateAfter compactNumbers [firstCall] VelocityStore.empty)).1 = .ok snapshot ∧
    (((∀ win,
        (snapshot.window win).distinctMerchants
          = ((inWindow compactNumbers "alice" win 60 ([firstCall] ++ [minuteLater])).map
              (·.txn.merchantId)).toFinset.card ∧
        (snapshot.window win).distinctCountries
          = ((inWindow compactNumbers "alice" win 60 ([firstCall] ++ [minuteLater])).map
              (·.txn.country)).toFinset.card) ∧
      (reportsPattern "GEO_ANOMALY" (evaluate defaultSettings snapshot (.str "t-1") sampleStamp) →
        ∃ i ∈ inWindow compactNumbers "alice" .m1 60 ([firstCall] ++ [minuteLater]),
          ∃ j ∈ inWindow compactNumbers "alice" .m1 60 ([firstCall] ++ [minuteLater]),
            i.txn.country ≠ j.txn.country)) ↔
      ∀ win, ∀ j ∈ lastSession compactNumbers "alice" win ([firstCall] ++ [minuteLater]),
        (∃ i ∈ inWindow compactNumbers "alice" win 60 ([firstCall] ++ [minuteLater]),
          i.txn.merchantId = j.txn.merchantId) ∧
        ∃ i ∈ inWindow compactNumbers "alice" win 60 ([firstCall] ++ [minuteLater]),
          i.txn.country = j.txn.country) := by
  refine ⟨_, perform_sample compactNumbers _ _ _ _ _ _ _, ?_⟩
  exact distinct_exact_iff compactNumbers [firstCall] minuteLater
    (sampleEvent compactNumbers "alice" 25 "m-2" "FR" 60 '1') _ minute_time
    (event_sample _ _ _ _ _ _ _) (perform_sample _ _ _ _ _ _ _ _) defaultSettings (.str "t-1")
    sampleStamp

/-- `GEO_ANOMALY` is reported for a country that has left the window. -/
theorem geoAnomaly_keeps_old_country :
    ¬ ∀ (history : List Call) (k : Call) (e : Event) (snapshot : VelocitySnapshot),
      ((history ++ [k]).Pairwise fun i j => i.now ≤ j.now) →
      k.event compactNumbers = some e →
      (k.perform compactNumbers
        (Call.stateAfter compactNumbers history VelocityStore.empty)).1 = .ok snapshot →
      (∀ win,
        (snapshot.window win).distinctMerchants
          = ((inWindow compactNumbers e.customer win k.now (history ++ [k])).map
              (·.txn.merchantId)).toFinset.card ∧
        (snapshot.window win).distinctCountries
          = ((inWindow compactNumbers e.customer win k.now (history ++ [k])).map
              (·.txn.country)).toFinset.card) ∧
      (reportsPattern "GEO_ANOMALY" (evaluate defaultSettings snapshot (.str "t-1") sampleStamp) →
        ∃ i ∈ inWindow compactNumbers e.customer .m1 k.now (history ++ [k]),
          ∃ j ∈ inWindow compactNumbers e.customer .m1 k.now (history ++ [k]),
            i.txn.country ≠ j.txn.country) := by
  intro hclaim
  have hevent : minuteLater.event compactNumbers
      = some (sampleEvent compactNumbers "alice" 25 "m-2" "FR" 60 '1') := event_sample _ _ _ _ _ _ _
  have hok := perform_sample compactNumbers "alice" 25 "m-2" "FR" 60 '1'
    (Call.stateAfter compactNumbers [firstCall] VelocityStore.empty)
  obtain ⟨-, hgeo⟩ := hclaim [firstCall] minuteLater _ _ minute_time hevent hok
  have hcount : _ = 2 := (read_accumulated hevent hok .m1).2.2.trans (by
    show ((lastSession compactNumbers "alice" .m1 ([firstCall] ++ [minuteLater])).map
      (·.txn.country)).toFinset.card = 2
    rw [lastSession_minute]
    rfl)
  have hreport : reportsPattern "GEO_ANOMALY" _ :=
    (reportsPattern_evaluate defaultSettings _ (.str "t-1") sampleStamp "GEO_ANOMALY").mpr
      ((geoAnomaly_mem_patterns _).mpr (by rw [hcount]; omega))
  obtain ⟨i, hi, j, hj, hne⟩ := hgeo hreport
  have hwindow : inWindow compactNumbers "alice" .m1 60 ([firstCall] ++ [minuteLater])
      = [sampleEvent compactNumbers "alice" 25 "m-2" "FR" 60 '1'] := inWindow_minute _
  have hi' : i ∈ [sampleEvent compactNumbers "alice" 25 "m-2" "FR" 60 '1'] := hwindow ▸ hi
  have hj' : j ∈ [sampleEvent compactNumbers "alice" 25 "m-2" "FR" 60 '1'] := hwindow ▸ hj
  rw [List.mem_singleton.mp hi', List.mem_singleton.mp hj'] at hne
  exact hne rfl

end FraudDetection.Stream
