import FraudDetection.Stream.WindowCount

/-!
# The velocity of a customer profile

The profile service reads the keys that the stream processor writes, at the time of a request. It
counts the members of a sorted set without pruning it, so it reports what was in the window at the
customer's last transaction, until the key expires.

`holds_after` says what the sorted set holds. `retained_stored` prunes it to the window of the
request, and nothing is lost by that exactly when the count is right.
-/

namespace FraudDetection.Profile

open Python Store FraudDetection.Stream

/-- The entry of a window in the response. -/
structure WindowVelocity where
  count : ℕ
  sum : ℚ

/-- `get_velocity`, served at the time `now`: the entry of each window. -/
def getVelocity (customerId : String) (now : ℚ) (store : VelocityStore) (win : Window) :
    WindowVelocity where
  count := store.txns.zcard now (key customerId .txns win)
  sum := (store.sums.get now (key customerId .sum win)).getD 0

section Request

variable {lib : NumberLib} {history : List Call} {customerId : String} {now : ℚ}

/-- The members that a request counts. -/
def shown (win : Window) (now : ℚ) (mine : List Event) : List (String × ℚ) :=
  if now ≤ deadlineAfter win mine then (stored win mine).map Event.entry else []

/-- What the response shows of the sorted set of a window. -/
theorem getVelocity_count (htime : history.Pairwise fun i j => i.now ≤ j.now)
    (hunique : (history.map fun k => k.uuid.text).Nodup) (win : Window) :
    (getVelocity customerId now (Call.stateAfter lib history VelocityStore.empty) win).count
      = (shown win now (own customerId (Call.events lib history))).length := by
  have hholds := @holds_after lib (Call.events lib history) (events_time htime)
    (members_nodup hunique) customerId win
  rw [← stateAfter_eq_after] at hholds
  exact (hholds.find? now).zcard

/-- At a later time, the transactions in the window are those that started after its start. -/
theorem inWindow_eq_since_of_later (hnow : ∀ k ∈ history, k.now ≤ now) (win : Window) :
    inWindow lib customerId win now history
      = since win now (own customerId (Call.events lib history)) := by
  rw [inWindow, since]
  apply List.filter_congr
  intro j hj
  have hpast := events_now hnow j (List.mem_of_mem_filter hj)
  simp [hpast]

end Request

/-- The count of a window is right exactly when the window still has all that it had at the
customer's last transaction, or the key has expired. -/
theorem getVelocity_exact_iff (lib : NumberLib) (history : List Call) (customerId : String) (now : ℚ)
    (htime : history.Pairwise fun i j => i.now ≤ j.now)
    (hunique : (history.map fun k => k.uuid.text).Nodup)
    (hnow : ∀ k ∈ history, k.now ≤ now) (win : Window) :
    (getVelocity customerId now (Call.stateAfter lib history VelocityStore.empty) win).count
        = (inWindow lib customerId win now history).length ↔
      ∀ last ∈ (own customerId (Call.events lib history)).getLast?,
        now ≤ last.now + (win.seconds + 10) →
          ∀ j ∈ own customerId (Call.events lib history),
            last.now - win.seconds < j.now → now - win.seconds < j.now := by
  rw [getVelocity_count htime hunique, inWindow_eq_since_of_later hnow]
  have hsorted : (own customerId (Call.events lib history)).Pairwise fun i j => i.now ≤ j.now :=
    (events_time htime).sublist List.filter_sublist
  have hpast : ∀ j ∈ own customerId (Call.events lib history), j.now ≤ now := by
    intro j hj
    exact events_now hnow j (List.mem_of_mem_filter hj)
  have hkept := retained_stored win hsorted hpast
  generalize own customerId (Call.events lib history) = mine at hkept ⊢
  have hlength : (since win now mine).length = ((since win now mine).map Event.entry).length :=
    (List.length_map Event.entry).symm
  rw [hlength, ← hkept, eq_comm]
  show ((shown win now mine).filter _).length = (shown win now mine).length ↔ _
  rw [List.length_filter_eq_length_iff]
  rcases List.eq_nil_or_concat' mine with rfl | ⟨before, last, rfl⟩
  · simp [shown]
  · rw [List.getLast?_concat, shown, deadlineAfter_concat, stored, List.getLast?_concat]
    by_cases hlive : now ≤ last.deadline win
    · rw [if_pos hlive]
      constructor
      · intro hall last' hlast' _ j hj hrecent
        obtain rfl : last = last' := by simpa using hlast'
        have hmem : j ∈ since win last.now (before ++ [last]) :=
          List.mem_filter.mpr ⟨hj, by simpa using hrecent⟩
        exact of_decide_eq_true (hall j.entry (List.mem_map_of_mem hmem))
      · intro hall p hp
        obtain ⟨j, hj, rfl⟩ := List.mem_map.mp hp
        obtain ⟨hmem, hrecent⟩ := List.mem_filter.mp hj
        have hstill := hall last (by simp) hlive j hmem (by simpa using hrecent)
        exact decide_eq_true hstill
    · rw [if_neg hlive]
      constructor
      · intro _ last' hlast' hnot
        obtain rfl : last = last' := by simpa using hlast'
        exact absurd hnot hlive
      · intro _ p hp
        cases hp

/-! ### Five seconds late -/

/-- One transaction of the customer `alice`, at time 0. -/
def onePayment : List Call := [sampleCall "alice" 40 "m-1" "DE" 0 '0']

theorem onePayment_time : onePayment.Pairwise fun i j => i.now ≤ j.now := by
  simp [onePayment]

theorem onePayment_unique : (onePayment.map fun k => k.uuid.text).Nodup := by
  simp [onePayment]

theorem onePayment_past : ∀ k ∈ onePayment, k.now ≤ 65 := by
  simp [onePayment, sampleCall]

theorem getVelocity_exact_iff_late :
    (getVelocity "alice" 65 (Call.stateAfter compactNumbers onePayment VelocityStore.empty)
        .m1).count
        = (inWindow compactNumbers "alice" .m1 65 onePayment).length ↔
      ∀ last ∈ (own "alice" (Call.events compactNumbers onePayment)).getLast?,
        65 ≤ last.now + (Window.m1.seconds + 10) →
          ∀ j ∈ own "alice" (Call.events compactNumbers onePayment),
            last.now - Window.m1.seconds < j.now → 65 - Window.m1.seconds < j.now :=
  getVelocity_exact_iff compactNumbers onePayment "alice" 65 onePayment_time onePayment_unique
    onePayment_past .m1

/-- A transaction that has left the window is still counted until its key expires. -/
theorem getVelocity_counts_old :
    ¬ ∀ (history : List Call) (customerId : String) (now : ℚ),
      (history.Pairwise fun i j => i.now ≤ j.now) →
      (history.map fun k => k.uuid.text).Nodup →
      (∀ k ∈ history, k.now ≤ now) →
      ∀ win, (getVelocity customerId now
          (Call.stateAfter compactNumbers history VelocityStore.empty) win).count
        = (inWindow compactNumbers customerId win now history).length := by
  intro hclaim
  have hexact := hclaim onePayment "alice" 65 onePayment_time onePayment_unique onePayment_past .m1
  have hcount : (getVelocity "alice" 65
      (Call.stateAfter compactNumbers onePayment VelocityStore.empty) .m1).count = 1 := by
    decide +kernel
  have hwindow : inWindow compactNumbers "alice" .m1 65 onePayment = [] := by
    norm_num [inWindow, Call.events, onePayment, own, sampleEvent, Window.seconds]
  rw [hcount, hwindow] at hexact
  cases hexact

end FraudDetection.Profile
