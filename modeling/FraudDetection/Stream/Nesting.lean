import Mathlib.Algebra.Order.BigOperators.Group.List
import FraudDetection.Stream.Sessions

/-!
# Nested windows

A longer window shows no less than a shorter one, in every field of a snapshot.

The sorted set of a longer window keeps more transactions (`stored_sublist`), and its other keys
live longer, so that its last session starts no later (`lastSession_suffix`).
-/

namespace FraudDetection.Stream

open Python Store

/-! ## The greatest amount -/

/-- What `parse_max` reads in a member. -/
def memberAmount (lib : NumberLib) (item : String) : Option ℚ := lib.float (beforeColon item)

/-- `parse_max` finds the least bound of the amounts that is not negative. -/
theorem parseMax_le_iff (lib : NumberLib) (items : List String) (bound : ℚ) :
    parseMax lib items ≤ bound ↔
      0 ≤ bound ∧ ∀ item ∈ items, ∀ val ∈ memberAmount lib item, val ≤ bound := by
  unfold parseMax memberAmount
  generalize (0 : ℚ) = start
  induction items generalizing start with
  | nil => simp
  | cons item items ih =>
      rw [List.foldl_cons, ih, List.forall_mem_cons]
      cases hval : lib.float (beforeColon item) with
      | none => simp
      | some val =>
          have hmax : (if start < val then val else start) ≤ bound ↔ start ≤ bound ∧ val ≤ bound := by
            split
            · rename_i hlt
              exact ⟨fun h => ⟨hlt.le.trans h, h⟩, fun h => h.2⟩
            · rename_i hle
              exact ⟨fun h => ⟨h, (not_lt.mp hle).trans h⟩, fun h => h.1⟩
          simp only [hmax, Option.mem_some_iff, forall_eq']
          tauto

/-- More members have a greater maximum. -/
theorem parseMax_mono (lib : NumberLib) {items items' : List String} (hsub : items ⊆ items') :
    parseMax lib items ≤ parseMax lib items' := by
  rw [parseMax_le_iff]
  obtain ⟨hnonneg, hbound⟩ := (parseMax_le_iff lib items' _).mp le_rfl
  exact ⟨hnonneg, fun item hitem => hbound item (hsub hitem)⟩

/-! ## What a longer window keeps -/

section Nesting

variable {win win' : Window}

theorem since_sublist (hwin : win.seconds ≤ win'.seconds) (now : ℚ) (es : List Event) :
    (since win now es).Sublist (since win' now es) := by
  unfold since
  apply List.monotone_filter_right
  intro j hj
  rw [decide_eq_true_eq] at hj ⊢
  linarith

theorem stored_sublist (hwin : win.seconds ≤ win'.seconds) (mine : List Event) :
    (stored win mine).Sublist (stored win' mine) := by
  rcases List.eq_nil_or_concat' mine with rfl | ⟨before, last, rfl⟩
  · exact List.nil_sublist _
  · rw [stored_concat, stored_concat]
    exact (since_sublist hwin last.now before).append_right [last]

theorem lastSession_suffix (hwin : win.seconds ≤ win'.seconds) (lib : NumberLib) (c : String)
    (history : List Call) : lastSession lib c win history <:+ lastSession lib c win' history := by
  apply session_mono
  intro i j hij
  unfold alive Event.deadline at hij ⊢
  linarith

/-- More transactions have no fewer different values. -/
theorem card_le_of_suffix (f : Event → String) {part whole : List Event} (hpart : part <:+ whole) :
    (part.map f).toFinset.card ≤ (whole.map f).toFinset.card := by
  apply Finset.card_le_card
  intro x hx
  rw [List.mem_toFinset] at hx ⊢
  exact (hpart.map f).subset hx

/-! ## Snapshots -/

/-- One window of a snapshot shows no more than another. -/
structure WindowSnapshot.Within (shorter longer : WindowSnapshot) : Prop where
  txnCount : shorter.txnCount ≤ longer.txnCount
  txnSum : shorter.txnSum ≤ longer.txnSum
  distinctMerchants : shorter.distinctMerchants ≤ longer.distinctMerchants
  distinctCountries : shorter.distinctCountries ≤ longer.distinctCountries
  maxAmount : shorter.maxAmount ≤ longer.maxAmount

/-- In every snapshot the windows nest, whatever other customers did. -/
theorem windows_nest (lib : NumberLib) (history : List Call) (k : Call) (snapshot : VelocitySnapshot)
    (htime : (history ++ [k]).Pairwise fun i j => i.now ≤ j.now)
    (hunique : ((history ++ [k]).map fun j => j.uuid.text).Nodup)
    (hamount : ∀ j ∈ Call.events lib (history ++ [k]), 0 ≤ j.amount lib)
    (hok : (k.perform lib (Call.stateAfter lib history VelocityStore.empty)).1 = .ok snapshot) :
    windows.Pairwise fun win win' => (snapshot.window win).Within (snapshot.window win') := by
  have hseconds : windows.Pairwise fun win win' => win.seconds ≤ win'.seconds := by
    norm_num [windows, Window.seconds]
  refine hseconds.imp ?_
  intro win win' hwin
  obtain ⟨e, he, -, -⟩ := Call.perform_ok hok
  obtain ⟨hcount, hmax⟩ := read_stored htime hunique he hok win
  obtain ⟨hcount', hmax'⟩ := read_stored htime hunique he hok win'
  obtain ⟨hsum, hmerchants, hcountries⟩ := read_accumulated he hok win
  obtain ⟨hsum', hmerchants', hcountries'⟩ := read_accumulated he hok win'
  have hkept := stored_sublist hwin (own e.customer (Call.events lib (history ++ [k])))
  have hsession := lastSession_suffix hwin lib e.customer (history ++ [k])
  refine ⟨?_, ?_, ?_, ?_, ?_⟩
  · rw [hcount, hcount']
    exact hkept.length_le
  · rw [hsum, hsum']
    apply shownSum_le_of_suffix hsession
    intro j hj
    exact hamount j (List.mem_of_mem_filter ((session_suffix _).subset hj))
  · rw [hmerchants, hmerchants']
    exact card_le_of_suffix (·.txn.merchantId) hsession
  · rw [hcountries, hcountries']
    exact card_le_of_suffix (·.txn.country) hsession
  · rw [hmax, hmax']
    exact parseMax_mono lib (hkept.map Event.member).subset

end Nesting

/-! ### Two customers -/

theorem windows_nest_mixed : ∃ snapshot,
    (aliceAgain.perform compactNumbers
      (Call.stateAfter compactNumbers mixedCalls VelocityStore.empty)).1 = .ok snapshot ∧
    windows.Pairwise fun win win' => (snapshot.window win).Within (snapshot.window win') := by
  have hok := perform_sample compactNumbers "alice" 25 "m-1" "DE" 30 '2'
    (Call.stateAfter compactNumbers mixedCalls VelocityStore.empty)
  refine ⟨_, hok, windows_nest compactNumbers mixedCalls aliceAgain _ ?_ ?_ ?_ hok⟩
  · simp [mixedCalls, aliceAgain, sampleCall]
    norm_num
  · simp [mixedCalls, aliceAgain, sampleCall, sampleUuid, uuidText]
  · simp [mixedCalls, aliceAgain, Call.events, amount_sample]

end FraudDetection.Stream
