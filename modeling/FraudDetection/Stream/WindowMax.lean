import Mathlib.Data.List.MinMax
import FraudDetection.Stream.Redelivery
import FraudDetection.Stream.Nesting

/-!
# The windowed maximum

An amount survives in the sorted set only as the front of a member, `f"{amount}:{event_uuid}"`, and
`parse_max` splits the members and parses their fronts. Where Python reads back the texts of its
numbers, `max_amount` is the greatest amount in the window.
-/

namespace FraudDetection.Stream

open Python Store

/-! ## Reading back an amount -/

/-- Python's texts of numbers: there is no colon in them, and `float()` reads them back. -/
structure ReadsNumbers (lib : NumberLib) : Prop where
  float_int : ∀ n : ℤ, lib.float (lib.str (.int n)) = some (n : ℚ)
  float_float : ∀ q : ℚ, lib.float (lib.str (.float q)) = some q
  colon_int : ∀ n : ℤ, ':' ∉ (lib.str (.int n)).toList
  colon_float : ∀ q : ℚ, ':' ∉ (lib.str (.float q)).toList

/-- The payload of the call has a positive amount. -/
def Call.PositiveAmount (k : Call) : Prop :=
  ∃ v q, k.payload.get "amount" (.float 0) = .ok v ∧ v.number? = some q ∧ 0 < q

/-- The front of a member is the text in front of its first colon. -/
theorem beforeColon_member {e : Event} (h : ':' ∉ e.txn.amount.toList) :
    beforeColon e.member = e.txn.amount := by
  have hcolon : ":".toList = [':'] := by simp
  have hfront : ∀ c ∈ e.txn.amount.toList, decide (c ≠ ':') = true := by
    intro c hc
    rw [decide_eq_true_eq]
    rintro rfl
    exact h hc
  rw [beforeColon, Event.member, String.toList_append, String.toList_append, hcolon,
    List.append_assoc, List.takeWhile_append_of_pos hfront]
  simp

section Amount

variable {lib : NumberLib}

/-- What is sent for a number has no colon, and `float()` reads the number in it. -/
theorem ReadsNumbers.of_encode (hlib : ReadsNumbers lib) {v : Json} {q : ℚ} {text : String}
    (hv : v.number? = some q) (htext : encode lib.toPyLib v = .ok text) :
    ':' ∉ text.toList ∧ lib.float text = some q := by
  cases v with
  | int n =>
      cases hv
      have hamount : lib.str (.int n) = text := Except.ok.inj htext
      rw [← hamount]
      exact ⟨hlib.colon_int n, hlib.float_int n⟩
  | float p =>
      cases hv
      have hamount : lib.str (.float q) = text := Except.ok.inj htext
      rw [← hamount]
      exact ⟨hlib.colon_float q, hlib.float_float q⟩
  | bool b => cases htext
  | str s => cases hv
  | null => cases hv
  | list vs => cases hv
  | dict fs => cases hv

/-- `parse_max` reads the amount of a transaction in its member. -/
theorem memberAmount_member (hlib : ReadsNumbers lib) {k : Call} {e : Event}
    (he : k.event lib = some e) (hk : k.PositiveAmount) :
    memberAmount lib e.member = some (e.amount lib) ∧ 0 < e.amount lib := by
  obtain ⟨v, q, hv, hq, hpos⟩ := hk
  have hread : Transaction.ofPayload lib.toPyLib k.payload = .ok e.txn := by
    unfold Call.event at he
    split at he
    · next htxn =>
        cases he
        exact htxn
    · cases he
  have htext := encode_amount hread hv
  obtain ⟨hcolon, hfloat⟩ := hlib.of_encode hq htext
  rw [memberAmount, beforeColon_member hcolon, hfloat, Event.amount_of_encode hq htext]
  exact ⟨rfl, hpos⟩

/-- On members that carry positive amounts `parse_max` finds the greatest of them. -/
theorem isGreatest_parseMax {es : List Event} (hne : es ≠ [])
    (hes : ∀ j ∈ es, memberAmount lib j.member = some (j.amount lib) ∧ 0 < j.amount lib) :
    IsGreatest {a | ∃ j ∈ es, j.amount lib = a} (parseMax lib (es.map Event.member)) := by
  have hbound : ∀ j ∈ es, j.amount lib ≤ parseMax lib (es.map Event.member) := by
    intro j hj
    have hle := ((parseMax_le_iff lib (es.map Event.member) _).mp le_rfl).2
    exact hle j.member (List.mem_map_of_mem hj) _ (hes j hj).1
  have hpos : 0 < (es.map fun j => j.amount lib).length := by
    rw [List.length_map]
    exact List.length_pos_of_ne_nil hne
  obtain ⟨j, hj, hmax⟩ := List.mem_map.mp (List.maximum_of_length_pos_mem hpos)
  refine ⟨⟨j, hj, ?_⟩, ?_⟩
  · apply le_antisymm (hbound j hj)
    rw [parseMax_le_iff]
    refine ⟨(hes j hj).2.le, ?_⟩
    intro item hitem val hval
    obtain ⟨i, hi, rfl⟩ := List.mem_map.mp hitem
    rw [(hes i hi).1, Option.mem_some_iff] at hval
    rw [← hval, hmax]
    exact List.le_maximum_of_length_pos_of_mem (List.mem_map_of_mem hi) hpos
  · rintro a ⟨i, hi, rfl⟩
    exact hbound i hi

end Amount

/-! ## The maximum of a window -/

/-- In every snapshot the maximum of a window is the greatest amount among the customer's
transactions in it. -/
theorem maxAmount_exact (lib : NumberLib) (hlib : ReadsNumbers lib) (history : List Call) (k : Call)
    (e : Event) (snapshot : VelocitySnapshot)
    (htime : (history ++ [k]).Pairwise fun i j => i.now ≤ j.now)
    (hunique : ((history ++ [k]).map fun j => j.uuid.text).Nodup)
    (hamount : ∀ j ∈ history ++ [k], j.PositiveAmount)
    (he : k.event lib = some e)
    (hok : (k.perform lib (Call.stateAfter lib history VelocityStore.empty)).1 = .ok snapshot)
    (win : Window) :
    IsGreatest {a | ∃ j ∈ inWindow lib e.customer win k.now (history ++ [k]), j.amount lib = a}
      (snapshot.window win).maxAmount := by
  rw [(read_stored htime hunique he hok win).2, ← inWindow_eq_stored htime he]
  apply isGreatest_parseMax
  · -- the call's own transaction is in the window
    rw [inWindow_eq_stored htime he, events_concat he, own_concat_self, stored_concat]
    simp
  · intro j hj
    have hevent : j ∈ Call.events lib (history ++ [k]) :=
      List.mem_of_mem_filter (List.mem_of_mem_filter hj)
    obtain ⟨i, hi, hij⟩ := List.mem_filterMap.mp hevent
    exact memberAmount_member hlib hij (hamount i hi)

/-! ### The compact codec -/

theorem colon_not_mem_toDigits (n : ℕ) : ':' ∉ Nat.toDigits 10 n := by
  intro h
  have hdigit := Nat.isDigit_of_mem_toDigits (by omega) (by omega) h
  revert hdigit
  decide

theorem colon_not_mem_printInt (n : ℤ) : ':' ∉ CompactJson.printInt n := by
  unfold CompactJson.printInt
  split
  · intro h
    rcases List.mem_cons.mp h with h | h
    · revert h
      decide
    · exact colon_not_mem_toDigits _ h
  · exact colon_not_mem_toDigits _

theorem readsNumbers_compact : ReadsNumbers compactNumbers where
  float_int := compactNumbers.incrArgument_int
  float_float := compactNumbers.incrArgument_float
  colon_int := by
    intro n
    show ':' ∉ (String.ofList (CompactJson.print (.int n))).toList
    rw [String.toList_ofList, CompactJson.print]
    exact colon_not_mem_printInt n
  colon_float := by
    intro q
    show ':' ∉ (String.ofList (CompactJson.print (.float q))).toList
    rw [String.toList_ofList, CompactJson.print]
    intro h
    rcases List.mem_append.mp h with h | h
    · exact colon_not_mem_printInt _ h
    · rcases List.mem_cons.mp h with h | h
      · revert h
        decide
      · exact colon_not_mem_toDigits _ h

theorem positiveAmount_sample {amount : ℤ} (h : 0 < amount) (customer merchant country : String)
    (now : ℚ) (digit : Char) :
    (sampleCall customer amount merchant country now digit).PositiveAmount := by
  refine ⟨.int amount, amount, ?_, rfl, Int.cast_pos.mpr h⟩
  simp [sampleCall, List.lookup_cons]

theorem maxAmount_exact_mixed : ∃ snapshot,
    (aliceAgain.perform compactNumbers
      (Call.stateAfter compactNumbers mixedCalls VelocityStore.empty)).1 = .ok snapshot ∧
    IsGreatest {a | ∃ j ∈ inWindow compactNumbers "alice" .m1 30 (mixedCalls ++ [aliceAgain]),
        j.amount compactNumbers = a} (snapshot.window .m1).maxAmount := by
  refine ⟨_, perform_sample compactNumbers _ _ _ _ _ _ _, ?_⟩
  refine maxAmount_exact compactNumbers readsNumbers_compact mixedCalls aliceAgain
    (sampleEvent compactNumbers "alice" 25 "m-1" "DE" 30 '2') _ ?_ ?_ ?_ (event_sample _ _ _ _ _ _ _)
    (perform_sample _ _ _ _ _ _ _ _) .m1
  · simp [mixedCalls, aliceAgain, sampleCall]
    norm_num
  · simp [mixedCalls, aliceAgain, sampleCall, sampleUuid, uuidText]
  · simp only [mixedCalls, aliceAgain, List.cons_append, List.nil_append, List.forall_mem_cons]
    refine ⟨positiveAmount_sample (by decide) .., positiveAmount_sample (by decide) ..,
      positiveAmount_sample (by decide) .., ?_⟩
    intro j hj
    cases hj

end FraudDetection.Stream
