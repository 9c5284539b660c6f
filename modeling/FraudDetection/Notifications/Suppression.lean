import Mathlib.Data.List.Induction
import Mathlib.Tactic.NormNum
import FraudDetection.Notifications.Dispatch

/-!
# What the duplicate check suppresses

The marker is a text made of the two ids with a colon between them, and `None` for a missing one.
Ids with colons, missing ids and the text `None` share markers with others.
-/

namespace FraudDetection.Notifications

open Async Python Store

/-! ## Sequences of calls -/

section Calls

variable (py : PyLib) (self : NotificationDispatcher) (db : Database)

/-- The server after a sequence of calls, each after the one before it has ended. -/
def serverAfter (calls : List Call) : Server :=
  calls.foldl (fun t c => (c.run py self db t).final) .empty

theorem serverAfter_concat (calls : List Call) (c : Call) :
    serverAfter py self db (calls ++ [c])
      = (c.run py self db (serverAfter py self db calls)).final := by
  rw [serverAfter, List.foldl_append]
  rfl

/-- A text for the recipient and a text for the alert, the same in both calls. -/
def SameIds (e c : Call) : Prop :=
  ∃ recipientId alertId : String,
    e.notice.recipientId = .str recipientId ∧ c.notice.recipientId = .str recipientId ∧
    e.notice.alertId = .str alertId ∧ c.notice.alertId = .str alertId

/-- The call `c` finds a marker that `e` has set. -/
def Within (e c : Call) : Prop := c.getAt ≤ e.setAt + 86400

/-- A call of the sequence returns `False` only if a call before it, within 24 hours, had the same
recipient and the same alert, both present. -/
def OnlyTrueDuplicates (calls : List Call) : Prop :=
  ∀ before c after, calls = before ++ c :: after →
    (c.run py self db (serverAfter py self db before)).result = .ok false →
    ∃ e ∈ before, Within e c ∧ SameIds e c

/-- The later call does not find the marker of the earlier one, or it repeats it. -/
def Clear (e c : Call) : Prop := Within e c → e.notice.key py = c.notice.key py → SameIds e c

/-! ## Markers -/

variable {py self db}

/-- Every marker was set by a call of the sequence. -/
theorem marker_of_serverAfter {calls : List Call} {key : String} {entry : Entry String ℚ}
    (h : (serverAfter py self db calls).redis key = some entry) :
    ∃ e ∈ calls, e.notice.key py = key ∧ entry = ⟨"1", some (e.setAt + 86400)⟩ := by
  induction calls using List.reverseRecOn with
  | nil => cases h
  | append_singleton calls c ih =>
      have hold : (serverAfter py self db calls).redis key = some entry →
          ∃ e ∈ calls ++ [c], e.notice.key py = key ∧ entry = ⟨"1", some (e.setAt + 86400)⟩ := by
        intro hbefore
        obtain ⟨e, he, hmarker⟩ := ih hbefore
        exact ⟨e, List.mem_append_left _ he, hmarker⟩
      rw [serverAfter_concat] at h
      by_cases hmarked : (serverAfter py self db calls).Marked c.getAt (c.notice.key py)
      · rw [(run_marked hmarked).2] at h
        exact hold h
      · rw [(run_unmarked hmarked).2] at h
        by_cases hkey : key = c.notice.key py
        · subst hkey
          have hset := Keyspace.set_self (serverAfter py self db calls).redis
            (c.notice.key py) "1" (some (c.setAt + 86400))
          exact ⟨c, by simp, rfl, Option.some.inj (h.symm.trans hset)⟩
        · have hother := Keyspace.set_of_ne (serverAfter py self db calls).redis hkey "1"
            (some (c.setAt + 86400))
          exact hold (hother.symm.trans h)

/-- A call that returns `False` finds the marker of a call before it. -/
theorem exists_marker {before : List Call} {c : Call}
    (h : (c.run py self db (serverAfter py self db before)).result = .ok false) :
    ∃ e ∈ before, e.notice.key py = c.notice.key py ∧ Within e c := by
  by_cases hmarked : (serverAfter py self db before).Marked c.getAt (c.notice.key py)
  · obtain ⟨entry, hfind, -⟩ := hmarked
    obtain ⟨e, he, hkey, rfl⟩ := marker_of_serverAfter (Keyspace.eq_some_of_find? hfind)
    exact ⟨e, he, hkey, Keyspace.le_of_find? hfind _ rfl⟩
  · exact absurd h (run_unmarked hmarked).1

/-- The first of two calls with the same marker suppresses the second one within 24 hours. -/
theorem suppressed_of_key {e c : Call} (hwithin : Within e c)
    (hkey : e.notice.key py = c.notice.key py) :
    (c.run py self db (serverAfter py self db [e])).result = .ok false := by
  apply (run_marked ?_).1
  have hmarked : (Server.empty.mark e.setAt (e.notice.key py)).Marked c.getAt (c.notice.key py) := by
    rw [← hkey, Server.marked_mark]
    exact hwithin
  have hredis : (serverAfter py self db [e]).redis
      = (Server.empty.mark e.setAt (e.notice.key py)).redis :=
    (run_unmarked (not_marked_empty _ _)).2
  unfold Server.Marked at hmarked ⊢
  rw [hredis]
  exact hmarked

/-- Two calls that are not clear of each other are a sequence that breaks the law. -/
theorem not_onlyTrueDuplicates {e c : Call} (h : ¬ Clear py e c) :
    ¬ OnlyTrueDuplicates py self db [e, c] := by
  intro hclaim
  rw [Clear, not_forall] at h
  obtain ⟨hwithin, h⟩ := h
  rw [not_forall] at h
  obtain ⟨hkey, hdiffer⟩ := h
  obtain ⟨e', he', -, hsame⟩ := hclaim [e] c [] rfl (suppressed_of_key hwithin hkey)
  rw [List.mem_singleton.mp he'] at hsame
  exact hdiffer hsame

end Calls

/-! ## Only true duplicates -/

/-- In every sequence of calls in which none finds the marker of another one that it does not
repeat, only true duplicates are suppressed. Any two calls that are not so break the law on their
own. -/
theorem suppressed_only_if_duplicate (py : PyLib) (self : NotificationDispatcher)
    (db : Database) :
    (∀ calls : List Call, calls.Pairwise (Clear py) → OnlyTrueDuplicates py self db calls) ∧
      ∀ e c, ¬ Clear py e c → ¬ OnlyTrueDuplicates py self db [e, c] := by
  refine ⟨?_, fun e c => not_onlyTrueDuplicates⟩
  rintro calls hclear before c after rfl hfalse
  obtain ⟨e, he, hkey, hwithin⟩ := exists_marker hfalse
  have hpair : Clear py e c := (List.pairwise_append.mp hclear).2.2 e he c List.mem_cons_self
  exact ⟨e, he, hwithin, hpair hwithin hkey⟩

/-! ### Samples -/

/-- A call at a time for a recipient, and an alert if there is one. -/
def callFor (recipientId : String) (alertId : Option String) (now : ℚ) : Call where
  payload := ("recipient_id", .str recipientId) ::
    match alertId with
    | some alertId => [("alert_id", .str alertId)]
    | none => []
  getAt := now
  setAt := now
  utcnow := fun _ => now
  outcome := fun _ => .ok true

/-- The second call repeats the first one, and the third one is for another alert. -/
theorem suppressed_only_if_duplicate_repeated :
    OnlyTrueDuplicates CompactJson.compactJson defaultDispatcher strictDatabase
      [callFor "r-1" (some "a-1") 0, callFor "r-1" (some "a-1") 60,
        callFor "r-1" (some "a-2") 120] := by
  apply (suppressed_only_if_duplicate CompactJson.compactJson defaultDispatcher strictDatabase).1
  have hsame : ∀ now now', Clear CompactJson.compactJson (callFor "r-1" (some "a-1") now)
      (callFor "r-1" (some "a-1") now') :=
    fun _ _ _ _ => ⟨"r-1", "a-1", rfl, rfl, rfl, rfl⟩
  have hother : ∀ now now', Clear CompactJson.compactJson (callFor "r-1" (some "a-1") now)
      (callFor "r-1" (some "a-2") now') := by
    intro now now' _ hkey
    have htexts : dedupKey CompactJson.compactJson (.str "r-1") (.str "a-1")
        = dedupKey CompactJson.compactJson (.str "r-1") (.str "a-2") := hkey
    exact absurd htexts (by decide +kernel)
  simp only [List.pairwise_cons, List.forall_mem_cons, List.not_mem_nil, false_implies,
    implies_true, List.Pairwise.nil, and_true]
  exact ⟨⟨hsame 0 60, hother 0 120⟩, hother 60 120⟩

/-- A second notification for a recipient that is not tied to an alert is suppressed as well. -/
theorem alertless_suppressed : ¬ ∀ calls : List Call,
    OnlyTrueDuplicates CompactJson.compactJson defaultDispatcher strictDatabase calls := by
  intro hclaim
  apply not_onlyTrueDuplicates (e := callFor "r-1" none 0) (c := callFor "r-1" none 60) ?_
    (hclaim [callFor "r-1" none 0, callFor "r-1" none 60])
  intro hclear
  have hwithin : Within (callFor "r-1" none 0) (callFor "r-1" none 60) := by
    norm_num [Within, callFor]
  obtain ⟨recipientId, alertId, -, -, hpresent, -⟩ := hclear hwithin rfl
  cases hpresent

end FraudDetection.Notifications
