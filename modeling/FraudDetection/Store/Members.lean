import Mathlib.Data.List.Nodup
import FraudDetection.Store.SortedSet

/-!
# The members under a key

What a command leaves, said of single members: which ones are visible under the key afterwards. Here
a member may be added that is there already.
-/

namespace FraudDetection.Store

namespace SortedSet

variable {M S : Type}

/-- `ZREMRANGEBYSCORE min max`: drop every member whose score is in the range. -/
def removeRange [LinearOrder S] (z : SortedSet M S) (min max : S) : SortedSet M S where
  toList := z.toList.filter fun p => ¬ (min ≤ p.2 ∧ p.2 ≤ max)
  nodup := z.nodup.sublist (List.filter_sublist.map _)

/-- A member has the score it was last given. -/
theorem mem_add [DecidableEq M] {z : SortedSet M S} {m : M} {s : S} {p : M × S} :
    p ∈ (z.add m s).toList ↔ p = (m, s) ∨ p ∈ z.toList ∧ p.1 ≠ m := by
  show p ∈ z.toList.filter (fun p => p.1 ≠ m) ++ [(m, s)] ↔ _
  rw [List.mem_append, List.mem_filter, List.mem_singleton, or_comm]
  simp only [decide_eq_true_eq]

end SortedSet

namespace Keyspace

variable {K M S T : Type} [LinearOrder T] {ks : Keyspace K (SortedSet M S) T} {now : T} {k : K}

/-- The members visible under `k`, with their scores. -/
def members (ks : Keyspace K (SortedSet M S) T) (now : T) (k : K) : List (M × S) :=
  match ks.find? now k with
  | some e => e.value.toList
  | none => []

theorem members_of_find? {e : Entry (SortedSet M S) T} (h : ks.find? now k = some e) :
    ks.members now k = e.value.toList := by
  rw [members, h]

theorem members_of_none (h : ks.find? now k = none) : ks.members now k = [] := by
  rw [members, h]

/-- No member is listed twice. -/
theorem nodup_members (ks : Keyspace K (SortedSet M S) T) (now : T) (k : K) :
    (ks.members now k).Nodup := by
  cases h : ks.find? now k with
  | none =>
      rw [members_of_none h]
      exact List.nodup_nil
  | some e =>
      rw [members_of_find? h]
      exact List.Nodup.of_map Prod.fst e.value.nodup

theorem zcard_eq_length (ks : Keyspace K (SortedSet M S) T) (now : T) (k : K) :
    ks.zcard now k = (ks.members now k).length := by
  unfold zcard members
  cases ks.find? now k with
  | none => rfl
  | some e => rfl

theorem members_congr {ks' : Keyspace K (SortedSet M S) T} (h : ks k = ks' k) (now : T) :
    ks.members now k = ks'.members now k := by
  unfold members
  rw [find?_congr h]

variable [DecidableEq K]

/-- `ZREMRANGEBYSCORE k min max` -/
def zremrange [LinearOrder S] (ks : Keyspace K (SortedSet M S) T) (now : T) (k : K) (min max : S) :
    Keyspace K (SortedSet M S) T :=
  ks.alter now k fun found => found.bind fun e =>
    let z := e.value.removeRange min max
    if z.card = 0 then none else some ⟨z, e.deadline⟩

theorem ActsOn.zremrange [LinearOrder S] (now : T) (k : K) (min max : S) :
    ActsOn (fun ks : Keyspace K (SortedSet M S) T => ks.zremrange now k min max) k :=
  ActsOn.alter now k _

/-- What is put under a key that is not past its deadline is visible there. -/
theorem members_alter {f : Option (Entry (SortedSet M S) T) → Option (Entry (SortedSet M S) T)}
    {e : Entry (SortedSet M S) T} (h : f (ks.find? now k) = some e)
    (hd : ∀ t ∈ e.deadline, now ≤ t) : (ks.alter now k f).members now k = e.value.toList := by
  have hstored : ks.alter now k f k = some ⟨e.value, e.deadline⟩ := (alter_self ..).trans h
  exact members_of_find? (find?_of_live hstored hd)

theorem members_alter_none
    {f : Option (Entry (SortedSet M S) T) → Option (Entry (SortedSet M S) T)}
    (h : f (ks.find? now k) = none) (t : T) : (ks.alter now k f).members t k = [] :=
  members_of_none (find?_of_none ((alter_self ..).trans h))

/-- The members outside the range stay. -/
theorem members_zremrange [LinearOrder S] (min max : S) :
    (ks.zremrange now k min max).members now k =
      (ks.members now k).filter fun p => ¬ (min ≤ p.2 ∧ p.2 ≤ max) := by
  unfold zremrange
  cases h : ks.find? now k with
  | none =>
      rw [members_alter_none (by rw [h]; rfl), members_of_none h, List.filter_nil]
  | some e =>
      rw [members_of_find? h]
      by_cases hempty : (e.value.removeRange min max).card = 0
      · rw [members_alter_none (by simp [h, hempty])]
        exact (List.length_eq_zero_iff.mp hempty).symm
      · have hdeadline : ∀ t ∈ e.deadline, now ≤ t := le_of_find? h
        rw [members_alter (e := ⟨e.value.removeRange min max, e.deadline⟩) (by simp [h, hempty])
          hdeadline]
        rfl

/-- A member that is added takes the place of itself. -/
theorem mem_members_zadd [DecidableEq M] {m : M} {s : S} {p : M × S} :
    p ∈ (ks.zadd now k m s).members now k ↔
      p = (m, s) ∨ p ∈ ks.members now k ∧ p.1 ≠ m := by
  unfold zadd
  cases h : ks.find? now k with
  | none =>
      rw [members_alter (e := ⟨SortedSet.empty.add m s, none⟩) (by rw [h])
        (fun t ht => nomatch ht), members_of_none h, SortedSet.mem_add]
      rfl
  | some e =>
      have hdeadline : ∀ t ∈ e.deadline, now ≤ t := le_of_find? h
      rw [members_alter (e := ⟨e.value.add m s, e.deadline⟩) (by rw [h]) hdeadline,
        members_of_find? h, SortedSet.mem_add]

/-- Up to a deadline in the future a key shows what it showed when the deadline was set; a deadline
that has been reached deletes it. -/
theorem members_expireAt (d t : T) :
    (ks.expireAt now k d).members t k = if now < d ∧ t ≤ d then ks.members now k else [] := by
  unfold expireAt
  cases h : ks.find? now k with
  | none =>
      rw [members_alter_none (by rw [h]; rfl), members_of_none h, ite_self]
  | some e =>
      rw [members_of_find? h]
      by_cases hd : now < d
      · have hstored : (ks.alter now k fun found => found.bind fun e =>
            if now < d then some ⟨e.value, some d⟩ else none) k = some ⟨e.value, some d⟩ := by
          rw [alter_self, h]
          exact if_pos hd
        unfold members
        rw [find?_of_some hstored]
        by_cases htd : t ≤ d <;> simp [Entry.live, hd, htd]
      · rw [members_alter_none (by simp [h, hd]), if_neg fun hboth => hd hboth.1]

end Keyspace

end FraudDetection.Store
