import Mathlib.Data.List.Basic
import Mathlib.Tactic.Set
import FraudDetection.Store.Keyspace

/-!
# Sorted sets

A sorted set gives each of its members a score. Members are any type with decidable equality and
scores any linear order. The commands act on the sorted set under a key: a command that leaves it
empty removes the key, and a key made by `zadd` has no deadline.
-/

namespace FraudDetection.Store

/-- A finite set of members with their scores, in the order of their insertion. -/
@[ext]
structure SortedSet (M S : Type) where
  toList : List (M × S)
  nodup : (toList.map Prod.fst).Nodup

namespace SortedSet

variable {M S : Type}

/-- The sorted set without members. -/
def empty : SortedSet M S := ⟨[], by simp⟩

/-- `ZADD`: give `m` the score `s`, whether or not it was a member. -/
def add [DecidableEq M] (z : SortedSet M S) (m : M) (s : S) : SortedSet M S where
  toList := z.toList.filter (fun p => p.1 ≠ m) ++ [(m, s)]
  nodup := by
    rw [List.map_append, List.nodup_append]
    refine ⟨z.nodup.sublist (List.filter_sublist.map _), by simp, ?_⟩
    intro a ha b hb
    obtain ⟨p, hp, rfl⟩ := List.mem_map.mp ha
    obtain rfl : b = m := by simpa using hb
    have hne := (List.mem_filter.mp hp).2
    simpa using hne

/-- `ZREMRANGEBYSCORE -inf max`: drop every member whose score is at most `max`. -/
def removeUpTo [LinearOrder S] (z : SortedSet M S) (max : S) : SortedSet M S where
  toList := z.toList.filter fun p => max < p.2
  nodup := z.nodup.sublist (List.filter_sublist.map _)

/-- `ZCARD` -/
def card (z : SortedSet M S) : ℕ := z.toList.length

/-- `ZCOUNT min +inf`: the number of members whose score is at least `min`. -/
def countFrom [LinearOrder S] (z : SortedSet M S) (min : S) : ℕ :=
  z.toList.countP fun p => min ≤ p.2

/-- A member that was not there is put at the end. -/
theorem toList_add_of_not_mem [DecidableEq M] {z : SortedSet M S} {m : M}
    (h : m ∉ z.toList.map Prod.fst) (s : S) : (z.add m s).toList = z.toList ++ [(m, s)] := by
  have hkeep : z.toList.filter (fun p => p.1 ≠ m) = z.toList := by
    rw [List.filter_eq_self]
    intro p hp
    have hne : p.1 ≠ m := fun heq => h (heq ▸ List.mem_map_of_mem hp)
    simpa using hne
  show z.toList.filter (fun p => p.1 ≠ m) ++ [(m, s)] = z.toList ++ [(m, s)]
  rw [hkeep]

theorem toList_removeUpTo [LinearOrder S] (z : SortedSet M S) (max : S) :
    (z.removeUpTo max).toList = z.toList.filter fun p => max < p.2 := rfl

end SortedSet

/-! ## Commands on a key -/

namespace Keyspace

variable {K M S T : Type}

/-- What is stored under a key: nothing, or the members `ps` with a deadline. No key holds an empty
sorted set. -/
def Holds (found : Option (Entry (SortedSet M S) T)) (ps : List (M × S)) (d : Option T) : Prop :=
  if ps = [] then found = none else ∃ z, found = some ⟨z, d⟩ ∧ z.toList = ps

theorem holds_nil {found : Option (Entry (SortedSet M S) T)} {d : Option T} :
    Holds found [] d ↔ found = none := by
  rw [Holds, if_pos rfl]

theorem holds_of_ne {found : Option (Entry (SortedSet M S) T)} {ps : List (M × S)} {d : Option T}
    (hps : ps ≠ []) : Holds found ps d ↔ ∃ z, found = some ⟨z, d⟩ ∧ z.toList = ps := by
  rw [Holds, if_neg hps]

section Commands

variable [LinearOrder T] {ks : Keyspace K (SortedSet M S) T} {now : T} {k : K} {ps : List (M × S)}

/-- `ZCARD k` -/
def zcard (ks : Keyspace K (SortedSet M S) T) (now : T) (k : K) : ℕ :=
  match ks.find? now k with
  | some e => e.value.card
  | none => 0

/-- `ZCOUNT k min +inf` -/
def zcount [LinearOrder S] (ks : Keyspace K (SortedSet M S) T) (now : T) (k : K) (min : S) : ℕ :=
  match ks.find? now k with
  | some e => e.value.countFrom min
  | none => 0

/-- A key past its deadline shows no members. -/
theorem Holds.find? (now : T) {d : T} (h : Holds (ks k) ps (some d)) :
    Holds (ks.find? now k) (if now ≤ d then ps else []) (some d) := by
  by_cases hps : ps = []
  · subst hps
    rw [holds_nil] at h
    rw [ite_self, holds_nil, find?_of_none h]
  · obtain ⟨z, hz, rfl⟩ := (holds_of_ne hps).mp h
    rw [find?_of_some hz]
    by_cases hd : now ≤ d
    · rw [if_pos hd, holds_of_ne hps]
      exact ⟨z, by simp [Entry.live, hd], rfl⟩
    · rw [if_neg hd, holds_nil]
      simp [Entry.live, hd]

/-- A key that a command has just left is visible to the next one. -/
theorem Holds.visible {d : Option T} (h : Holds (ks k) ps d) (now : T)
    (hd : ∀ t, d = some t → now ≤ t) : Holds (ks.find? now k) ps d := by
  cases d with
  | some t => simpa [hd t rfl] using h.find? now
  | none =>
      by_cases hps : ps = []
      · subst hps
        rw [holds_nil] at h ⊢
        exact find?_of_none h
      · obtain ⟨z, hz, rfl⟩ := (holds_of_ne hps).mp h
        rw [holds_of_ne hps, find?_of_some hz]
        exact ⟨z, rfl, rfl⟩

/-- The cardinality is the number of visible members. -/
theorem Holds.zcard {d : Option T} (h : Holds (ks.find? now k) ps d) :
    ks.zcard now k = ps.length := by
  by_cases hps : ps = []
  · subst hps
    rw [holds_nil] at h
    rw [Keyspace.zcard, h]
    rfl
  · obtain ⟨z, hz, rfl⟩ := (holds_of_ne hps).mp h
    rw [Keyspace.zcard, hz]
    rfl

theorem Holds.zcount [LinearOrder S] {d : Option T} (h : Holds (ks.find? now k) ps d) (min : S) :
    ks.zcount now k min = ps.countP fun p => min ≤ p.2 := by
  by_cases hps : ps = []
  · subst hps
    rw [holds_nil] at h
    rw [Keyspace.zcount, h]
    rfl
  · obtain ⟨z, hz, rfl⟩ := (holds_of_ne hps).mp h
    rw [Keyspace.zcount, hz]
    rfl

variable [DecidableEq K]

/-- `ZREMRANGEBYSCORE k -inf max` -/
def zremrangebyscore [LinearOrder S] (ks : Keyspace K (SortedSet M S) T) (now : T) (k : K)
    (max : S) : Keyspace K (SortedSet M S) T :=
  ks.alter now k fun found => found.bind fun e =>
    let z := e.value.removeUpTo max
    if z.card = 0 then none else some ⟨z, e.deadline⟩

/-- `ZADD k s m` -/
def zadd [DecidableEq M] (ks : Keyspace K (SortedSet M S) T) (now : T) (k : K) (m : M) (s : S) :
    Keyspace K (SortedSet M S) T :=
  ks.alter now k fun found =>
    match found with
    | some e => some ⟨e.value.add m s, e.deadline⟩
    | none => some ⟨SortedSet.empty.add m s, none⟩

theorem ActsOn.zremrangebyscore [LinearOrder S] (now : T) (k : K) (max : S) :
    ActsOn (fun ks : Keyspace K (SortedSet M S) T => ks.zremrangebyscore now k max) k :=
  ActsOn.alter now k _

theorem ActsOn.zadd [DecidableEq M] (now : T) (k : K) (m : M) (s : S) :
    ActsOn (fun ks : Keyspace K (SortedSet M S) T => ks.zadd now k m s) k :=
  ActsOn.alter now k _

/-- Pruning keeps the members with a score above `max`. -/
theorem Holds.zremrangebyscore [LinearOrder S] {d : Option T} (h : Holds (ks.find? now k) ps d)
    (max : S) :
    Holds (ks.zremrangebyscore now k max k) (ps.filter fun p => max < p.2) d := by
  rw [Keyspace.zremrangebyscore, alter_self]
  by_cases hps : ps = []
  · subst hps
    rw [holds_nil] at h
    rw [h, List.filter_nil, holds_nil]
    rfl
  · obtain ⟨z, hz, rfl⟩ := (holds_of_ne hps).mp h
    rw [hz]
    simp only [Option.bind_some]
    by_cases hnil : z.toList.filter (fun p => max < p.2) = []
    · rw [hnil, holds_nil, if_pos]
      rw [SortedSet.card, SortedSet.toList_removeUpTo, hnil]
      rfl
    · rw [holds_of_ne hnil, if_neg]
      · exact ⟨_, rfl, rfl⟩
      · rw [SortedSet.card, SortedSet.toList_removeUpTo, List.length_eq_zero_iff]
        exact hnil

/-- Adding a new member puts it at the end. -/
theorem Holds.zadd [DecidableEq M] {d : Option T} (h : Holds (ks.find? now k) ps d) {m : M}
    (hm : m ∉ ps.map Prod.fst) (s : S) :
    ∃ d', Holds (ks.zadd now k m s k) (ps ++ [(m, s)]) d' ∧
      (ps = [] → d' = none) ∧ (ps ≠ [] → d' = d) := by
  rw [Keyspace.zadd, alter_self]
  by_cases hps : ps = []
  · subst hps
    rw [holds_nil] at h
    refine ⟨none, ?_, fun _ => rfl, fun hne => absurd rfl hne⟩
    rw [h, holds_of_ne (by simp)]
    exact ⟨_, rfl, rfl⟩
  · obtain ⟨z, hz, rfl⟩ := (holds_of_ne hps).mp h
    refine ⟨d, ?_, fun hnil => absurd hnil hps, fun _ => rfl⟩
    rw [hz, holds_of_ne (by simp)]
    exact ⟨_, rfl, SortedSet.toList_add_of_not_mem hm s⟩

/-- Setting a deadline in the future keeps the members. -/
theorem Holds.expireAt {d : Option T} (h : Holds (ks.find? now k) ps d) {d' : T} (hd : now < d') :
    Holds (ks.expireAt now k d' k) ps (some d') := by
  rw [Keyspace.expireAt, alter_self]
  by_cases hps : ps = []
  · subst hps
    rw [holds_nil] at h ⊢
    rw [h]
    rfl
  · obtain ⟨z, hz, rfl⟩ := (holds_of_ne hps).mp h
    rw [hz, holds_of_ne hps]
    exact ⟨z, by simp [hd], rfl⟩

/-- Pruning and then adding a new member, as a sliding window does: the next command sees what is
left of the members with a score above `max`, and the new member at the end. -/
theorem Holds.slide [LinearOrder S] [DecidableEq M] {d : T} (h : Holds (ks k) ps (some d)) (max : S)
    {m : M} (hm : m ∉ ps.map Prod.fst) (s : S) :
    ∃ d', Holds (((ks.zremrangebyscore now k max).zadd now k m s).find? now k)
      ((if now ≤ d then ps else []).filter (fun p => max < p.2) ++ [(m, s)]) d' := by
  have hfound := h.find? now
  have hpruned := hfound.zremrangebyscore max
  set kept := (if now ≤ d then ps else []).filter fun p => max < p.2 with hkept
  have hnew : m ∉ kept.map Prod.fst := by
    intro hmem
    have hsub : kept.Sublist ps := by
      rw [hkept]
      split
      · exact List.filter_sublist
      · exact List.nil_sublist ps
    exact hm ((hsub.map Prod.fst).mem hmem)
  -- an expired key is empty by now, and `zadd` makes it anew
  have hnil : ¬ now ≤ d → kept = [] := by
    intro hd
    rw [hkept, if_neg hd, List.filter_nil]
  have hvisible : Holds ((ks.zremrangebyscore now k max).find? now k) kept (some d) := by
    by_cases hd : now ≤ d
    · apply hpruned.visible
      intro t ht
      cases ht
      exact hd
    · have hempty := hpruned.find? now
      rw [if_neg hd] at hempty
      rwa [hnil hd]
  obtain ⟨d', hadded, hnone, hsome⟩ := hvisible.zadd hnew s
  refine ⟨d', hadded.visible now ?_⟩
  intro t ht
  by_cases hk : kept = []
  · cases (hnone hk).symm.trans ht
  · cases (hsome hk).symm.trans ht
    by_contra hd
    exact hk (hnil hd)

end Commands

end Keyspace

end FraudDetection.Store
