import Mathlib.Data.Finset.Card
import Mathlib.Data.List.Chain
import Mathlib.Algebra.Group.Defs
import FraudDetection.Store.Keyspace

/-!
# Accumulating keys

A key whose value only grows: a counter, a sum, a set of members. It starts from an empty value when
it is missing, and forgets only by expiring as a whole.

When every write refreshes the expiry of the key, what it holds depends on the gaps between the
writes: `session` is the longest final segment of the writes in which each one finds the key alive.
`Accrued.touch` says what one such write leaves, and `foldl_session_concat` that the accumulation
over the last session changes in the same way.
-/

namespace FraudDetection.Store

/-! ## Sessions -/

section Session

variable {α : Type} (R : α → α → Prop) [DecidableRel R]

/-- The last session of a list: its longest final segment in which `R` holds between neighbours. -/
def session : List α → List α
  | [] => []
  | a :: l => if (a :: l).IsChain R then a :: l else session l

variable {R}

@[simp] theorem session_nil : session R [] = [] := rfl

theorem session_of_isChain {l : List α} (h : l.IsChain R) : session R l = l := by
  cases l with
  | nil => rfl
  | cons a l => rw [session, if_pos h]

theorem session_suffix (l : List α) : session R l <:+ l := by
  induction l with
  | nil => exact List.suffix_refl _
  | cons a l ih =>
      rw [session]
      split
      · exact List.suffix_refl _
      · exact ih.trans (List.suffix_cons a l)

/-- Every final segment that is a chain lies in the last session. -/
theorem suffix_session {s l : List α} (hs : s <:+ l) (hchain : s.IsChain R) :
    s <:+ session R l := by
  induction l with
  | nil => exact hs
  | cons a l ih =>
      rw [session]
      split
      · exact hs
      · rename_i hbroken
        rcases List.suffix_cons_iff.mp hs with rfl | htail
        · exact absurd hchain hbroken
        · exact ih htail

theorem isChain_session (l : List α) : (session R l).IsChain R := by
  induction l with
  | nil => exact List.isChain_nil
  | cons a l ih =>
      rw [session]
      split
      · assumption
      · exact ih

/-- A wider relation makes longer sessions. -/
theorem session_mono {R' : α → α → Prop} [DecidableRel R'] (hsub : ∀ a b, R a b → R' a b)
    (l : List α) : session R l <:+ session R' l :=
  suffix_session (session_suffix l) ((isChain_session l).imp hsub)

/-- A new element extends the last session if it is related to its predecessor, and starts a session
otherwise. -/
theorem session_concat (l : List α) (a : α) :
    session R (l ++ [a]) = if ∀ x ∈ l.getLast?, R x a then session R l ++ [a] else [a] := by
  induction l with
  | nil => simp [session]
  | cons b l ih =>
      rw [List.cons_append, session]
      by_cases hlast : ∀ x ∈ (b :: l).getLast?, R x a
      · rw [if_pos hlast]
        by_cases hchain : (b :: l).IsChain R
        · have hwhole : (b :: (l ++ [a])).IsChain R :=
            hchain.append (List.isChain_singleton a) (by simpa using hlast)
          rw [if_pos hwhole, session_of_isChain hchain, List.cons_append]
        · have hbroken : ¬ (b :: (l ++ [a])).IsChain R := fun h => hchain h.left_of_append
          rw [if_neg hbroken, session, if_neg hchain, ih, if_pos]
          cases l with
          | nil => simp
          | cons c l => simpa using hlast
      · have hbroken : ¬ (b :: (l ++ [a])).IsChain R := by
          intro h
          rw [← List.cons_append, List.isChain_append] at h
          exact hlast (by simpa using h.2.2)
        -- the chain breaks at the end, wherever it starts
        rw [if_neg hlast, if_neg hbroken, ih]
        cases l with
        | nil => simp
        | cons c l => exact if_neg (by simpa using hlast)

/-- An accumulation over the last session goes on from the one before it, or starts again. -/
theorem foldl_session_concat {β : Type} (f : β → α → β) (init : β) (l : List α) (a : α) :
    (session R (l ++ [a])).foldl f init
      = f (if ∀ x ∈ l.getLast?, R x a then (session R l).foldl f init else init) a := by
  rw [session_concat]
  split
  · rw [List.foldl_append]
    rfl
  · rfl

end Session

/-! ## Commands -/

namespace Keyspace

variable {K V T : Type} [LinearOrder T]

/-- `GET k` -/
def get (ks : Keyspace K V T) (now : T) (k : K) : Option V := (ks.find? now k).map (·.value)

theorem get_eq_some {ks : Keyspace K V T} {now : T} {k : K} {v : V} :
    ks.get now k = some v ↔ ∃ d, ks.find? now k = some ⟨v, d⟩ := by
  rw [get, Option.map_eq_some_iff]
  constructor
  · rintro ⟨⟨v, d⟩, hfound, rfl⟩
    exact ⟨d, hfound⟩
  · rintro ⟨d, hfound⟩
    exact ⟨_, hfound, rfl⟩

/-- `PFCOUNT k` on an exact set: the number of its members. -/
def pfcount {M : Type} (ks : Keyspace K (Finset M) T) (now : T) (k : K) : ℕ :=
  ((ks.get now k).getD ∅).card

variable [DecidableEq K]

/-- Change the value under `k`. A missing key is made from `empty`, without a deadline. -/
def accumulate (ks : Keyspace K V T) (now : T) (k : K) (empty : V) (f : V → V) : Keyspace K V T :=
  ks.alter now k fun found =>
    match found with
    | some e => some ⟨f e.value, e.deadline⟩
    | none => some ⟨f empty, none⟩

/-- `PFADD k m` on an exact set. -/
def pfadd {M : Type} [DecidableEq M] (ks : Keyspace K (Finset M) T) (now : T) (k : K) (m : M) :
    Keyspace K (Finset M) T :=
  ks.accumulate now k ∅ (insert m)

theorem ActsOn.accumulate (now : T) (k : K) (empty : V) (f : V → V) :
    ActsOn (fun ks : Keyspace K V T => ks.accumulate now k empty f) k :=
  ActsOn.alter now k _

/-! ## What is stored -/

omit [LinearOrder T] [DecidableEq K] in
/-- What is stored under an accumulating key: `v` with the deadline `d`, where a missing key stands
for `empty`. -/
def Accrued (found : Option (Entry V T)) (empty v : V) (d : Option T) : Prop :=
  found = none ∧ v = empty ∨ found = some ⟨v, d⟩

variable {ks : Keyspace K V T} {now : T} {k : K} {empty v : V} {d : Option T}

omit [DecidableEq K] in
/-- A key past its deadline shows the empty value. -/
theorem Accrued.find? (now : T) (h : Accrued (ks k) empty v d) :
    Accrued (ks.find? now k) empty (if ∀ t ∈ d, now ≤ t then v else empty) d := by
  rcases h with ⟨hnone, rfl⟩ | hsome
  · rw [ite_self]
    exact Or.inl ⟨find?_of_none hnone, rfl⟩
  · by_cases hd : ∀ t ∈ d, now ≤ t
    · rw [if_pos hd]
      exact Or.inr (find?_of_live hsome hd)
    · rw [if_neg hd]
      exact Or.inl ⟨find?_of_expired hsome hd, rfl⟩

omit [DecidableEq K] in
/-- A key that is not past its deadline shows its value. -/
theorem Accrued.visible (h : Accrued (ks k) empty v d) (hd : ∀ t ∈ d, now ≤ t) :
    Accrued (ks.find? now k) empty v d := by
  have hfound := h.find? now
  rwa [if_pos hd] at hfound

omit [DecidableEq K] in
theorem Accrued.get (h : Accrued (ks.find? now k) empty v d) :
    (ks.get now k).getD empty = v := by
  rw [Keyspace.get]
  rcases h with ⟨hnone, rfl⟩ | hsome
  · rw [hnone]
    rfl
  · rw [hsome]
    rfl

omit [DecidableEq K] in
theorem Accrued.pfcount {M : Type} {ks : Keyspace K (Finset M) T} {s : Finset M}
    (h : Accrued (ks.find? now k) ∅ s d) : ks.pfcount now k = s.card := by
  rw [Keyspace.pfcount, h.get]

/-- Accumulating changes the value shown and leaves the key visible. -/
theorem Accrued.accumulate (h : Accrued (ks.find? now k) empty v d) (f : V → V) :
    ∃ d', ks.accumulate now k empty f k = some ⟨f v, d'⟩ ∧ ∀ t ∈ d', now ≤ t := by
  rw [Keyspace.accumulate, alter_self]
  rcases h with ⟨hnone, rfl⟩ | hsome
  · rw [hnone]
    exact ⟨none, rfl, by simp⟩
  · rw [hsome]
    exact ⟨d, rfl, le_of_find? hsome⟩

/-- Setting a deadline in the future keeps the value. -/
theorem Accrued.expireAt (h : Accrued (ks.find? now k) empty v d) {t : T} (ht : now < t) :
    Accrued (ks.expireAt now k t k) empty v (some t) := by
  rw [Keyspace.expireAt, alter_self]
  rcases h with ⟨hnone, rfl⟩ | hsome
  · rw [hnone]
    exact Or.inl ⟨rfl, rfl⟩
  · rw [hsome]
    exact Or.inr (by simp [ht])

/-- A write that refreshes the deadline. -/
theorem Accrued.touch (h : Accrued (ks k) empty v d) (f : V → V) {t : T} (ht : now < t) :
    Accrued ((ks.accumulate now k empty f).expireAt now k t k) empty
      (f (if ∀ t ∈ d, now ≤ t then v else empty)) (some t) := by
  obtain ⟨d', hwritten, hd'⟩ := (h.find? now).accumulate f
  exact Accrued.expireAt (Accrued.visible (Or.inr hwritten) hd') ht

end Keyspace

end FraudDetection.Store
