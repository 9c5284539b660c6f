import Mathlib.Logic.Function.Basic
import Mathlib.Order.Lattice

/-!
# A key space with expiring keys

A store of values under keys, each key with an optional deadline. A key is visible up to its
deadline, and at the deadline still; an expired entry is indistinguishable from a missing one. Times
are any linear order.
-/

namespace FraudDetection.Store

/-- A stored value and the time after which its key is expired, if any. -/
structure Entry (V T : Type) where
  value : V
  deadline : Option T

/-- The contents of the store, expired entries included. -/
abbrev Keyspace (K V T : Type) := K → Option (Entry V T)

variable {K V T : Type}

/-- Whether an entry is still visible at time `now`. -/
def Entry.live [LinearOrder T] (e : Entry V T) (now : T) : Bool :=
  match e.deadline with
  | some d => decide (now ≤ d)
  | none => true

/-- An entry that is visible was visible at every earlier time. -/
theorem Entry.live_of_le [LinearOrder T] {e : Entry V T} {s t : T} (hst : s ≤ t)
    (h : e.live t = true) : e.live s = true := by
  unfold Entry.live at h ⊢
  split at h
  · simp only [decide_eq_true_eq] at h ⊢
    exact hst.trans h
  · rfl

namespace Keyspace

/-! ## Writing -/

section Write

variable [DecidableEq K]

/-- Write `k`, replacing its value and its deadline. -/
def set (ks : Keyspace K V T) (k : K) (v : V) (deadline : Option T) : Keyspace K V T :=
  Function.update ks k (some ⟨v, deadline⟩)

@[simp] theorem set_self (ks : Keyspace K V T) (k : K) (v : V) (d : Option T) :
    ks.set k v d k = some ⟨v, d⟩ := by
  simp [set]

theorem set_of_ne (ks : Keyspace K V T) {k k' : K} (h : k' ≠ k) (v : V) (d : Option T) :
    ks.set k v d k' = ks k' := by
  simp [set, h]

/-- `DEL k` -/
def del (ks : Keyspace K V T) (k : K) : Keyspace K V T := Function.update ks k none

@[simp] theorem del_self (ks : Keyspace K V T) (k : K) : ks.del k k = none := by
  simp [del]

end Write

/-! ## Reading at a time -/

section Read

variable [LinearOrder T]

/-- The entry visible under `k` at time `now`. -/
def find? (ks : Keyspace K V T) (now : T) (k : K) : Option (Entry V T) :=
  (ks k).filter (·.live now)

/-- Whether `k` is visible at time `now`. -/
def exist (ks : Keyspace K V T) (now : T) (k : K) : Bool := (ks.find? now k).isSome

/-- A visible key was written before. -/
theorem isSome_of_exist {ks : Keyspace K V T} {now : T} {k : K} (h : ks.exist now k = true) :
    (ks k).isSome := by
  simp only [exist, find?] at h
  cases hk : ks k with
  | none => simp [hk] at h
  | some e => rfl

/-- A key written with deadline `d` is visible up to `d`. -/
theorem exist_of_deadline {ks : Keyspace K V T} {k : K} {v : V} {d : T}
    (h : ks k = some ⟨v, some d⟩) (now : T) : ks.exist now k = decide (now ≤ d) := by
  by_cases hd : now ≤ d <;> simp [exist, find?, h, Entry.live, Option.filter, hd]

/-- A key shows the same at two times between which its entry does not expire. -/
theorem exist_eq_of_live {ks : Keyspace K V T} {k : K} {s t : T} (hst : s ≤ t)
    (h : ∀ e, ks k = some e → e.live s = true → e.live t = true) :
    ks.exist t k = ks.exist s k := by
  unfold exist find?
  cases hk : ks k with
  | none => rfl
  | some e =>
      have hlive : e.live t = e.live s := by
        rw [Bool.eq_iff_iff]
        exact ⟨Entry.live_of_le hst, h e hk⟩
      simp [Option.filter, hlive]

/-- Two stores that agree on `k` show the same under it. -/
theorem exist_congr {ks ks' : Keyspace K V T} {k : K} (h : ks k = ks' k) (now : T) :
    ks.exist now k = ks'.exist now k := by
  simp [exist, find?, h]

theorem find?_congr {ks ks' : Keyspace K V T} {k : K} (h : ks k = ks' k) (now : T) :
    ks.find? now k = ks'.find? now k := by
  rw [find?, find?, h]

theorem find?_of_none {ks : Keyspace K V T} {now : T} {k : K} (h : ks k = none) :
    ks.find? now k = none := by
  rw [find?, h]
  rfl

theorem find?_of_some {ks : Keyspace K V T} {now : T} {k : K} {e : Entry V T}
    (h : ks k = some e) : ks.find? now k = if e.live now then some e else none := by
  rw [find?, h]
  rfl

theorem eq_some_of_find? {ks : Keyspace K V T} {now : T} {k : K} {e : Entry V T}
    (h : ks.find? now k = some e) : ks k = some e := (Option.filter_eq_some_iff.mp h).1

/-- An entry that is not past its deadline is found. -/
theorem find?_of_live {ks : Keyspace K V T} {now : T} {k : K} {v : V} {d : Option T}
    (h : ks k = some ⟨v, d⟩) (hd : ∀ t ∈ d, now ≤ t) : ks.find? now k = some ⟨v, d⟩ := by
  rw [find?_of_some h, if_pos]
  cases d with
  | none => rfl
  | some t => simpa [Entry.live] using hd t rfl

/-- An entry that is past its deadline is not found. -/
theorem find?_of_expired {ks : Keyspace K V T} {now : T} {k : K} {v : V} {d : Option T}
    (h : ks k = some ⟨v, d⟩) (hd : ¬ ∀ t ∈ d, now ≤ t) : ks.find? now k = none := by
  rw [find?_of_some h, if_neg]
  intro hlive
  apply hd
  intro t ht
  rw [Entry.live, ht] at hlive
  simpa using hlive

/-- What is found is not past its deadline. -/
theorem le_of_find? {ks : Keyspace K V T} {now : T} {k : K} {e : Entry V T}
    (h : ks.find? now k = some e) : ∀ t ∈ e.deadline, now ≤ t := by
  intro t ht
  rw [find?, Option.filter_eq_some_iff] at h
  have hlive := h.2
  rw [Entry.live, ht] at hlive
  simpa using hlive

end Read

/-! ## Commands on the visible entry -/

section Alter

variable [LinearOrder T] [DecidableEq K]

/-- Access `k` at time `now`: an expired entry is dropped first, then `f` replaces what is left. -/
def alter (ks : Keyspace K V T) (now : T) (k : K)
    (f : Option (Entry V T) → Option (Entry V T)) : Keyspace K V T :=
  Function.update ks k (f (ks.find? now k))

@[simp] theorem alter_self (ks : Keyspace K V T) (now : T) (k : K)
    (f : Option (Entry V T) → Option (Entry V T)) : ks.alter now k f k = f (ks.find? now k) := by
  simp [alter]

/-- Set the deadline of a visible key; a deadline that has been reached deletes it. -/
def expireAt (ks : Keyspace K V T) (now : T) (k : K) (d : T) : Keyspace K V T :=
  ks.alter now k fun found => found.bind fun e => if now < d then some ⟨e.value, some d⟩ else none

/-- A deadline for a key just written. -/
theorem expireAt_set (ks : Keyspace K V T) (now : T) (k : K) (v : V) (d : T) :
    (ks.set k v none).expireAt now k d k = if now < d then some ⟨v, some d⟩ else none := by
  rw [expireAt, alter_self, find?_of_some (set_self ..)]
  rfl

/-- A visible key stays visible with a new deadline in the future. -/
theorem find?_expireAt {ks : Keyspace K V T} {now : T} {k : K} {v : V} {o : Option T}
    (h : ks.find? now k = some ⟨v, o⟩) {d : T} (hd : now < d) :
    (ks.expireAt now k d).find? now k = some ⟨v, some d⟩ := by
  refine find?_of_live ?_ ?_
  · rw [expireAt, alter_self, h]
    simp [hd]
  · intro t ht
    cases ht
    exact hd.le

end Alter

/-! ## Commands that act on one key -/

section ActsOn

/-- `f` changes no key but `k`, and what it leaves there depends only on what was there. -/
structure ActsOn (f : Keyspace K V T → Keyspace K V T) (k : K) : Prop where
  frame : ∀ ks k', k' ≠ k → f ks k' = ks k'
  congr : ∀ ks ks', ks k = ks' k → f ks k = f ks' k

theorem ActsOn.alter [LinearOrder T] [DecidableEq K] (now : T) (k : K)
    (f : Option (Entry V T) → Option (Entry V T)) :
    ActsOn (fun ks => ks.alter now k f) k where
  frame := by
    intro ks k' hne
    simp [Keyspace.alter, hne]
  congr := by
    intro ks ks' heq
    simp [find?, heq]

theorem ActsOn.expireAt [LinearOrder T] [DecidableEq K] (now : T) (k : K) (d : T) :
    ActsOn (fun ks : Keyspace K V T => ks.expireAt now k d) k := ActsOn.alter now k _

theorem ActsOn.comp {f g : Keyspace K V T → Keyspace K V T} {k : K} (hg : ActsOn g k)
    (hf : ActsOn f k) : ActsOn (fun ks => g (f ks)) k where
  frame := by
    intro ks k' hne
    rw [hg.frame _ _ hne, hf.frame _ _ hne]
  congr := by
    intro ks ks' heq
    exact hg.congr _ _ (hf.congr _ _ heq)

variable {ι : Type} {f : ι → Keyspace K V T → Keyspace K V T} {key : ι → K}

/-- A series of commands changes only the keys they act on. -/
theorem foldl_actsOn_frame (hf : ∀ i, ActsOn (f i) (key i)) (is : List ι) (ks : Keyspace K V T)
    {k : K} (hk : ∀ i ∈ is, k ≠ key i) : is.foldl (fun ks i => f i ks) ks k = ks k := by
  induction is generalizing ks with
  | nil => rfl
  | cons i is ih =>
      rw [List.foldl_cons, ih _ fun j hj => hk j (List.mem_cons_of_mem i hj)]
      exact (hf i).frame ks k (hk i List.mem_cons_self)

/-- In a series of commands on different keys, each key gets what its own command leaves. -/
theorem foldl_actsOn (hf : ∀ i, ActsOn (f i) (key i)) {is : List ι}
    (hkeys : (is.map key).Nodup) {i : ι} (hi : i ∈ is) (ks : Keyspace K V T) :
    is.foldl (fun ks i => f i ks) ks (key i) = f i ks (key i) := by
  induction is generalizing ks with
  | nil => cases hi
  | cons j is ih =>
      rw [List.map_cons, List.nodup_cons] at hkeys
      rw [List.foldl_cons]
      rcases List.mem_cons.mp hi with rfl | htail
      · apply foldl_actsOn_frame hf
        intro l hl heq
        exact hkeys.1 (heq ▸ List.mem_map_of_mem hl)
      · have hne : key i ≠ key j := fun heq => hkeys.1 (heq ▸ List.mem_map_of_mem htail)
        rw [ih hkeys.2 htail]
        exact (hf i).congr _ _ ((hf j).frame ks _ hne)

end ActsOn

end Keyspace

end FraudDetection.Store
