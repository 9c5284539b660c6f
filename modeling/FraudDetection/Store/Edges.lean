import Mathlib.Data.List.Dedup
import Mathlib.Data.List.Perm.Subperm

/-!
# The relationships of a graph store

Two nodes are connected by a relationship of a type at most once: `merge` adds it where it is
missing. `sources` answers the pattern that asks for the nodes with a relationship to a given one,
with one record for each relationship.
-/

namespace FraudDetection.Store

/-- The relationships of one type, each once. -/
structure Edges (A B : Type) where
  toList : List (A × B)
  nodup : toList.Nodup

namespace Edges

variable {A B C : Type}

instance : Membership (A × B) (Edges A B) := ⟨fun edges pair => pair ∈ edges.toList⟩

/-- No relationships. -/
def empty : Edges A B := ⟨[], List.nodup_nil⟩

theorem not_mem_empty (pair : A × B) : pair ∉ (empty : Edges A B) := List.not_mem_nil

section Merge

variable [DecidableEq A] [DecidableEq B]

/-- `MERGE (a)-[]->(b)` -/
def merge (edges : Edges A B) (a : A) (b : B) : Edges A B :=
  ⟨edges.toList.insert (a, b), edges.nodup.insert⟩

theorem mem_merge {edges : Edges A B} {a : A} {b : B} {pair : A × B} :
    pair ∈ edges.merge a b ↔ pair = (a, b) ∨ pair ∈ edges :=
  List.mem_insert_iff

end Merge

/-! ## The nodes before a given one -/

section Sources

variable [DecidableEq B]

/-- `MATCH (x)-[]->(b) RETURN x` -/
def sources (edges : Edges A B) (b : B) : List A :=
  (edges.toList.filter fun pair => pair.2 = b).map Prod.fst

theorem mem_sources {edges : Edges A B} {a : A} {b : B} :
    a ∈ edges.sources b ↔ (a, b) ∈ edges := by
  unfold sources
  rw [List.mem_map]
  constructor
  · rintro ⟨⟨x, y⟩, hpair, rfl⟩
    obtain ⟨hmem, hy⟩ := List.mem_filter.mp hpair
    obtain rfl : y = b := by simpa using hy
    exact hmem
  · intro h
    exact ⟨(a, b), List.mem_filter.mpr ⟨h, by simp⟩, rfl⟩

theorem nodup_sources (edges : Edges A B) (b : B) : (edges.sources b).Nodup := by
  refine List.Nodup.map_on ?_ (edges.nodup.filter _)
  intro x hx y hy hfst
  have hxb : x.2 = b := by simpa using (List.mem_filter.mp hx).2
  have hyb : y.2 = b := by simpa using (List.mem_filter.mp hy).2
  exact Prod.ext hfst (hxb.trans hyb.symm)

/-- More relationships, more nodes. -/
theorem length_sources_le {edges edges' : Edges A B} {b : B}
    (h : ∀ a, (a, b) ∈ edges → (a, b) ∈ edges') :
    (edges.sources b).length ≤ (edges'.sources b).length := by
  refine ((edges.nodup_sources b).subperm ?_).length_le
  intro a ha
  exact mem_sources.mpr (h a (mem_sources.mp ha))

/-- A node is the only one before `b` exactly if there is a single record. -/
theorem one_lt_length_sources {edges : Edges A B} {a : A} {b : B} (h : (a, b) ∈ edges) :
    1 < (edges.sources b).length ↔ ∃ a', a' ≠ a ∧ (a', b) ∈ edges := by
  have hmem : a ∈ edges.sources b := mem_sources.mpr h
  constructor
  · intro hlong
    by_contra hnone
    have hsingle : edges.sources b ⊆ [a] := by
      intro x hx
      have hxa : x = a := by
        by_contra hne
        exact hnone ⟨x, hne, mem_sources.mp hx⟩
      exact List.mem_singleton.mpr hxa
    have hle := ((edges.nodup_sources b).subperm hsingle).length_le
    rw [List.length_singleton] at hle
    omega
  · rintro ⟨a', hne, ha'⟩
    have hpair : [a', a].Nodup := by simpa using hne
    have hsub : [a', a] ⊆ edges.sources b := by
      intro x hx
      rcases List.mem_cons.mp hx with rfl | hx
      · exact mem_sources.mpr ha'
      · rw [List.mem_singleton.mp hx]
        exact hmem
    exact (hpair.subperm hsub).length_le

end Sources

/-! ## Two nodes with a common neighbourhood -/

/-- `(a)-[]->(x)-[]->(c)<-[]-(y)<-[]-(a')`, where the two nodes in the middle differ. -/
def Linked (edges : A → B → Prop) (edges' : B → C → Prop) (a a' : A) : Prop :=
  ∃ x y c, x ≠ y ∧ edges a x ∧ edges' x c ∧ edges' y c ∧ edges a' y

section Linked

variable {edges₁ edges₂ : A → B → Prop} {edges₁' edges₂' : B → C → Prop} {a a' : A}

/-- The path can be walked from its other end. -/
theorem Linked.symm (h : Linked edges₁ edges₁' a a') : Linked edges₁ edges₁' a' a := by
  obtain ⟨x, y, c, hne, hax, hxc, hyc, hay⟩ := h
  exact ⟨y, x, c, hne.symm, hay, hyc, hxc, hax⟩

theorem Linked.mono (h : Linked edges₁ edges₁' a a') (hedges : ∀ a b, edges₁ a b → edges₂ a b)
    (hedges' : ∀ b c, edges₁' b c → edges₂' b c) : Linked edges₂ edges₂' a a' := by
  obtain ⟨x, y, c, hne, hax, hxc, hyc, hay⟩ := h
  exact ⟨x, y, c, hne, hedges _ _ hax, hedges' _ _ hxc, hedges' _ _ hyc, hedges _ _ hay⟩

end Linked

end Edges

end FraudDetection.Store
