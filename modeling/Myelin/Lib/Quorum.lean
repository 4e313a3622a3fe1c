/-
  Weighted quorums over a finite membership.

  A `Committee` is a finite set of members with natural weights and a quorum threshold; nothing
  else is assumed about it.  The whole theory is inclusion–exclusion (`power_add_power_le`): two
  sets of members overlap in weight at least `power S + power T - total`.  From it, two quorums
  share a member OUTSIDE any set too light to fill the overlap (`exists_mem_inter_not_mem`) —
  the step every quorum argument takes.
-/
import Mathlib.Algebra.Order.BigOperators.Group.Finset

namespace Myelin.Lib

/-- A finite membership with weights and a quorum threshold. -/
structure Committee (ι : Type) where
  /-- Who may vote. -/
  members : Finset ι
  /-- Voting weight of each member. -/
  weight : ι → ℕ
  /-- Weight needed to carry a vote. -/
  quorum : ℕ

namespace Committee

variable {ι : Type} (W : Committee ι)

/-- The weight of a set of members. -/
def power (S : Finset ι) : ℕ := ∑ i ∈ S, W.weight i

/-- The weight of everybody. -/
def total : ℕ := W.power W.members

/-- A set of members that carries a vote. -/
def IsQuorum (S : Finset ι) : Prop := S ⊆ W.members ∧ W.quorum ≤ W.power S

lemma power_mono (h : S ⊆ T) : W.power S ≤ W.power T :=
  Finset.sum_le_sum_of_subset h

variable [DecidableEq ι]

/-- Inclusion–exclusion: the overlap of two sets of members weighs what the two weigh beyond the
    whole membership. -/
lemma power_add_power_le (hS : S ⊆ W.members) (hT : T ⊆ W.members) :
    W.power S + W.power T ≤ W.total + W.power (S ∩ T) := by
  have hsum : W.power (S ∪ T) + W.power (S ∩ T) = W.power S + W.power T :=
    Finset.sum_union_inter
  have hle : W.power (S ∪ T) ≤ W.total := W.power_mono (Finset.union_subset hS hT)
  omega

/-- A set heavier than `B` has a member outside `B`. -/
lemma exists_mem_not_mem (h : W.power B < W.power S) : ∃ i ∈ S, i ∉ B := by
  by_contra hno
  have hsub : S ⊆ B := fun i hi => by
    by_contra hi'
    exact hno ⟨i, hi, hi'⟩
  have := W.power_mono hsub
  omega

/-- Two quorums share a member outside `B`, as soon as `B` cannot fill their overlap. -/
lemma exists_mem_inter_not_mem (hS : W.IsQuorum S) (hT : W.IsQuorum T)
    (hB : W.total + W.power B < 2 * W.quorum) : ∃ i, i ∈ S ∧ i ∈ T ∧ i ∉ B := by
  have hinter := W.power_add_power_le hS.1 hT.1
  have hheavy : W.power B < W.power (S ∩ T) := by
    have := hS.2
    have := hT.2
    omega
  obtain ⟨i, hi, hiB⟩ := W.exists_mem_not_mem hheavy
  exact ⟨i, Finset.mem_of_mem_inter_left hi, Finset.mem_of_mem_inter_right hi, hiB⟩

end Committee

end Myelin.Lib
