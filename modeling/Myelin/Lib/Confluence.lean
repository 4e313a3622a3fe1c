/-
  Orders of execution that do not matter.

  A batch is run one node after the other; a node leaves a result and a new state.  States are
  compared by an equivalence that the steps respect.  If nodes that no edge joins commute, then any
  two orders that respect the edges give the same result for every node and equivalent states
  (`runAll_confluent`).

  The proof brings the first node of one order to the FRONT of the other: whatever stands before it
  there is joined to it by no edge, in neither direction.
-/
import Mathlib.Data.List.Nodup
import Mathlib.Data.List.Perm.Basic

namespace Myelin.Lib

variable {ι σ ρ : Type} (step : ι → σ → ρ × σ)

/-- Run nodes in order and keep each one's result. -/
def runAll : List ι → σ → List (ι × ρ) × σ
  | [], s => ([], s)
  | i :: rest, s =>
      let (result, next) := step i s
      let (results, final) := runAll rest next
      ((i, result) :: results, final)

/-- An equivalence of states under which steps cannot tell them apart. -/
structure Respected (R : σ → σ → Prop) : Prop where
  equivalence : Equivalence R
  result : ∀ i {s t}, R s t → (step i s).1 = (step i t).1
  next : ∀ i {s t}, R s t → R (step i s).2 (step i t).2

/-- Neither node sees whether the other has run, and the order leaves no trace. -/
structure Commutes (R : σ → σ → Prop) (i j : ι) : Prop where
  left : ∀ s, (step i (step j s).2).1 = (step i s).1
  right : ∀ s, (step j (step i s).2).1 = (step j s).1
  state : ∀ s, R (step j (step i s).2).2 (step i (step j s).2).2

/-- Same results, whatever their order, and equivalent states. -/
structure Agree (R : σ → σ → Prop) (a b : List (ι × ρ) × σ) : Prop where
  results : a.1.Perm b.1
  state : R a.2 b.2

variable {step} {R : σ → σ → Prop}

lemma Agree.trans (hR : Respected step R) (hab : Agree R a b) (hbc : Agree R b c) : Agree R a c :=
  ⟨hab.results.trans hbc.results, hR.equivalence.trans hab.state hbc.state⟩

/-- Equivalent states run alike. -/
lemma runAll_congr (hR : Respected step R) (h : R s t) :
    Agree R (runAll step order s) (runAll step order t) := by
  induction order generalizing s t with
  | nil => exact ⟨.refl _, h⟩
  | cons i rest ih =>
    have hrest := ih (hR.next i h)
    refine ⟨?_, hrest.state⟩
    simp only [runAll, hR.result i h]
    exact hrest.results.cons _

/-- One node in front of two runs that agree. -/
lemma Agree.cons (h : Agree R (runAll step first (step i s).2) (runAll step second (step i s).2)) :
    Agree R (runAll step (i :: first) s) (runAll step (i :: second) s) :=
  ⟨h.results.cons _, h.state⟩

/-- A node may move to the front of nodes it commutes with. -/
lemma runAll_front (hR : Respected step R) (h : ∀ j ∈ before, Commutes step R i j) (s : σ) :
    Agree R (runAll step (before ++ i :: after) s) (runAll step (i :: (before ++ after)) s) := by
  induction before generalizing s with
  | nil => exact ⟨.refl _, hR.equivalence.refl _⟩
  | cons j rest ih =>
    obtain ⟨hj, hrest⟩ := List.forall_mem_cons.mp h
    refine ((ih hrest (step j s).2).cons).trans hR ?_
    -- `j` and then `i`, or `i` and then `j`: the rest runs on equivalent states
    have hsame : Agree R (runAll step (rest ++ after) (step i (step j s).2).2)
        (runAll step (rest ++ after) (step j (step i s).2).2) :=
      runAll_congr hR (hR.equivalence.symm (hj.state s))
    refine ⟨?_, hsame.state⟩
    simp only [List.cons_append, runAll, hj.left s, hj.right s]
    exact (List.Perm.swap _ _ _).trans ((hsame.results.cons _).cons _)

/-- **Confluence**: orders of the same nodes that respect the edges agree. -/
theorem runAll_confluent (hR : Respected step R) {edge : ι → ι → Prop} {first second : List ι}
    (hcommutes : ∀ i ∈ first, ∀ j ∈ first, i ≠ j → ¬edge i j → ¬edge j i → Commutes step R i j)
    (hnodup : first.Nodup) (hperm : first.Perm second)
    (hfirst : first.Pairwise fun i j => ¬edge j i) (hsecond : second.Pairwise fun i j => ¬edge j i)
    (s : σ) : Agree R (runAll step first s) (runAll step second s) := by
  induction first generalizing second s with
  | nil =>
    obtain rfl := hperm.nil_eq
    exact ⟨.refl _, hR.equivalence.refl _⟩
  | cons i rest ih =>
    obtain ⟨before, after, rfl⟩ := List.append_of_mem (hperm.mem_iff.mp List.mem_cons_self)
    obtain ⟨hi, hrest⟩ := List.pairwise_cons.mp hfirst
    obtain ⟨hnew, hnodup⟩ := List.nodup_cons.mp hnodup
    have hmoved : (i :: rest).Perm (i :: (before ++ after)) := hperm.trans List.perm_middle
    have hothers : rest.Perm (before ++ after) := hmoved.cons_inv
    have hfront : ∀ j ∈ before, Commutes step R i j := by
      intro j hj
      have hmem : j ∈ rest := hothers.mem_iff.mpr (List.mem_append_left _ hj)
      refine hcommutes i List.mem_cons_self j (List.mem_cons_of_mem _ hmem)
        (fun heq => hnew (heq ▸ hmem)) ?_ (hi j hmem)
      exact (List.pairwise_append.mp hsecond).2.2 j hj i List.mem_cons_self
    have hkept : (before ++ after).Pairwise fun i j => ¬edge j i :=
      hsecond.sublist ((List.sublist_cons_self i after).append_left before)
    have hagree := ih (fun a ha b hb => hcommutes a (List.mem_cons_of_mem _ ha) b
      (List.mem_cons_of_mem _ hb)) hnodup hothers hrest hkept (step i s).2
    have hback : Agree R (runAll step (before ++ i :: after) s)
        (runAll step (i :: (before ++ after)) s) := runAll_front hR hfront s
    exact hagree.cons.trans hR ⟨hback.results.symm, hR.equivalence.symm hback.state⟩

end Myelin.Lib
