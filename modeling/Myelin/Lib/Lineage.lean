/-
  Steps that were each checked in a state of their own.

  A step sees and changes the keys it TOUCHES only (`Local`).  It was checked where its parent left
  off, or in the base state if it has none (`Checked`), so what it was checked on is the OVERLAY of its
  lineage on the base state (`Checked.read_pre`).  If two steps touch the same key only when one of them
  descends from the other, then in every order that puts parents first each step finds, at the keys it
  touches, what it was checked on: a step before it that touches one of them is an ancestor, and all
  its ancestors stand before it (`Local.runAll_checked`).
-/
import Myelin.Lib.Confluence

namespace Myelin.Lib

variable {ι σ κ ν ρ : Type}

/-! ## Overlays -/

section Overlay

variable (touch : ι → κ → Prop) [∀ i k, Decidable (touch i k)] (write : ι → κ → ν)

/-- What some steps leave at a key: the last one that touches it decides. -/
def overlay (done : List ι) (base : ν) (k : κ) : ν :=
  done.foldl (fun value i => if touch i k then write i k else value) base

variable {touch write} {done chain : List ι} {k : κ}

lemma overlay_snoc (done : List ι) (i : ι) (base : ν) (k : κ) :
    overlay touch write (done ++ [i]) base k =
      if touch i k then write i k else overlay touch write done base k := by
  simp [overlay, List.foldl_append]

lemma overlay_untouched (h : ∀ i ∈ done, ¬touch i k) (base : ν) :
    overlay touch write done base k = base := by
  induction done with
  | nil => rfl
  | cons i done ih =>
    obtain ⟨hi, hdone⟩ := List.forall_mem_cons.mp h
    simpa [overlay, hi] using ih hdone

/-- Steps that do not touch the key may be left out. -/
lemma overlay_sublist (hsub : chain.Sublist done) (hnodup : done.Nodup)
    (h : ∀ i ∈ done, touch i k → i ∈ chain) (base : ν) :
    overlay touch write done base k = overlay touch write chain base k := by
  induction hsub generalizing base with
  | slnil => rfl
  | cons i hsub ih =>
    obtain ⟨hi, hnodup⟩ := List.nodup_cons.mp hnodup
    obtain ⟨hskip, hrest⟩ := List.forall_mem_cons.mp h
    have huntouched : ¬touch i k := fun htouch => hi (hsub.subset (hskip htouch))
    simpa [overlay, huntouched] using ih hnodup hrest base
  | cons_cons i hsub ih =>
    obtain ⟨hi, hnodup⟩ := List.nodup_cons.mp hnodup
    have hrest := (List.forall_mem_cons.mp h).2
    refine ih hnodup (fun j hj htouch => ?_) _
    exact (List.mem_cons.mp (hrest j hj htouch)).resolve_left fun heq => hi (heq ▸ hj)

end Overlay

/-! ## Lineages -/

/-- The ancestors of a step, oldest first. -/
inductive Lineage (parent : ι → Option ι) : ι → List ι → Prop where
  | root {i : ι} : parent i = none → Lineage parent i []
  | child {i p : ι} {chain : List ι} : parent i = some p → Lineage parent p chain →
      Lineage parent i (chain ++ [p])

/-- One step descends from another. -/
def Ancestor (parent : ι → Option ι) (old young : ι) : Prop :=
  ∃ chain, Lineage parent young chain ∧ old ∈ chain

/-- Parents stand before their children. -/
def ParentsFirst (parent : ι → Option ι) (order : List ι) : Prop :=
  ∀ before i after, order = before ++ i :: after → ∀ p, parent i = some p → p ∈ before

section Lineages

variable {parent : ι → Option ι} {order : List ι}

lemma Lineage.unique (h : Lineage parent i chain) (k : Lineage parent i other) : chain = other := by
  induction h generalizing other with
  | root hnone =>
    cases k with
    | root => rfl
    | child hsome => rw [hnone] at hsome; cases hsome
  | child hsome _ ih =>
    cases k with
    | root hnone => rw [hnone] at hsome; cases hsome
    | child hother k =>
      obtain rfl := Option.some.inj (hsome.symm.trans hother)
      rw [ih k]

/-- All ancestors stand before a step, in order. -/
lemma ParentsFirst.lineage (h : ParentsFirst parent order) (horder : order = before ++ i :: after) :
    ∃ chain, Lineage parent i chain ∧ chain.Sublist before := by
  -- on the length of what stands before, as the parent is somewhere in it
  induction hlength : before.length using Nat.strongRecOn generalizing before i after with
  | _ length ih =>
    cases hparent : parent i with
    | none => exact ⟨[], .root hparent, List.nil_sublist _⟩
    | some p =>
      obtain ⟨first, rest, rfl⟩ := List.append_of_mem (h before i after horder p hparent)
      have hshorter : first.length < length := by
        rw [← hlength, List.length_append, List.length_cons]
        omega
      obtain ⟨chain, hchain, hsub⟩ := ih first.length hshorter
        (by rw [horder, List.append_assoc, List.cons_append]) rfl
      refine ⟨chain ++ [p], .child hparent hchain, hsub.append ?_⟩
      exact List.singleton_sublist.mpr List.mem_cons_self

/-- A descendant stands after its ancestors. -/
lemma ParentsFirst.ancestor_before (h : ParentsFirst parent order)
    (horder : order = before ++ i :: after) (hold : Ancestor parent old i) : old ∈ before := by
  obtain ⟨chain, hchain, hmem⟩ := hold
  obtain ⟨other, hother, hsub⟩ := h.lineage horder
  exact hsub.subset (hchain.unique hother ▸ hmem)

end Lineages

/-! ## Runs -/

section Runs

variable {step : ι → σ → Option ρ × σ} {read : σ → κ → ν} {touch : ι → κ → Prop}
  [∀ i k, Decidable (touch i k)] {write : ι → κ → ν} {parent : ι → Option ι} {base : σ} {pre : ι → σ}
  {result : ι → ρ} {order : List ι}

/-- A step sees what it touches, and a step that succeeds overwrites it and nothing else. -/
structure Local (step : ι → σ → Option ρ × σ) (read : σ → κ → ν) (touch : ι → κ → Prop)
    [∀ i k, Decidable (touch i k)] (write : ι → κ → ν) : Prop where
  result : ∀ i s t, (∀ k, touch i k → read s k = read t k) → (step i s).1 = (step i t).1
  next : ∀ i s k, (step i s).1 ≠ none →
    read (step i s).2 k = if touch i k then write i k else read s k

/-- A step succeeded where its parent left off. -/
structure Checked (step : ι → σ → Option ρ × σ) (read : σ → κ → ν) (parent : ι → Option ι) (base : σ)
    (pre : ι → σ) (result : ι → ρ) (i : ι) : Prop where
  root : parent i = none → read (pre i) = read base
  child : ∀ p, parent i = some p → read (pre i) = read (step p (pre p)).2
  success : (step i (pre i)).1 = some (result i)

section

variable (hlocal : Local step read touch write)
  (hchecked : ∀ i ∈ order, Checked step read parent base pre result i)
include hlocal hchecked

/-- A step was checked on what its ancestors leave. -/
lemma Checked.read_pre (hclosed : ∀ i ∈ order, ∀ p, parent i = some p → p ∈ order)
    (hchain : Lineage parent i chain) (hi : i ∈ order) (k : κ) :
    read (pre i) k = overlay touch write chain (read base k) k := by
  induction hchain with
  | root hnone => rw [(hchecked _ hi).root hnone]; rfl
  | @child i p chain hsome _ ih =>
    have hp : p ∈ order := hclosed i hi p hsome
    have hsuccess : (step p (pre p)).1 ≠ none := by
      rw [(hchecked p hp).success]
      exact Option.some_ne_none _
    rw [(hchecked i hi).child p hsome, hlocal.next p _ k hsuccess, overlay_snoc, ih hp]

/-- **Every order that puts parents first succeeds** with the results of the checks. -/
theorem Local.runAll_checked (hnodup : order.Nodup) (hfirst : ParentsFirst parent order)
    (hrelated : ∀ i ∈ order, ∀ j ∈ order, i ≠ j → ∀ k, touch i k → touch j k → Ancestor parent i j
      ∨ Ancestor parent j i) :
    (runAll step order base).1 = order.map fun i => (i, some (result i)) := by
  have hclosed : ∀ i ∈ order, ∀ p, parent i = some p → p ∈ order := by
    intro i hi p hparent
    obtain ⟨before, after, horder⟩ := List.append_of_mem hi
    rw [horder]
    exact List.mem_append_left _ (hfirst before i after horder p hparent)
  -- some steps are done: the state is their overlay
  suffices hrun : ∀ rest before s, order = before ++ rest →
      (∀ k, read s k = overlay touch write before (read base k) k) →
      (runAll step rest s).1 = rest.map fun i => (i, some (result i)) from
    hrun order [] base rfl fun _ => rfl
  intro rest
  induction rest with
  | nil => exact fun _ _ _ _ => rfl
  | cons i rest ih =>
    intro before s horder hstate
    have hi : i ∈ order := by rw [horder]; simp
    obtain ⟨chain, hchain, hsub⟩ := hfirst.lineage horder
    rw [horder] at hnodup
    obtain ⟨hbefore, -, hapart⟩ := List.nodup_append.mp hnodup
    have hsame : ∀ k, touch i k → read s k = read (pre i) k := by
      intro k htouch
      rw [hstate, Checked.read_pre hlocal hchecked hclosed hchain hi]
      refine overlay_sublist hsub hbefore (fun j hj hother => ?_) _
      have hne : j ≠ i := hapart j hj i List.mem_cons_self
      have hjorder : j ∈ order := by rw [horder]; exact List.mem_append_left _ hj
      rcases hrelated j hjorder i hi hne k hother htouch with hold | hyoung
      · obtain ⟨other, hother, hmem⟩ := hold
        exact hchain.unique hother ▸ hmem
      · -- a descendant of the step cannot stand before it
        obtain ⟨first, last, rfl⟩ := List.append_of_mem hj
        have hsplit : order = first ++ j :: (last ++ i :: rest) := by
          rw [horder, List.append_assoc, List.cons_append]
        have hearly := hfirst.ancestor_before hsplit hyoung
        exact absurd rfl (hapart i (List.mem_append_left _ hearly) i List.mem_cons_self)
    have hresult : (step i s).1 = some (result i) :=
      (hlocal.result i s (pre i) hsame).trans (hchecked i hi).success
    have hnext : ∀ k, read (step i s).2 k = overlay touch write (before ++ [i]) (read base k) k := by
      intro k
      rw [hlocal.next i s k (by rw [hresult]; exact Option.some_ne_none _), overlay_snoc, hstate]
    have hrest := ih (before ++ [i]) (step i s).2 (by rw [horder, List.append_assoc]; rfl) hnext
    simp only [runAll, hresult, hrest, List.map_cons]

end

end Runs

end Myelin.Lib
