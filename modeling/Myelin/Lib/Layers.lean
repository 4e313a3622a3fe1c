/-
  Topological layers by counting predecessors (Kahn's algorithm, layer by layer).

  Nodes are the numbers below `count`.  A pass emits the nodes whose counter is zero and takes one off
  the counter of every successor, occurrence by occurrence.  What makes it work is a balance: the
  counter of a node plus the edges into it from emitted nodes is the number of edges into it
  (`Underway.balance`).  So a node is emitted when ALL its predecessors have been, in earlier layers.

    - `exists_layers`: the loop ends, whatever the counters say;
    - `layers_spec`: it succeeds unless there is a cycle; then every node is in one layer, behind all
      its predecessors and right behind one of them;
    - `Layered.not_same_layer`: so no two nodes of a layer are joined by a path;
    - `Tight.isGreatest`: and a layer's number is the length of the longest path to its nodes.
-/
import Mathlib.Algebra.GroupWithZero.Nat
import Mathlib.Algebra.Order.BigOperators.Group.List
import Mathlib.Data.List.Flatten
import Mathlib.Data.Fintype.EquivFin
import Mathlib.Data.List.Chain
import Mathlib.Order.WellFounded
import Myelin.Lib.Loop

namespace Myelin.Lib.Layers

variable {degrees layer : List Nat}

/-- Why there are no layers. -/
inductive LayerError where
  | outOfBounds (node : Nat)
  | tooEarly (node : Nat)
  | cycle
  deriving DecidableEq

/-- Between two passes. -/
structure Progress where
  /-- Edges into a node that are still to be taken off. -/
  degrees : List Nat
  current : List Nat
  layers : List (List Nat)
  processed : Nat

/-- Take one off the counter of a node; at zero, it is due in the next layer. -/
def release (state : List Nat × List Nat) (successor : Nat) :
    Except LayerError (List Nat × List Nat) :=
  match state.1[successor]? with
  | none => .error (.outOfBounds successor)
  | some 0 => .error (.tooEarly successor)
  | some (degree + 1) =>
      .ok (state.1.set successor degree, if degree = 0 then state.2 ++ [successor] else state.2)

/-- One pass. -/
def layerBody (count : Nat) (successors : Nat → List Nat) (p : Progress) :
    Except LayerError (Progress ⊕ List (List Nat)) :=
  if p.current = [] then
    if p.processed = count then .ok (.inr p.layers) else .error .cycle
  else do
    let layer := p.current.insertionSort (· ≤ ·)
    let (degrees, next) ← (layer.flatMap successors).foldlM release (p.degrees, [])
    pure (.inl ⟨degrees, next, p.layers ++ [layer], p.processed + layer.length⟩)

/-- Before the first pass. -/
def Progress.start (degrees : List Nat) : Progress where
  degrees := degrees
  current := (List.range degrees.length).filter fun node => degrees.getD node 0 = 0
  layers := []
  processed := 0

/-! ## One pass -/

lemma release_eq_ok (h : release state successor = .ok next) :
    ∃ degree, state.1[successor]? = some (degree + 1) ∧ next.1 = state.1.set successor degree ∧
      next.2 = state.2 ++ if degree = 0 then [successor] else [] := by
  unfold release at h
  split at h
  · cases h
  · cases h
  · next degree hdegree =>
      cases h
      refine ⟨degree, hdegree, rfl, ?_⟩
      split_ifs with hzero
      · rfl
      · rw [List.append_nil]

lemma getD_set (hs : s < degrees.length) (v : Nat) :
    (degrees.set s degree).getD v 0 = if v = s then degree else degrees.getD v 0 := by
  by_cases hv : v = s
  · rw [if_pos hv, hv, List.getD_eq_getElem?_getD, List.getElem?_set_self hs, Option.getD_some]
  · rw [if_neg hv, List.getD_eq_getElem?_getD, List.getElem?_set_ne (Ne.symm hv),
      List.getD_eq_getElem?_getD]

lemma sum_of_set (h : degrees[s]? = some (degree + 1)) :
    (degrees.set s degree).sum + 1 = degrees.sum := by
  obtain ⟨hs, hat⟩ := List.getElem?_eq_some_iff.mp h
  have hself : degrees.set s (degree + 1) = degrees := by rw [← hat, List.set_getElem_self]
  have hsum := congrArg List.sum hself
  rw [List.sum_set, if_pos hs] at hsum
  rw [List.sum_set, if_pos hs]
  omega

/-- The counters after a pass, and the nodes that are due. -/
structure Released (successors degrees degrees' due : List Nat) : Prop where
  length : degrees'.length = degrees.length
  count : ∀ v, degrees'.getD v 0 + successors.count v = degrees.getD v 0
  sum : degrees'.sum + successors.length = degrees.sum
  nodup : due.Nodup
  short : due.length ≤ successors.length
  mem : ∀ v, v ∈ due ↔ 0 < degrees.getD v 0 ∧ degrees'.getD v 0 = 0

lemma Released.none (degrees : List Nat) : Released [] degrees degrees [] where
  length := rfl
  count _ := rfl
  sum := rfl
  nodup := List.nodup_nil
  short := Nat.le_refl _
  mem v := by simp only [List.not_mem_nil, false_iff]; omega

lemma Released.cons (hs : degrees[s]? = some (degree + 1))
    (h : Released rest (degrees.set s degree) degrees' due) :
    Released (s :: rest) degrees degrees' ((if degree = 0 then [s] else []) ++ due) := by
  have hset : ∀ v, (degrees.set s degree).getD v 0 = if v = s then degree else degrees.getD v 0 :=
    getD_set (List.getElem?_eq_some_iff.mp hs).1
  have hat : degrees.getD s 0 = degree + 1 := by rw [List.getD_eq_getElem?_getD, hs]; rfl
  have hcount : ∀ v, degrees'.getD v 0 + (s :: rest).count v = degrees.getD v 0 := by
    intro v
    have hrest := h.count v
    rw [hset] at hrest
    rcases eq_or_ne v s with rfl | hv
    · rw [if_pos rfl] at hrest
      rw [List.count_cons_self, hat]
      omega
    · rw [if_neg hv] at hrest
      rw [List.count_cons_of_ne (Ne.symm hv), hrest]
  refine ⟨h.length.trans (List.length_set ..), hcount, ?_, ?_, ?_, fun v => ?_⟩
  · have hsum := h.sum
    have hone := sum_of_set hs
    rw [List.length_cons]
    omega
  · split_ifs with hzero
    · -- the node just emitted has counter zero already, so the rest of the pass does not emit it
      refine List.nodup_cons.mpr ⟨fun hmem => ?_, h.nodup⟩
      have hpos := ((h.mem s).mp hmem).1
      rw [hset, if_pos rfl] at hpos
      omega
    · exact h.nodup
  · have hshort := h.short
    rw [List.length_append, List.length_cons]
    split_ifs
    · rw [List.length_singleton]; omega
    · rw [List.length_nil]; omega
  · rw [List.mem_append, h.mem v, hset]
    rcases eq_or_ne v s with rfl | hv
    · have hrest := h.count v
      rw [hset, if_pos rfl] at hrest
      rw [if_pos rfl, hat]
      split_ifs with hzero
      · simp only [List.mem_singleton, true_or, true_iff]
        omega
      · simp only [List.not_mem_nil, false_or]
        omega
    · rw [if_neg hv]
      split_ifs
      · simp only [List.mem_singleton, hv, false_or]
      · simp only [List.not_mem_nil, false_or]

lemma foldlM_release (h : successors.foldlM release (degrees, next) = .ok (degrees', next')) :
    ∃ due, next' = next ++ due ∧ Released successors degrees degrees' due := by
  induction successors generalizing degrees next with
  | nil =>
    obtain ⟨rfl, rfl⟩ := Prod.mk.inj (pure_eq_ok.mp h)
    exact ⟨[], (List.append_nil _).symm, Released.none _⟩
  | cons s rest ih =>
    rw [List.foldlM_cons, bind_eq_ok] at h
    obtain ⟨⟨middle, between⟩, hrelease, hrest⟩ := h
    obtain ⟨degree, hs, hmiddle, hbetween⟩ := release_eq_ok hrelease
    obtain ⟨due, hnext, hdue⟩ := ih hrest
    rw [show middle = degrees.set s degree from hmiddle] at hdue
    refine ⟨_, ?_, hdue.cons hs⟩
    rw [hnext, show between = next ++ _ from hbetween, List.append_assoc]

/-- Counters that are high enough never run out. -/
lemma exists_foldlM_release {successors : List Nat}
    (h : ∀ v, successors.count v ≤ degrees.getD v 0) :
    ∃ result, successors.foldlM release (degrees, next) = .ok result := by
  induction successors generalizing degrees next with
  | nil => exact ⟨_, rfl⟩
  | cons s rest ih =>
    obtain ⟨degree, hat⟩ : ∃ degree, degrees[s]? = some (degree + 1) := by
      have hpos := h s
      rw [List.count_cons_self, List.getD_eq_getElem?_getD] at hpos
      cases hs : degrees[s]? with
      | none => simp [hs] at hpos
      | some found => exact ⟨found - 1, by rw [hs, Option.getD_some] at hpos; simp; omega⟩
    have hstep : release (degrees, next) s =
        .ok (degrees.set s degree, if degree = 0 then next ++ [s] else next) := by
      simp only [release, hat]
    rw [List.foldlM_cons, hstep]
    refine ih fun v => ?_
    have hv := h v
    rw [getD_set (List.getElem?_eq_some_iff.mp hat).1]
    split_ifs with heq
    · subst heq
      rw [List.count_cons_self, List.getD_eq_getElem?_getD, hat, Option.getD_some] at hv
      omega
    · rwa [List.count_cons_of_ne (Ne.symm heq)] at hv

variable {p q : Progress}

/-- A pass that goes on. -/
lemma layerBody_eq_inl (h : layerBody count successors p = .ok (.inl q)) :
    p.current ≠ [] ∧ ∃ degrees due,
      Released ((p.current.insertionSort (· ≤ ·)).flatMap successors) p.degrees degrees due ∧
      q = ⟨degrees, due, p.layers ++ [p.current.insertionSort (· ≤ ·)],
        p.processed + p.current.length⟩ := by
  unfold layerBody at h
  split_ifs at h with hcurrent hcount
  · cases h
  · obtain ⟨⟨degrees, next⟩, hfold, hq⟩ := bind_eq_ok.mp h
    obtain rfl := Sum.inl.inj (pure_eq_ok.mp hq)
    obtain ⟨due, hnext, hdue⟩ := foldlM_release hfold
    exact ⟨hcurrent, degrees, due, hdue, by rw [List.length_insertionSort, hnext, List.nil_append]⟩

/-- The pass that returns. -/
lemma layerBody_eq_inr (h : layerBody count successors p = .ok (.inr layers)) :
    p.current = [] ∧ p.processed = count ∧ layers = p.layers := by
  unfold layerBody at h
  split_ifs at h with hcurrent hcount
  · cases h
    exact ⟨hcurrent, hcount, rfl⟩
  · obtain ⟨_, -, hgoes⟩ := bind_eq_ok.mp h
    cases pure_eq_ok.mp hgoes

/-! ## Termination -/

/-- Counters and nodes still to be dealt with. -/
def Progress.work (p : Progress) : Nat := p.degrees.sum + p.current.length

lemma work_lt (h : layerBody count successors p = .ok (.inl q)) : q.work < p.work := by
  obtain ⟨hcurrent, degrees, due, hdue, rfl⟩ := layerBody_eq_inl h
  have hpos := List.length_pos_iff.mpr hcurrent
  have hsum := hdue.sum
  have hshort := hdue.short
  simp only [Progress.work]
  omega

lemma exists_layers (count : Nat) (successors : Nat → List Nat) (p : Progress) :
    ∃ result, loop (layerBody count successors) (p.work + 1) p = some result :=
  exists_loop_eq_some (I := fun _ => True) (B := Progress.work)
    (fun _ _ _ hstep => ⟨trivial, work_lt hstep⟩) trivial (Nat.lt_succ_self _)

/-- The layers of a graph given by its successors and its counters. -/
def layers (successors : Nat → List Nat) (degrees : List Nat) : Except LayerError (List (List Nat)) :=
  (loop (layerBody degrees.length successors) ((Progress.start degrees).work + 1)
    (Progress.start degrees)).get (Option.isSome_iff_exists.mpr (exists_layers ..))

/-! ## What the layers are -/

/-- The predecessors of a node are in earlier layers. -/
def Ordered (count : Nat) (successors : Nat → List Nat) (layers : List (List Nat)) : Prop :=
  ∀ (i : Nat) (layer : List Nat), layers[i]? = some layer → ∀ v ∈ layer, ∀ u < count,
    v ∈ successors u → ∃ (j : Nat) (earlier : List Nat), j < i ∧ layers[j]? = some earlier ∧ u ∈ earlier

/-- Every node once, behind all its predecessors. -/
structure Layered (count : Nat) (successors : Nat → List Nat) (layers : List (List Nat)) : Prop where
  perm : layers.flatten.Perm (List.range count)
  ordered : Ordered count successors layers

/-- The edges into a node, all nodes counted. -/
def edgesInto (count : Nat) (successors : Nat → List Nat) (v : Nat) : Nat :=
  ((List.range count).flatMap successors).count v

/-- What holds between two passes. -/
structure Underway (count : Nat) (successors : Nat → List Nat) (p : Progress) : Prop where
  length : p.degrees.length = count
  processed : p.processed = p.layers.flatten.length
  bound : ∀ v ∈ p.layers.flatten ++ p.current, v < count
  nodup : (p.layers.flatten ++ p.current).Nodup
  ready : ∀ v ∈ p.layers.flatten ++ p.current, p.degrees.getD v 0 = 0
  balance : ∀ v < count,
    p.degrees.getD v 0 + (p.layers.flatten.flatMap successors).count v = edgesInto count successors v
  ordered : Ordered count successors p.layers

variable {count : Nat} {successors : Nat → List Nat}

lemma underway_start (hlength : degrees.length = count)
    (hdegrees : ∀ v < count, degrees.getD v 0 = edgesInto count successors v) :
    Underway count successors (Progress.start degrees) where
  length := hlength
  processed := rfl
  bound v hv := hlength ▸ List.mem_range.mp (List.mem_filter.mp hv).1
  nodup := List.nodup_range.filter _
  ready v hv := by simpa [Progress.start] using (List.mem_filter.mp hv).2
  balance v hv := hdegrees v hv
  ordered i layer hlayer := by cases hlayer

/-- The edges into a node come from the emitted nodes and from the others. -/
lemma edgesInto_eq {done : List Nat} (hnodup : done.Nodup) (hbound : ∀ u ∈ done, u < count)
    (v : Nat) : edgesInto count successors v = (done.flatMap successors).count v +
      (((List.range count).filter (· ∉ done)).flatMap successors).count v := by
  have hperm : (List.range count).Perm (done ++ (List.range count).filter (· ∉ done)) := by
    refine (List.perm_ext_iff_of_nodup List.nodup_range ?_).mpr fun u => ?_
    · refine List.nodup_append'.mpr ⟨hnodup, List.nodup_range.filter _, fun u hu hother => ?_⟩
      exact of_decide_eq_true (List.mem_filter.mp hother).2 hu
    · simp only [List.mem_append, List.mem_filter, List.mem_range, decide_eq_true_eq]
      exact ⟨fun hu => or_iff_not_imp_left.mpr fun hnot => ⟨hu, hnot⟩,
        fun hu => hu.elim (hbound u) And.left⟩
  rw [edgesInto, (hperm.flatMap_right successors).count_eq, List.flatMap_append, List.count_append]

/-- The emitted nodes account for every edge into `v` if they contain every predecessor of `v`. -/
lemma count_eq_iff {done : List Nat} (hnodup : done.Nodup) (hbound : ∀ u ∈ done, u < count) :
    (done.flatMap successors).count v = edgesInto count successors v ↔
      ∀ u < count, v ∈ successors u → u ∈ done := by
  rw [edgesInto_eq hnodup hbound, left_eq_add, List.count_eq_zero]
  simp only [List.mem_flatMap, List.mem_filter, List.mem_range, decide_eq_true_eq, not_exists, not_and]
  exact ⟨fun h u hu hedge => by_contra fun hnot => h u ⟨hu, hnot⟩ hedge,
    fun h u hu hedge => hu.2 (h u hu.1 hedge)⟩

section

variable (hp : Underway count successors p)
include hp

/-- A pass keeps all of it. -/
lemma Underway.step
    (h : layerBody count successors p = .ok (.inl q)) : Underway count successors q := by
  obtain ⟨-, degrees, due, hdue, rfl⟩ := layerBody_eq_inl h
  have hsorted : (p.current.insertionSort (· ≤ ·)).Perm p.current := List.perm_insertionSort ..
  have hlength := List.length_insertionSort (· ≤ ·) p.current
  generalize p.current.insertionSort (· ≤ ·) = layer at hsorted hlength hdue ⊢
  have hflat : (p.layers ++ [layer]).flatten = p.layers.flatten ++ layer := by simp
  have hsame : (p.layers.flatten ++ layer).Perm (p.layers.flatten ++ p.current) :=
    hsorted.append_left _
  have hfell : ∀ v, degrees.getD v 0 ≤ p.degrees.getD v 0 := fun v => (hdue.count v) ▸ Nat.le_add_right ..
  constructor
  · exact hdue.length.trans hp.length
  · simp only [hflat, List.length_append, hlength, hp.processed]
  · intro v hv
    rw [hflat, List.mem_append, hsame.mem_iff] at hv
    rcases hv with hv | hv
    · exact hp.bound v hv
    · by_contra hout
      have hpos := ((hdue.mem v).mp hv).1
      rw [List.getD_eq_getElem?_getD, List.getElem?_eq_none (by rw [hp.length]; omega)] at hpos
      exact absurd hpos (Nat.lt_irrefl 0)
  · simp only [hflat]
    rw [List.nodup_append']
    refine ⟨hsame.nodup_iff.mpr hp.nodup, hdue.nodup, fun v hv hmem => ?_⟩
    have hzero := hp.ready v (hsame.mem_iff.mp hv)
    have hpos := ((hdue.mem v).mp hmem).1
    omega
  · intro v hv
    rw [hflat, List.mem_append, hsame.mem_iff] at hv
    rcases hv with hv | hv
    · have hzero := hp.ready v hv
      have := hfell v
      simp only
      omega
    · exact ((hdue.mem v).mp hv).2
  · intro v hv
    have hbefore := hp.balance v hv
    have hpass := hdue.count v
    rw [hflat, List.flatMap_append, List.count_append]
    simp only
    omega
  · intro i emitted hemitted v hv u hu hedge
    rcases Nat.lt_or_ge i p.layers.length with hi | hi
    · rw [List.getElem?_append_left hi] at hemitted
      obtain ⟨j, earlier, hj, hearlier, hmem⟩ := hp.ordered i emitted hemitted v hv u hu hedge
      exact ⟨j, earlier, hj, by rw [List.getElem?_append_left (by omega), hearlier], hmem⟩
    · -- the layer of this pass: its nodes have counter zero, so every predecessor has been emitted
      rw [List.getElem?_append_right hi] at hemitted
      obtain ⟨hindex, rfl⟩ := List.getElem?_eq_some_iff.mp hemitted
      have hcurrent : v ∈ p.layers.flatten ++ p.current :=
        List.mem_append_right _ (hsorted.mem_iff.mp (by simpa using hv))
      have hbalance := hp.balance v (hp.bound v hcurrent)
      rw [hp.ready v hcurrent, Nat.zero_add] at hbalance
      have hdone := (count_eq_iff (List.Nodup.of_append_left hp.nodup)
        fun w hw => hp.bound w (List.mem_append_left _ hw)).mp hbalance u hu hedge
      obtain ⟨earlier, hearlier, hmem⟩ := List.mem_flatten.mp hdone
      obtain ⟨j, hj, rfl⟩ := List.getElem_of_mem hearlier
      exact ⟨j, p.layers[j], by omega, by rw [List.getElem?_append_left hj, List.getElem?_eq_getElem hj],
        hmem⟩

/-- When no node is due and all have been counted, the layers hold every node. -/
lemma Underway.layered (hcount : p.processed = count) :
    Layered count successors p.layers where
  perm := by
    refine (List.subperm_of_subset (List.Nodup.of_append_left hp.nodup) fun v hv => ?_)
      |>.perm_of_length_le ?_
    · exact List.mem_range.mpr (hp.bound v (List.mem_append_left _ hv))
    · rw [List.length_range, ← hp.processed, hcount]
  ordered := hp.ordered

/-- A pass fails only when no node is due and some are left. -/
lemma Underway.error {error : LayerError} (hrange : ∀ u v, v ∈ successors u → v < count)
    (h : layerBody count successors p = .error error) :
    error = .cycle ∧ p.current = [] ∧ p.processed ≠ count := by
  unfold layerBody at h
  split_ifs at h with hcurrent hcount
  · cases h
    exact ⟨rfl, hcurrent, hcount⟩
  · exfalso
    have hpass : ∃ result, ((p.current.insertionSort (· ≤ ·)).flatMap successors).foldlM release
        (p.degrees, []) = .ok result := by
      refine exists_foldlM_release fun v => ?_
      rw [((List.perm_insertionSort (· ≤ ·) p.current).flatMap_right successors).count_eq]
      rcases Nat.lt_or_ge v count with hv | hv
      · have hbalance := hp.balance v hv
        rw [edgesInto_eq hp.nodup hp.bound, List.flatMap_append, List.count_append] at hbalance
        omega
      · rw [List.count_eq_zero.mpr fun hmem => ?_]
        · exact Nat.zero_le _
        · obtain ⟨u, -, hedge⟩ := List.mem_flatMap.mp hmem
          exact absurd (hrange u v hedge) (by omega)
    obtain ⟨result, hresult⟩ := hpass
    dsimp only at h
    rw [hresult] at h
    cases h

end

/-! ## No later than necessary -/

/-- Every node of a layer has a predecessor in the layer before. -/
def Supported (successors : Nat → List Nat) (earlier layer : List Nat) : Prop :=
  ∀ v ∈ layer, ∃ u ∈ earlier, v ∈ successors u

/-- What else holds between two passes: nodes are emitted as soon as possible. -/
structure Prompt (count : Nat) (successors : Nat → List Nat) (p : Progress) : Prop where
  due : ∀ v < count, p.degrees.getD v 0 = 0 → v ∈ p.layers.flatten ++ p.current
  sorted : ∀ layer ∈ p.layers, layer.Pairwise (· ≤ ·)
  supported : (p.layers ++ [p.current]).IsChain (Supported successors)

lemma prompt_start (hlength : degrees.length = count) :
    Prompt count successors (Progress.start degrees) where
  due _ hv hzero := List.mem_filter.mpr ⟨List.mem_range.mpr (hlength ▸ hv), decide_eq_true hzero⟩
  sorted := nofun
  supported := List.isChain_singleton _

lemma Prompt.step (hp : Prompt count successors p)
    (h : layerBody count successors p = .ok (.inl q)) : Prompt count successors q := by
  obtain ⟨-, degrees, due, hdue, rfl⟩ := layerBody_eq_inl h
  have hsame : ∀ v, v ∈ p.current.insertionSort (· ≤ ·) ↔ v ∈ p.current :=
    fun v => List.mem_insertionSort _
  refine ⟨fun v hv hzero => ?_, ?_, ?_⟩
  · simp only [List.flatten_append, List.flatten_singleton, List.append_assoc, List.mem_append, hsame]
    rcases Nat.eq_zero_or_pos (p.degrees.getD v 0) with hbefore | hbefore
    · rcases List.mem_append.mp (hp.due v hv hbefore) with hold | hold
      · exact .inl hold
      · exact .inr (.inl hold)
    · exact .inr (.inr ((hdue.mem v).mpr ⟨hbefore, hzero⟩))
  · intro layer hlayer
    rcases List.mem_append.mp hlayer with hold | hnew
    · exact hp.sorted layer hold
    · obtain rfl := List.mem_singleton.mp hnew
      exact List.pairwise_insertionSort ..
  · have hchain := List.isChain_append.mp hp.supported
    refine List.isChain_append.mpr ⟨List.isChain_append.mpr ⟨hchain.1, List.isChain_singleton _, ?_⟩,
      List.isChain_singleton _, ?_⟩
    · rintro earlier hearlier _ ⟨⟩ v hv
      exact hchain.2.2 earlier hearlier _ rfl v ((hsame v).mp hv)
    · -- a node that fell to zero was taken off by this layer
      rintro earlier hearlier _ ⟨⟩ v hv
      obtain rfl : p.current.insertionSort (· ≤ ·) = earlier := by simpa using hearlier
      obtain ⟨hpos, hzero⟩ := (hdue.mem v).mp hv
      have hcount := hdue.count v
      exact List.mem_flatMap.mp (List.count_pos_iff.mp (by omega))

/-- If no node is due and some are left, there is a cycle. -/
lemma Underway.cyclic (hp : Underway count successors p) (hprompt : Prompt count successors p)
    (hcurrent : p.current = []) (hcount : p.processed ≠ count) :
    ∃ v, Relation.TransGen (fun u v => v ∈ successors u) v v := by
  by_contra hacyclic
  push Not at hacyclic
  rw [hp.processed] at hcount
  have hnodup := List.Nodup.of_append_left hp.nodup
  have hbound : ∀ u ∈ p.layers.flatten, u < count := fun u hu => hp.bound u (List.mem_append_left _ hu)
  have hdue := hprompt.due
  rw [hcurrent, List.append_nil] at hdue
  let before : Fin count → Fin count → Prop := fun u v =>
    Relation.TransGen (fun u v => v ∈ successors u) u.val v.val
  have : IsTrans (Fin count) before := ⟨fun _ _ _ => Relation.TransGen.trans⟩
  have : Std.Irrefl before := ⟨fun v => hacyclic v.val⟩
  have hleft : ∃ v : Fin count, v.val ∉ p.layers.flatten := by
    by_contra hall
    push Not at hall
    refine hcount (Nat.le_antisymm ?_ ?_)
    · exact (List.subperm_of_subset hnodup fun u hu => List.mem_range.mpr (hbound u hu)).length_le.trans_eq
        List.length_range
    · refine (List.length_range (n := count)).symm.trans_le (List.subperm_of_subset List.nodup_range
        fun u hu => ?_).length_le
      exact hall ⟨u, List.mem_range.mp hu⟩
  -- of the nodes left, one has no path from another
  obtain ⟨v, hv, hmin⟩ := (Finite.wellFounded_of_trans_of_irrefl before).has_min _ hleft
  have hbalance := hp.balance v v.isLt
  have hmissing : ¬∀ u < count, v.val ∈ successors u → u ∈ p.layers.flatten := by
    rw [← count_eq_iff hnodup hbound]
    intro hall
    exact hv (hdue v v.isLt (by omega))
  push Not at hmissing
  obtain ⟨u, hu, hedge, hnot⟩ := hmissing
  exact hmin ⟨u, hu⟩ hnot (.single hedge)

/-- Layers without a gap. -/
structure Tight (count : Nat) (successors : Nat → List Nat) (layers : List (List Nat)) : Prop extends
    Layered count successors layers where
  sorted : ∀ layer ∈ layers, layer.Pairwise (· ≤ ·)
  supported : layers.IsChain (Supported successors)

/-- The layers, or a cycle. -/
lemma layers_spec (hlength : degrees.length = count)
    (hdegrees : ∀ v < count, degrees.getD v 0 = edgesInto count successors v)
    (hrange : ∀ u v, v ∈ successors u → v < count) :
    (∃ result, layers successors degrees = .ok result ∧ Tight count successors result) ∨
      layers successors degrees = .error .cycle ∧
        ∃ v, Relation.TransGen (fun u v => v ∈ successors u) v v := by
  have hloop : loop (layerBody degrees.length successors) ((Progress.start degrees).work + 1)
      (Progress.start degrees) = some (layers successors degrees) := by
    rw [layers, Option.some_get]
  rw [hlength] at hloop
  refine loop_of_invariant (I := fun p => Underway count successors p ∧ Prompt count successors p)
    (Q := fun outcome => (∃ result, outcome = .ok result ∧ Tight count successors result) ∨
      outcome = .error .cycle ∧ ∃ v, Relation.TransGen (fun u v => v ∈ successors u) v v)
    (fun _ _ hp hstep => ⟨hp.1.step hstep, hp.2.step hstep⟩) ?_ ?_
    ⟨underway_start hlength hdegrees, prompt_start hlength⟩ hloop
  · intro p error hp herror
    obtain ⟨rfl, hcurrent, hcount⟩ := hp.1.error hrange herror
    exact .inr ⟨rfl, hp.1.cyclic hp.2 hcurrent hcount⟩
  · intro p result hp hreturn
    obtain ⟨-, hcount, rfl⟩ := layerBody_eq_inr hreturn
    exact .inl ⟨_, rfl, hp.1.layered hcount, hp.2.sorted, (List.isChain_append.mp hp.2.supported).1⟩

/-! ## Paths go to later layers -/

section

variable {layers : List (List Nat)}

section

variable (h : Layered count successors layers)
include h

/-- A node is in one layer. -/
lemma Layered.unique {i j v : Nat} {first second : List Nat}
    (hi : layers[i]? = some first) (hj : layers[j]? = some second) (hfirst : v ∈ first)
    (hsecond : v ∈ second) : i = j := by
  have hnodup := h.perm.nodup_iff.mpr List.nodup_range
  have hdisjoint := (List.nodup_flatten.mp hnodup).2
  obtain ⟨hi', rfl⟩ := List.getElem?_eq_some_iff.mp hi
  obtain ⟨hj', rfl⟩ := List.getElem?_eq_some_iff.mp hj
  rw [List.pairwise_iff_getElem] at hdisjoint
  rcases Nat.lt_trichotomy i j with hlt | heq | hgt
  · exact absurd hsecond (hdisjoint i j hi' hj' hlt hfirst)
  · exact heq
  · exact absurd hfirst (hdisjoint j i hj' hi' hgt hsecond)

/-- A path between nodes leads to a later layer. -/
lemma Layered.earlier_of_path
    (hpath : Relation.TransGen (fun u v => u < count ∧ v ∈ successors u) u v)
    (hlayer : layers[i]? = some layer) (hv : v ∈ layer) :
    ∃ (j : Nat) (earlier : List Nat), j < i ∧ layers[j]? = some earlier ∧ u ∈ earlier := by
  induction hpath generalizing i layer with
  | single hedge => exact h.ordered i layer hlayer _ hv _ hedge.1 hedge.2
  | tail _ hedge ih =>
    obtain ⟨j, earlier, hj, hearlier, hmem⟩ := h.ordered i layer hlayer _ hv _ hedge.1 hedge.2
    obtain ⟨k, first, hk, hfirst, hu⟩ := ih hearlier hmem
    exact ⟨k, first, hk.trans hj, hfirst, hu⟩

lemma Layered.not_same_layer {u v : Nat}
    (hpath : Relation.TransGen (fun u v => u < count ∧ v ∈ successors u) u v)
    (hlayer : layer ∈ layers) (hu : u ∈ layer) : v ∉ layer := by
  intro hv
  obtain ⟨i, hi⟩ := List.mem_iff_getElem?.mp hlayer
  obtain ⟨j, earlier, hj, hearlier, hmem⟩ := h.earlier_of_path hpath hi hv
  have := h.unique hi hearlier hu hmem
  omega

end

/-- A path of some length ends in a node. -/
inductive PathTo (edge : Nat → Nat → Prop) : Nat → Nat → Prop where
  | here (v : Nat) : PathTo edge 0 v
  | step {k u v : Nat} (h : PathTo edge k u) (hedge : edge u v) : PathTo edge (k + 1) v

/-- A layer's number is the length of the longest path to its nodes. -/
lemma Tight.isGreatest (h : Tight count successors layers)
    (hrange : ∀ u v, v ∈ successors u → u < count) (hlayer : layers[i]? = some layer)
    (hv : v ∈ layer) : IsGreatest {k | PathTo (fun u v => v ∈ successors u) k v} i := by
  constructor
  · induction i generalizing v layer with
    | zero => exact .here v
    | succ i ih =>
      obtain ⟨hi, rfl⟩ := List.getElem?_eq_some_iff.mp hlayer
      obtain ⟨u, hu, hedge⟩ := List.isChain_iff_getElem.mp h.supported i hi v hv
      exact PathTo.step (ih (List.getElem?_eq_getElem _) hu) hedge
  · intro k hpath
    induction hpath generalizing i layer with
    | here => exact Nat.zero_le i
    | step _ hedge ih =>
      obtain ⟨j, earlier, hj, hearlier, hmem⟩ := h.ordered i layer hlayer _ hv _ (hrange _ _ hedge) hedge
      exact (ih hearlier hmem).trans_lt hj

lemma Layered.acyclic (h : Layered count successors layers)
    (hrange : ∀ u v, v ∈ successors u → u < count) (v : Nat) :
    ¬Relation.TransGen (fun u v => v ∈ successors u) v v := by
  intro hpath
  have hpath' := Relation.TransGen.mono (fun u v hedge => (⟨hrange u v hedge, hedge⟩ :
    u < count ∧ v ∈ successors u)) _ _ hpath
  have hv : v < count := by
    obtain ⟨w, hedge, -⟩ := Relation.TransGen.head'_iff.mp hpath
    exact hrange v w hedge
  obtain ⟨layer, hlayer, hmem⟩ :=
    List.mem_flatten.mp (h.perm.mem_iff.mpr (List.mem_range.mpr hv))
  exact h.not_same_layer hpath' hlayer hmem hmem

end

end Myelin.Lib.Layers
