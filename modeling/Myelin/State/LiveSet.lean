/-
  Runs over live-cell trees, against plain sets of cells.

  A pool holds any number of trees: `clone` adds a copy, every other call changes one tree of the
  pool.  The same calls make sense for a `LiveSet`, a plain function from outpoints to entries, which
  has no leaf cache, no accumulator and no cached root.  A run of the trees is followed step by step
  by the run of the live sets (`pool_represents`), so **`root_of_live_set`** can say what the root is
  a function of without mentioning how the tree got there.
-/
import Myelin.State.CellTree

namespace Myelin.State

open Lib Exec Function

variable {F : Type} [CommGroup F] {hashes : CellHashes F}

/-- The live cells, whatever keeps them. -/
abbrev LiveSet := OutPoint → Option CellEntry

/-- One call on a tree. -/
inductive TreeCall where
  | insert (outpoint : OutPoint) (entry : CellEntry)
  | remove (outpoint : OutPoint)
  | clear
  | root

/-- The tree after a call; what `remove` and `root` return is dropped. -/
def CellStateTree.call (t : CellStateTree hashes) : TreeCall → CellStateTree hashes
  | .insert outpoint entry => t.insert outpoint entry
  | .remove outpoint => (t.remove outpoint).2
  | .clear => t.clear
  | .root => t.root.2

/-- What a call means for the live cells. -/
def LiveSet.call (live : LiveSet) : TreeCall → LiveSet
  | .insert outpoint entry => update live outpoint (some entry)
  | .remove outpoint => update live outpoint none
  | .clear => fun _ => none
  | .root => live

/-- One step of a program that owns several trees. -/
inductive PoolStep where
  | new
  | call (index : Nat) (call : TreeCall)
  | clone (index : Nat)

/-- The pool after a step; a step on a tree that does not exist changes nothing. -/
def poolStep {σ : Type} (fresh : σ) (call : σ → TreeCall → σ) (pool : List σ) : PoolStep → List σ
  | .new => pool ++ [fresh]
  | .call index treeCall => pool.modify index (call · treeCall)
  | .clone index => pool ++ pool[index]?.toList

/-- Trees after some steps. -/
def runTrees (hashes : CellHashes F) (steps : List PoolStep) : List (CellStateTree hashes) :=
  steps.foldl (poolStep .new CellStateTree.call) []

/-- Live sets after the same steps. -/
def runLiveSets (steps : List PoolStep) : List LiveSet :=
  steps.foldl (poolStep (fun _ => none) LiveSet.call) []

/-- The tree holds exactly these cells. -/
def CellStateTree.Represents (t : CellStateTree hashes) (live : LiveSet) : Prop :=
  ∀ o, t.cells.get? o = live o

/-- The cells of a live set, each once, in some order. -/
structure LiveSet.ListedBy (live : LiveSet) (cells : List (OutPoint × CellEntry)) : Prop where
  nodup : (cells.map (·.1)).Nodup
  mem : ∀ o entry, (o, entry) ∈ cells ↔ live o = some entry

/-! ## Steps and runs -/

lemma CellStateTree.get?_remove (t : CellStateTree hashes) (outpoint o : OutPoint) :
    (t.remove outpoint).2.cells.get? o = if o = outpoint then none else t.cells.get? o := by
  unfold CellStateTree.remove
  split
  · next hnone =>
      split_ifs with ho
      · rw [ho, hnone]
      · rfl
  · split_ifs with ho
    · rw [ho]
      exact SortedMap.get?_erase_self
    · exact SortedMap.get?_erase_ne ho

/-- A call on the tree is the call on what it stands for. -/
lemma CellStateTree.Represents.call {t : CellStateTree hashes} {live : LiveSet}
    (h : t.Represents live) (treeCall : TreeCall) :
    (t.call treeCall).Represents (live.call treeCall) := by
  intro o
  cases treeCall with
  | insert outpoint entry =>
    show (t.cells.insert outpoint entry).get? o = update live outpoint (some entry) o
    by_cases ho : o = outpoint
    · rw [ho, SortedMap.get?_insert_self, update_self]
    · rw [SortedMap.get?_insert_ne ho, update_of_ne ho, h o]
  | remove outpoint =>
    show (t.remove outpoint).2.cells.get? o = update live outpoint none o
    rw [CellStateTree.get?_remove, update_apply, h o]
  | clear => rfl
  | root =>
    show t.root.2.cells.get? o = live o
    unfold CellStateTree.root
    split <;> exact h o

lemma pool_represents_step {trees : List (CellStateTree hashes)} {lives : List LiveSet}
    (h : List.Forall₂ CellStateTree.Represents trees lives) (step : PoolStep) :
    List.Forall₂ CellStateTree.Represents (poolStep .new CellStateTree.call trees step)
      (poolStep (fun _ => none) LiveSet.call lives step) := by
  cases step with
  | new => exact List.rel_append h (.cons (fun _ => rfl) .nil)
  | call index treeCall =>
    show List.Forall₂ _ (trees.modify index _) (lives.modify index _)
    induction h generalizing index with
    | nil => simp
    | cons hhead htail ih =>
      cases index with
      | zero => exact .cons (hhead.call treeCall) htail
      | succ index => exact .cons hhead (ih index)
  | clone index =>
    refine List.rel_append h ?_
    -- the copied tree stands for the copied set
    cases htree : trees[index]? with
    | none =>
      have hlive : lives[index]? = none := by
        rw [List.getElem?_eq_none_iff] at htree ⊢
        rwa [← h.length_eq]
      rw [hlive]
      exact .nil
    | some t =>
      obtain ⟨live, hlive, hboth⟩ := forall₂_getElem? h htree
      rw [hlive]
      exact .cons hboth .nil

/-- The trees of a run stand for the live sets of the run. -/
lemma pool_represents (hashes : CellHashes F) (steps : List PoolStep) :
    List.Forall₂ CellStateTree.Represents (runTrees hashes steps) (runLiveSets steps) := by
  induction steps using List.reverseRecOn with
  | nil => exact .nil
  | append_singleton steps step ih =>
    simp only [runTrees, runLiveSets, List.foldl_append, List.foldl_cons, List.foldl_nil] at ih ⊢
    exact pool_represents_step ih step

/-! ## The root -/

/-- A fresh tree filled with the cells of a live set ends up with the same cells. -/
lemma CellStateTree.Represents.cells_eq {t : CellStateTree hashes} {live : LiveSet}
    (h : t.Represents live) {cells : List (OutPoint × CellEntry)} (hlisted : live.ListedBy cells) :
    ((CellStateTree.new : CellStateTree hashes).insertAll cells).cells = t.cells := by
  rw [CellStateTree.cells_insertAll]
  have hperm : cells.Perm t.cells.entries := by
    refine (List.perm_ext_iff_of_nodup hlisted.nodup.of_map t.cells.nodup_entries).mpr ?_
    rintro ⟨o, entry⟩
    rw [hlisted.mem, ← SortedMap.get?_eq_some, h o]
  exact SortedMap.insertAll_perm hperm

/-- **The root is a function of the live set**: in every run over a pool of trees, each tree holds
    exactly the cells that the calls leave live, its leaf cache holds the leaf hash of each of them
    and of nothing else, and its root is the root of a fresh tree into which these cells are inserted
    in any order. -/
theorem root_of_live_set (hashes : CellHashes F) (steps : List PoolStep) :
    List.Forall₂ (fun t live => (∀ o, t.cells.get? o = live o) ∧
        (∀ o, t.leafHashes.get? o = (live o).map (computeLeafHash hashes o)) ∧
        ∀ cells, LiveSet.ListedBy live cells →
          t.root.1 = ((CellStateTree.new : CellStateTree hashes).insertAll cells).root.1)
      (runTrees hashes steps) (runLiveSets steps) := by
  refine (pool_represents hashes steps).imp fun t live h => ⟨h, fun o => ?_, fun cells hlisted => ?_⟩
  · rw [t.leaves o, h o]
  · rw [CellStateTree.root_eq, CellStateTree.root_eq, h.cells_eq hlisted]

end Myelin.State
