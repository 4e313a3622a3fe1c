/-
  The transition engine: live cells behind `&mut self`.

  `State.Transition` says which transactions are accepted and what they do.  The engine adds what a
  CALL leaves behind, also when it fails: `apply_transaction` takes the root before it looks at any
  input, and taking a root caches it, so a rejected call may still have written to the tree.  What it
  has written is the cached root and nothing else (`SameCells`).  `verify_transaction` works on a
  clone, and its result is the receipt of the call it did not make (`transition_atomic`).
-/
import Myelin.State.Transition

namespace Myelin.State

open Lib Exec

variable {F : Type} [CommGroup F] {hashes : CellHashes F}

/-- Owns the canonical live-cell state. -/
structure StateTransitionEngine (hashes : CellHashes F) where
  state : CellStateTree hashes

/-- Admission proof of contextual state and script checks. -/
structure VerifiedStateTransaction where
  tx : CellTx
  txid : Hash
  stateRoot : Hash
  stateRootAfter : Hash
  fee : UInt64
  cycles : UInt64
  deriving DecidableEq

variable (blake3 : List UInt8 → Hash) (engine : StateTransitionEngine hashes) (tx : CellTx)
  (context : StateTransitionContext) (verifier : CellScriptVerifier)

namespace StateTransitionEngine

/-- Verify and atomically apply one transaction. -/
def applyTransaction :
    Except StateTransitionError StateTransitionReceipt × StateTransitionEngine hashes :=
  if tx.inputs = [] ∧ context.allowCellbase = false then (.error .unauthorizedCellbase, engine)
  else
    -- the root is taken, and so cached, before the first input is resolved
    match State.applyTransaction blake3 engine.state.root.2 tx context verifier with
    | .error e => (.error e, ⟨engine.state.root.2⟩)
    | .ok (receipt, next) => (.ok receipt, ⟨next.root.2⟩)

/-- Verify a transaction without committing it: apply it to a clone. -/
def verifyTransaction :
    Except StateTransitionError VerifiedStateTransaction × StateTransitionEngine hashes :=
  ((engine.applyTransaction blake3 tx context verifier).1.map fun receipt =>
    ⟨tx, receipt.txid, receipt.stateRootBefore, receipt.stateRootAfter, receipt.fee, receipt.cycles⟩,
    engine)

end StateTransitionEngine

/-! ## What a call leaves behind -/

/-- All that a root is computed from is as before, and so is the root. -/
structure SameCells (before after : CellStateTree hashes) : Prop where
  cells : after.cells = before.cells
  leafHashes : after.leafHashes = before.leafHashes
  muhash : after.muhash = before.muhash
  root : after.root.1 = before.root.1

lemma SameCells.refl (t : CellStateTree hashes) : SameCells t t := ⟨rfl, rfl, rfl, rfl⟩

/-- Taking the root only fills the cache. -/
lemma SameCells.of_root (t : CellStateTree hashes) : SameCells t t.root.2 := by
  have hcells : t.root.2.cells = t.cells ∧ t.root.2.leafHashes = t.leafHashes ∧
      t.root.2.muhash = t.muhash := by
    unfold CellStateTree.root
    split <;> exact ⟨rfl, rfl, rfl⟩
  obtain ⟨hcells, hleaves, hmuhash⟩ := hcells
  refine ⟨hcells, hleaves, hmuhash, ?_⟩
  rw [CellStateTree.root_eq, CellStateTree.root_eq, hcells]

variable {blake3 tx context verifier} in
/-- The roots in a receipt are those of the trees before and after. -/
lemma applyTransaction_roots {state next : CellStateTree hashes} {receipt : StateTransitionReceipt}
    (h : applyTransaction blake3 state tx context verifier = .ok (receipt, next)) :
    receipt.stateRootBefore = state.root.1 ∧ receipt.stateRootAfter = next.root.1 := by
  simp only [applyTransaction, eq_ok, Prod.exists, Prod.mk.injEq] at h
  obtain ⟨_, resolved, _, _, created, _, _, _, cycles, _, rfl, rfl⟩ := h
  exact ⟨rfl, rfl⟩

/-- A call either fails, with at most the root cached, or is an accepted transaction. -/
inductive Called :
    Except StateTransitionError StateTransitionReceipt × StateTransitionEngine hashes → Prop where
  | refused (e : StateTransitionError) (after : CellStateTree hashes) :
      SameCells engine.state after →
      Called (.error e, ⟨after⟩)
  | applied (receipt : StateTransitionReceipt) (next : CellStateTree hashes) :
      State.applyTransaction blake3 engine.state.root.2 tx context verifier = .ok (receipt, next) →
      Called (.ok receipt, ⟨next.root.2⟩)

lemma called :
    Called blake3 engine tx context verifier
      (engine.applyTransaction blake3 tx context verifier) := by
  unfold StateTransitionEngine.applyTransaction
  split_ifs with hcellbase
  · exact .refused _ _ (.refl _)
  · split
    · exact .refused _ _ (.of_root _)
    · next receipt next happly => exact .applied receipt next happly

/-- **Atomic transition and dry run**: a rejected transaction leaves the cells, the leaf cache, the
    accumulator and the root as they were, and so does `verify_transaction` always; a receipt names the
    roots before and after; and the dry run succeeds with some roots, fee and cycles exactly if
    the real call succeeds with them, and fails exactly as it would. -/
theorem transition_atomic (blake3 : List UInt8 → Hash) (engine : StateTransitionEngine hashes)
    (tx : CellTx) (context : StateTransitionContext) (verifier : CellScriptVerifier) :
    let applied := engine.applyTransaction blake3 tx context verifier
    let verified := engine.verifyTransaction blake3 tx context verifier
    (∀ e, applied.1 = .error e → SameCells engine.state applied.2.state) ∧
    SameCells engine.state verified.2.state ∧
    (∀ receipt, applied.1 = .ok receipt → receipt.stateRootBefore = engine.state.root.1 ∧
        receipt.stateRootAfter = applied.2.state.root.1) ∧
    (∀ before after fee cycles, (∃ proof, verified.1 = .ok proof ∧ proof.stateRoot = before ∧
        proof.stateRootAfter = after ∧ proof.fee = fee ∧ proof.cycles = cycles) ↔
      ∃ receipt, applied.1 = .ok receipt ∧ receipt.stateRootBefore = before ∧
        receipt.stateRootAfter = after ∧ receipt.fee = fee ∧ receipt.cycles = cycles) ∧
    ∀ e, verified.1 = .error e ↔ applied.1 = .error e := by
  intro applied verified
  have hverified : verified.1 = applied.1.map fun receipt => ⟨tx, receipt.txid,
      receipt.stateRootBefore, receipt.stateRootAfter, receipt.fee, receipt.cycles⟩ := rfl
  have hkept : verified.2 = engine := rfl
  have hcalled : Called blake3 engine tx context verifier applied := called ..
  clear_value applied verified
  refine ⟨?_, hkept ▸ .refl _, ?_, ?_, ?_⟩
  · intro e herror
    cases hcalled with
    | refused _ after hsame => exact hsame
    | applied receipt next happly => cases herror
  · intro receipt hok
    cases hcalled with
    | refused e after hsame => cases hok
    | applied receipt' next happly =>
      cases hok
      obtain ⟨hbefore, hafter⟩ := applyTransaction_roots happly
      exact ⟨hbefore.trans (SameCells.of_root _).root, hafter.trans (SameCells.of_root _).root.symm⟩
  · intro before after fee cycles
    simp only [hverified, map_eq_ok]
    constructor
    · rintro ⟨_, ⟨receipt, hok, rfl⟩, hvalues⟩
      exact ⟨receipt, hok, hvalues⟩
    · rintro ⟨receipt, hok, hvalues⟩
      exact ⟨_, ⟨receipt, hok, rfl⟩, hvalues⟩
  · intro e
    rw [hverified]
    cases applied.1 with
    | error e' | ok receipt => simp [Except.map]

end Myelin.State
