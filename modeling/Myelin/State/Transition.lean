/-
  Atomic live-cell transitions.

  `applyTransaction` resolves the inputs in the tree it was given, builds the entries of the
  outputs, asks the verifier and only then removes the inputs and inserts the outputs.  The verifier
  is a parameter: a session decorates it with further rules.

  **`applyTransaction_eq_ok`** is all that later files use: an accepted transaction names distinct
  live cells, creates cells at outpoints that were not live, its verifier has agreed to exactly those
  inputs, and the live cells afterwards are the old ones without the inputs and with the outputs
  (`mem_cells_next`).

  Output metadata never fails to encode here (the writers of `Exec.Molecule` are total), so the
  source's error for that case has no counterpart.
-/
import Myelin.Exec.CellTx
import Myelin.State.CellTree

namespace Myelin.State

open Lib Exec

variable {created : List (OutPoint × CellEntry)}

/-- Context required to apply one transaction. -/
structure StateTransitionContext where
  /-- Height assigned to newly created cells. -/
  blockNumber : UInt64
  /-- Permit a no-input transaction. -/
  allowCellbase : Bool
  deriving DecidableEq

/-- Input together with the live cell it names. -/
structure ResolvedStateInput where
  outpoint : OutPoint
  cell : CellEntry
  deriving DecidableEq

/-- Receipt of a successful transition. -/
structure StateTransitionReceipt where
  txid : Hash
  stateRootBefore : Hash
  stateRootAfter : Hash
  consumed : List OutPoint
  created : List OutPoint
  /-- Total inputs minus total outputs. -/
  fee : UInt64
  cycles : UInt64
  deriving DecidableEq

/-- Rejections; the state is as before. -/
inductive StateTransitionError where
  | unauthorizedCellbase
  | duplicateInput (outpoint : OutPoint)
  | missingInput (outpoint : OutPoint)
  | outputAlreadyExists (outpoint : OutPoint)
  | invalidOutputCapacity (index : Nat) (source : CapacityError)
  | capacityOverflow
  | insufficientInputCapacity (inputs outputs : UInt64)
  | scriptVerification (message : String)
  deriving DecidableEq

/-- Cycles of a script run, or why it failed. -/
abbrev CellScriptVerifier := CellTx → List ResolvedStateInput → Except String UInt64

variable {F : Type} [CommGroup F] {hashes : CellHashes F}

/-- Resolve inputs in order and add up their capacity; `seen` are the outpoints so far. -/
def resolveInputs (state : CellStateTree hashes) (seen : List OutPoint) (capacity : UInt64) :
    List CellInput → Except StateTransitionError (List ResolvedStateInput × UInt64)
  | [] => .ok ([], capacity)
  | input :: rest => do
      ensure (input.previousOutput ∉ seen) (.duplicateInput input.previousOutput)
      let cell ← okOr (state.cells.get? input.previousOutput) (.missingInput input.previousOutput)
      let capacity ← okOr (checkedAdd capacity cell.capacity) .capacityOverflow
      let (resolved, total) ← resolveInputs state (input.previousOutput :: seen) capacity rest
      pure (⟨input.previousOutput, cell⟩ :: resolved, total)

/-- The live cell an output becomes. -/
def createdCell (hashes : CellHashes F) (txid : Hash) (blockNumber : UInt64) (isCellbase : Bool)
    (output : (CellOutput × List UInt8) × Nat) : OutPoint × CellEntry :=
  (⟨txid, UInt32.ofNat output.2⟩,
    CellEntry.fromOutput hashes output.1.1 output.1.2 blockNumber isCellbase)

/-- Build entries in order and add up their capacity. -/
def createEntries (state : CellStateTree hashes) (txid : Hash) (blockNumber : UInt64)
    (isCellbase : Bool) (capacity : UInt64) : List ((CellOutput × List UInt8) × Nat) →
    Except StateTransitionError (List (OutPoint × CellEntry) × UInt64)
  | [] => .ok ([], capacity)
  | output :: rest => do
      (output.1.1.verifyCapacity output.1.2.length).mapError (.invalidOutputCapacity output.2)
      let capacity ← okOr (checkedAdd capacity output.1.1.capacity) .capacityOverflow
      let created := createdCell hashes txid blockNumber isCellbase output
      ensure (state.cells.get? created.1 = none) (.outputAlreadyExists created.1)
      let (entries, total) ← createEntries state txid blockNumber isCellbase capacity rest
      pure (created :: entries, total)

/-- Remove cells one by one. -/
def CellStateTree.removeAll (state : CellStateTree hashes) (outpoints : List OutPoint) :
    CellStateTree hashes :=
  outpoints.foldl (fun state outpoint => (state.remove outpoint).2) state

/-- Outputs paired with their data and numbered. -/
def numberedOutputs (tx : CellTx) : List ((CellOutput × List UInt8) × Nat) :=
  (tx.outputs.zip tx.outputsData).zipIdx

/-- Verify and apply one transaction. -/
def applyTransaction (blake3 : List UInt8 → Hash) (state : CellStateTree hashes) (tx : CellTx)
    (context : StateTransitionContext) (verifier : CellScriptVerifier) :
    Except StateTransitionError (StateTransitionReceipt × CellStateTree hashes) := do
  ensure (tx.inputs ≠ [] ∨ context.allowCellbase = true) .unauthorizedCellbase
  let (resolved, inputCapacity) ← resolveInputs state [] 0 tx.inputs
  let txid := computeTxid blake3 tx
  let (created, outputCapacity) ← createEntries state txid context.blockNumber tx.inputs.isEmpty 0
    (numberedOutputs tx)
  ensure (tx.inputs = [] ∨ outputCapacity ≤ inputCapacity)
    (.insufficientInputCapacity inputCapacity outputCapacity)
  let cycles ← (verifier tx resolved).mapError .scriptVerification
  let next := (state.removeAll (resolved.map (·.outpoint))).insertAll created
  pure (⟨txid, state.root.1, next.root.1, resolved.map (·.outpoint), created.map (·.1),
    if outputCapacity ≤ inputCapacity then inputCapacity - outputCapacity else 0, cycles⟩, next)

/-! ## What an accepted transaction did -/

variable {resolved : List ResolvedStateInput}

section Accepted

variable {blake3 : List UInt8 → Hash} {state next : CellStateTree hashes} {tx : CellTx}
  {context : StateTransitionContext} {verifier : CellScriptVerifier}
  {receipt : StateTransitionReceipt}

lemma resolveInputs_ok (h : resolveInputs state seen capacity inputs = .ok (resolved, total)) :
    resolved.map (·.outpoint) = inputs.map (·.previousOutput) ∧
    (resolved.map (·.outpoint)).Nodup ∧ (∀ input ∈ resolved, input.outpoint ∉ seen) ∧
    (∀ input ∈ resolved, state.cells.get? input.outpoint = some input.cell) ∧
    total.toNat = capacity.toNat + (resolved.map (·.cell.capacity.toNat)).sum := by
  induction inputs generalizing seen capacity resolved with
  | nil =>
    obtain ⟨rfl, rfl⟩ := Prod.mk.inj (Except.ok.inj h)
    simp
  | cons input rest ih =>
    simp only [resolveInputs, eq_ok, Prod.exists] at h
    obtain ⟨hnew, cell, hcell, sum, hsum, tail, last, htail, heq⟩ := h
    obtain ⟨rfl, rfl⟩ := Prod.mk.inj heq
    obtain ⟨hpoints, hnodup, hseen, hlive, htotal⟩ := ih htail
    refine ⟨by rw [List.map_cons, List.map_cons, hpoints], ?_, ?_, ?_, ?_⟩
    · refine List.nodup_cons.mpr ⟨fun hmem => ?_, hnodup⟩
      obtain ⟨later, hlater, hsame⟩ := List.mem_map.mp hmem
      exact hseen later hlater (hsame ▸ List.mem_cons_self)
    · refine List.forall_mem_cons.mpr ⟨hnew, fun later hlater hold => ?_⟩
      exact hseen later hlater (List.mem_cons_of_mem _ hold)
    · exact List.forall_mem_cons.mpr ⟨hcell, hlive⟩
    · rw [htotal, checkedAdd_eq_some.mp hsum, List.map_cons, List.sum_cons, Nat.add_assoc]

lemma createEntries_ok
    (h : createEntries state txid blockNumber isCellbase capacity outputs = .ok (created, total)) :
    created = outputs.map (createdCell hashes txid blockNumber isCellbase) ∧
    (∀ cell ∈ created, state.cells.get? cell.1 = none) ∧
    total.toNat = capacity.toNat + (created.map (·.2.capacity.toNat)).sum := by
  induction outputs generalizing capacity created with
  | nil =>
    obtain ⟨rfl, rfl⟩ := Prod.mk.inj (Except.ok.inj h)
    simp
  | cons output rest ih =>
    simp only [createEntries, eq_ok, Prod.exists] at h
    obtain ⟨_, sum, hsum, hfresh, tail, last, htail, heq⟩ := h
    obtain ⟨rfl, rfl⟩ := Prod.mk.inj heq
    obtain ⟨hcreated, hall, htotal⟩ := ih htail
    refine ⟨by rw [List.map_cons, hcreated], List.forall_mem_cons.mpr ⟨hfresh, hall⟩, ?_⟩
    rw [htotal, checkedAdd_eq_some.mp hsum, List.map_cons, List.sum_cons, Nat.add_assoc]
    rfl

lemma CellStateTree.cells_remove (state : CellStateTree hashes) (outpoint : OutPoint) :
    (state.remove outpoint).2.cells = state.cells.erase outpoint := by
  unfold CellStateTree.remove
  split
  · rename_i hnone
    exact (SortedMap.erase_of_get?_none hnone).symm
  · rfl

lemma CellStateTree.cells_removeAll (state : CellStateTree hashes) (outpoints : List OutPoint) :
    (state.removeAll outpoints).cells = state.cells.eraseAll outpoints := by
  induction outpoints generalizing state with
  | nil => rfl
  | cons outpoint rest ih =>
    rw [removeAll, List.foldl_cons, ← removeAll, ih, cells_remove]
    rfl

/-- An accepted transaction: what it resolved, what it created, and what is left. -/
structure Applied (blake3 : List UInt8 → Hash) (state next : CellStateTree hashes) (tx : CellTx)
    (context : StateTransitionContext) (verifier : CellScriptVerifier)
    (resolved : List ResolvedStateInput) (created : List (OutPoint × CellEntry)) : Prop where
  inputs : resolved.map (·.outpoint) = tx.inputs.map (·.previousOutput)
  distinct : (resolved.map (·.outpoint)).Nodup
  live : ∀ input ∈ resolved, state.cells.get? input.outpoint = some input.cell
  outputs : created = (numberedOutputs tx).map
    (createdCell hashes (computeTxid blake3 tx) context.blockNumber tx.inputs.isEmpty)
  fresh : ∀ cell ∈ created, state.cells.get? cell.1 = none
  verified : ∃ cycles, verifier tx resolved = .ok cycles
  cells : next.cells = (state.cells.eraseAll (resolved.map (·.outpoint))).insertAll created

/-- What the receipt says of an accepted transaction.  The capacities are sums of natural numbers:
    the checked additions of the source leave nothing to wrap around. -/
structure Receipted (blake3 : List UInt8 → Hash) (tx : CellTx) (verifier : CellScriptVerifier)
    (resolved : List ResolvedStateInput) (created : List (OutPoint × CellEntry))
    (receipt : StateTransitionReceipt) : Prop where
  txid : receipt.txid = computeTxid blake3 tx
  consumed : receipt.consumed = resolved.map (·.outpoint)
  listed : receipt.created = created.map (·.1)
  cycles : verifier tx resolved = .ok receipt.cycles
  bounded : (resolved.map (·.cell.capacity.toNat)).sum < 2 ^ 64
  covered : tx.inputs ≠ [] →
    (created.map (·.2.capacity.toNat)).sum ≤ (resolved.map (·.cell.capacity.toNat)).sum
  fee : receipt.fee.toNat =
    (resolved.map (·.cell.capacity.toNat)).sum - (created.map (·.2.capacity.toNat)).sum

lemma applyTransaction_receipted
    (h : applyTransaction blake3 state tx context verifier = .ok (receipt, next)) :
    ∃ resolved created, Applied blake3 state next tx context verifier resolved created ∧
      Receipted blake3 tx verifier resolved created receipt := by
  simp only [applyTransaction, eq_ok, Prod.exists, Prod.mk.injEq] at h
  obtain ⟨_, resolved, inputs, hresolved, created, outputs, hcreated, hcovered, cycles, hcycles, rfl,
    rfl⟩ := h
  obtain ⟨hinputs, hdistinct, _, hlive, hinputSum⟩ := resolveInputs_ok hresolved
  obtain ⟨houtputs, hfresh, houtputSum⟩ := createEntries_ok hcreated
  rw [UInt64.toNat_zero, Nat.zero_add] at hinputSum houtputSum
  refine ⟨resolved, created, ⟨hinputs, hdistinct, hlive, houtputs, hfresh, ⟨cycles, hcycles⟩, ?_⟩,
    ⟨rfl, rfl, rfl, hcycles, ?_, fun hordinary => ?_, ?_⟩⟩
  · rw [CellStateTree.cells_insertAll, CellStateTree.cells_removeAll]
  · rw [← hinputSum]
    exact inputs.toNat_lt
  · rw [← hinputSum, ← houtputSum]
    exact hcovered.resolve_left hordinary
  · rw [← hinputSum, ← houtputSum]
    split_ifs with hle
    · exact UInt64.toNat_sub_of_le _ _ hle
    · rw [UInt64.toNat_zero]
      have hlt : inputs.toNat < outputs.toNat := UInt64.not_le.mp hle
      omega

lemma applyTransaction_eq_ok
    (h : applyTransaction blake3 state tx context verifier = .ok (receipt, next)) :
    ∃ resolved created, Applied blake3 state next tx context verifier resolved created := by
  obtain ⟨resolved, created, happlied, -⟩ := applyTransaction_receipted h
  exact ⟨resolved, created, happlied⟩

section

variable (h : Applied blake3 state next tx context verifier resolved created)
  (hfits : tx.outputs.length ≤ 2 ^ 32)
include h hfits

/-- Outputs numbered by 32-bit words become different cells. -/
lemma Applied.nodup_created : (created.map (·.1)).Nodup := by
  rw [h.outputs, List.map_map]
  have hindex : ((numberedOutputs tx).map (·.2)).Nodup := by
    rw [numberedOutputs, List.zipIdx_map_snd]
    exact List.nodup_range'
  refine (List.nodup_map_iff_inj_on ?_).mpr ?_
  · exact hindex.of_map
  · intro a ha b hb hsame
    have hbound : ∀ output ∈ numberedOutputs tx, output.2 < 2 ^ 32 := by
      intro output houtput
      have hlt := List.snd_lt_of_mem_zipIdx houtput
      rw [List.length_zip] at hlt
      omega
    have hword := congrArg (fun point : OutPoint => point.index.toNat) hsame
    simp only [Function.comp_apply, createdCell, UInt32.toNat_ofNat',
      Nat.mod_eq_of_lt (hbound a ha), Nat.mod_eq_of_lt (hbound b hb)] at hword
    exact List.inj_on_of_nodup_map hindex ha hb hword

/-- **Live cells afterwards**: the created ones, and the old ones that were not consumed. -/
theorem Applied.mem_cells_next :
    cell ∈ next.cells.entries ↔ cell ∈ created ∨
      cell ∈ state.cells.entries ∧ cell.1 ∉ resolved.map (·.outpoint) := by
  rw [h.cells, SortedMap.mem_insertAll (h.nodup_created hfits)]
  refine or_congr_right ?_
  have hkept : cell ∈ (state.cells.eraseAll (resolved.map (·.outpoint))).entries ↔
      cell ∈ state.cells.entries ∧ cell.1 ∉ resolved.map (·.outpoint) := by
    obtain ⟨outpoint, entry⟩ := cell
    rw [← SortedMap.get?_eq_some, ← SortedMap.get?_eq_some]
    by_cases hmem : outpoint ∈ resolved.map (·.outpoint)
    · rw [SortedMap.get?_eraseAll_of_mem hmem]
      exact iff_of_false nofun fun hboth => hboth.2 hmem
    · rw [SortedMap.get?_eraseAll hmem]
      exact (and_iff_left hmem).symm
  rw [hkept]
  refine and_iff_left_of_imp fun hold other hother hsame => ?_
  -- a created outpoint was not live before
  have hnone := h.fresh other hother
  rw [← hsame, SortedMap.get?_eq_some.mpr hold.1] at hnone
  cases hnone

end

end Accepted

end Myelin.State
