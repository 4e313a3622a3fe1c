/-
  The ledger cell over whole runs.

  Nothing in the state says that there is only one ledger cell.  The verifier looks at one
  transaction: the inputs and outputs that carry the ledger's type script must be none at all, or
  one of each with the second a valid successor of the first.  Together with the engine's rules
  (inputs are distinct live cells, outputs were not live) that is an invariant:
  **`escrow_ledger_invariant`**, over any number of submissions, whatever the delegated verifier and
  the application binding answer at each of them.
-/
import Myelin.Escrow.State
import Myelin.State.Transition

namespace Myelin.Escrow

open Lib Exec Consensus State
open FixedBytes (fill)

/-- Application-owned binding between economic changes and application state. -/
abbrev EscrowApplicationBinding := EscrowTerms → CellTx → List ResolvedStateInput → Except String Unit

/-- Verifier that also enforces the escrow rules. -/
structure EscrowCellVerifier where
  terms : EscrowTerms
  delegate : CellScriptVerifier
  application : EscrowApplicationBinding

/-- Inputs with the ledger's type script. -/
def ledgerInputs (terms : EscrowTerms) (inputs : List ResolvedStateInput) :
    List ResolvedStateInput :=
  inputs.filter fun input => input.cell.typeScript = some terms.ledgerTypeScript

/-- Outputs with the ledger's type script, with their data. -/
def ledgerOutputs (terms : EscrowTerms) (tx : CellTx) : List (CellOutput × List UInt8) :=
  (tx.outputs.zip tx.outputsData).filter fun output =>
    output.1.type_ = some terms.ledgerTypeScript

namespace EscrowCellVerifier

/-- The ledger cell is left alone, or replaced by a valid successor under the same lock with the
    same capacity. -/
def verifyEscrowTransition (crypto : Crypto) (terms : EscrowTerms) (tx : CellTx)
    (inputs : List ResolvedStateInput) : Except EscrowError Unit :=
  match ledgerInputs terms inputs, ledgerOutputs terms tx with
  | [], [] => .ok ()
  | [input], [(output, outputData)] => do
      let inputData ← okOr input.cell.data
        (EscrowError.invalidTransition "escrow input is missing full data")
      let inputLock ← okOr input.cell.lockScript
        (EscrowError.invalidTransition "escrow input is missing full lock script")
      ensure (output.lock = inputLock ∧ output.capacity = input.cell.capacity)
        (EscrowError.invalidTransition "ledger Cell lock and capacity must be preserved")
      let previous ← EscrowState.decode inputData
      let next ← EscrowState.decode outputData
      previous.validateSuccessor crypto next terms
  | _, _ => .error (.invalidTransition
      "an escrow update must consume and create exactly one ledger Cell")

/-- The delegate, then the escrow rules, then the application. -/
def verify (crypto : Crypto) (verifier : EscrowCellVerifier) : CellScriptVerifier :=
  fun tx resolvedInputs => do
    let cycles ← verifier.delegate tx resolvedInputs
    (verifyEscrowTransition crypto verifier.terms tx resolvedInputs).mapError EscrowError.display
    verifier.application verifier.terms tx resolvedInputs
    pure cycles

end EscrowCellVerifier

variable {F : Type} [CommGroup F] {hashes : CellHashes F}

/-- One call of the engine.  Outputs are numbered by 32-bit words, and the ports may answer
    differently at every call. -/
structure Submission where
  tx : CellTx
  fits : tx.outputs.length ≤ 2 ^ 32
  context : StateTransitionContext
  delegate : CellScriptVerifier
  application : EscrowApplicationBinding

variable (crypto : Crypto) (terms : EscrowTerms) (tree : CellStateTree hashes)

/-- Apply a submission; a rejected one leaves the state as it is. -/
def submit (submission : Submission) : CellStateTree hashes :=
  match applyTransaction crypto.blake3 tree submission.tx submission.context
    (EscrowCellVerifier.verify crypto ⟨terms, submission.delegate, submission.application⟩) with
  | .ok (_, next) => next
  | .error _ => tree

/-- Submissions one after another. -/
def run (submissions : List Submission) : CellStateTree hashes :=
  submissions.foldl (submit crypto terms) tree

/-! ## The ledger cell -/

/-- A live cell with the ledger's type script. -/
def isLedger (cell : OutPoint × CellEntry) : Bool :=
  cell.2.typeScript = some terms.ledgerTypeScript

/-- The only ledger cell of a tree and the valid state it holds. -/
structure LedgerAt (cell : OutPoint × CellEntry) (state : EscrowState) : Prop where
  only : tree.cells.entries.filter (isLedger terms) = [cell]
  decoded : ∃ bytes, cell.2.data = some bytes ∧ EscrowState.decode bytes = .ok state
  valid : state.validate crypto terms = .ok ()

/-- Two ledger cells with the same lock, type and capacity. -/
def SameCell (cell cell' : OutPoint × CellEntry) : Prop :=
  cell'.2.lockScript = cell.2.lockScript ∧ cell'.2.typeScript = cell.2.typeScript ∧
    cell'.2.capacity = cell.2.capacity

/-- What one submission does to the ledger: nothing, or one update. -/
def LedgerStep (cell cell' : OutPoint × CellEntry) (state state' : EscrowState) : Prop :=
  (cell' = cell ∧ state' = state) ∨ (cell'.1 ≠ cell.1 ∧ state.Succeeds crypto state')

section Step

variable {crypto terms tree} {next : CellStateTree hashes}
  {cell : OutPoint × CellEntry} {state : EscrowState} {tx : CellTx}
  {inputs resolved : List ResolvedStateInput} {created : List (OutPoint × CellEntry)}
  {context : StateTransitionContext} {verifier : EscrowCellVerifier}

/-- The two shapes the verifier accepts. -/
lemma verifyEscrowTransition_ok
    (h : EscrowCellVerifier.verifyEscrowTransition crypto terms tx inputs = .ok ()) :
    (ledgerInputs terms inputs = [] ∧ ledgerOutputs terms tx = []) ∨
    ∃ input output previous bytes state',
      ledgerInputs terms inputs = [input] ∧ ledgerOutputs terms tx = [output] ∧
      input.cell.data = some bytes ∧ EscrowState.decode bytes = .ok previous ∧
      input.cell.lockScript = some output.1.lock ∧ output.1.capacity = input.cell.capacity ∧
      EscrowState.decode output.2 = .ok state' ∧
      previous.validateSuccessor crypto state' terms = .ok () := by
  unfold EscrowCellVerifier.verifyEscrowTransition at h
  split at h
  · rename_i hinputs houtputs
    exact .inl ⟨hinputs, houtputs⟩
  · rename_i input output outputData hinputs houtputs
    simp only [eq_ok] at h
    obtain ⟨bytes, hbytes, lock, hlock, ⟨rfl, hcapacity⟩, previous, hprevious, state', hstate',
      hsuccessor⟩ := h
    exact .inr ⟨input, (output, outputData), previous, bytes, state', hinputs, houtputs, hbytes,
      hprevious, hlock, hcapacity, hstate', hsuccessor⟩
  · cases h

/-- Exactly one ledger cell, said with membership. -/
lemma filter_isLedger_eq_iff :
    tree.cells.entries.filter (isLedger terms) = [cell] ↔
      ∀ c, c ∈ tree.cells.entries ∧ isLedger terms c = true ↔ c = cell := by
  have hmem : ∀ c, c ∈ tree.cells.entries.filter (isLedger terms) ↔
      c ∈ tree.cells.entries ∧ isLedger terms c = true := fun c => List.mem_filter
  constructor
  · intro honly c
    rw [← hmem, honly, List.mem_singleton]
  · intro honly
    have hnodup := (SortedMap.nodup_entries tree.cells).filter (isLedger terms)
    refine List.perm_singleton.mp ?_
    refine (List.perm_ext_iff_of_nodup hnodup (List.nodup_singleton _)).mpr fun c => ?_
    rw [hmem, honly, List.mem_singleton]

variable {accepts : CellScriptVerifier}
  (happlied : Applied crypto.blake3 tree next tx context accepts resolved created)

include happlied

/-- The created ledger cells come one by one from the ledger outputs. -/
lemma filter_isLedger_created (terms : EscrowTerms) :
    ∃ numbered : List ((CellOutput × List UInt8) × Nat), numbered.map (·.1) = ledgerOutputs terms tx ∧
      created.filter (isLedger terms) = numbered.map (createdCell hashes
        (computeTxid crypto.blake3 tx) context.blockNumber tx.inputs.isEmpty) := by
  refine ⟨(numberedOutputs tx).filter fun output =>
    output.1.1.type_ = some terms.ledgerTypeScript, ?_, ?_⟩
  · have hzip : (numberedOutputs tx).map Prod.fst = tx.outputs.zip tx.outputsData :=
      List.zipIdx_map_fst _ _
    rw [ledgerOutputs, ← hzip, List.filter_map]
    rfl
  · rw [happlied.outputs, List.filter_map]
    rfl

section

variable (h : LedgerAt crypto terms tree cell state)
include h

/-- A resolved input is a ledger input exactly if it is the ledger cell. -/
lemma mem_ledgerInputs (hinput : input ∈ resolved) :
    input ∈ ledgerInputs terms resolved ↔ (input.outpoint, input.cell) = cell := by
  have hlive := SortedMap.get?_eq_some.mp (happlied.live input hinput)
  rw [← filter_isLedger_eq_iff.mp h.only, ledgerInputs, List.mem_filter]
  exact ⟨fun hboth => ⟨hlive, hboth.2⟩, fun hboth => ⟨hinput, hboth.2⟩⟩

/-- Without ledger inputs and outputs the ledger cell stays where it is. -/
lemma LedgerAt.untouched (hfits : tx.outputs.length ≤ 2 ^ 32)
    (hinputs : ledgerInputs terms resolved = []) (houtputs : ledgerOutputs terms tx = []) :
    LedgerAt crypto terms next cell state := by
  have honly := filter_isLedger_eq_iff.mp h.only
  have hcell := (honly cell).mpr rfl
  have hkept : cell.1 ∉ resolved.map (·.outpoint) := by
    intro hmem
    obtain ⟨input, hinput, hpoint⟩ := List.mem_map.mp hmem
    have hlive := SortedMap.get?_eq_some.mp (happlied.live input hinput)
    have hsame : input.cell = cell.2 := SortedMap.value_unique hlive (hpoint ▸ hcell.1)
    have hledger := (mem_ledgerInputs happlied h hinput).mpr (Prod.ext hpoint hsame)
    rw [hinputs] at hledger
    exact absurd hledger List.not_mem_nil
  obtain ⟨numbered, hnumbered, hcreated⟩ := filter_isLedger_created happlied terms
  rw [houtputs, List.map_eq_nil_iff] at hnumbered
  rw [hnumbered, List.map_nil] at hcreated
  refine ⟨filter_isLedger_eq_iff.mpr fun c => ?_, h.decoded, h.valid⟩
  rw [happlied.mem_cells_next hfits]
  constructor
  · rintro ⟨hnew | ⟨hold, _⟩, hledger⟩
    · have hfilter := List.mem_filter.mpr ⟨hnew, hledger⟩
      rw [hcreated] at hfilter
      exact absurd hfilter List.not_mem_nil
    · exact (honly c).mp ⟨hold, hledger⟩
  · rintro rfl
    exact ⟨.inr ⟨hcell.1, hkept⟩, hcell.2⟩

/-- The one ledger output of a transaction whose one ledger input is the cell replaces it. -/
lemma LedgerAt.replaced (hfits : tx.outputs.length ≤ 2 ^ 32)
    (hinputs : ledgerInputs terms resolved = [input])
    (houtputs : ledgerOutputs terms tx = [output]) :
    (input.outpoint, input.cell) = cell ∧ ∃ cell', cell'.1 ≠ cell.1 ∧
      next.cells.entries.filter (isLedger terms) = [cell'] ∧
      cell'.2 = CellEntry.fromOutput hashes output.1 output.2 context.blockNumber
        tx.inputs.isEmpty := by
  have honly := filter_isLedger_eq_iff.mp h.only
  have hcell := (honly cell).mpr rfl
  have hledger : input ∈ ledgerInputs terms resolved := hinputs ▸ List.mem_singleton_self input
  have hinput : input ∈ resolved := List.mem_of_mem_filter hledger
  have hconsumed := (mem_ledgerInputs happlied h hinput).mp hledger
  obtain ⟨numbered, hnumbered, hcreated⟩ := filter_isLedger_created happlied terms
  rw [houtputs] at hnumbered
  obtain ⟨source, rfl, rfl⟩ := List.map_eq_singleton_iff.mp hnumbered
  rw [List.map_singleton] at hcreated
  generalize hnew : createdCell hashes (computeTxid crypto.blake3 tx) context.blockNumber
    tx.inputs.isEmpty source = cell' at hcreated
  have hcell' : cell' ∈ created ∧ isLedger terms cell' = true :=
    List.mem_filter.mp (hcreated ▸ List.mem_singleton_self cell')
  refine ⟨hconsumed, cell', ?_, filter_isLedger_eq_iff.mpr fun c => ?_, by rw [← hnew]; rfl⟩
  · intro hsame
    have hfresh := happlied.fresh cell' hcell'.1
    rw [hsame, SortedMap.get?_eq_some.mpr hcell.1] at hfresh
    cases hfresh
  · rw [happlied.mem_cells_next hfits]
    constructor
    · rintro ⟨hmade | ⟨hold, hleft⟩, hc⟩
      · have hfilter := List.mem_filter.mpr ⟨hmade, hc⟩
        rwa [hcreated, List.mem_singleton] at hfilter
      · rw [(honly c).mp ⟨hold, hc⟩, ← hconsumed] at hleft
        exact absurd (List.mem_map.mpr ⟨input, hinput, rfl⟩) hleft
    · rintro rfl
      exact ⟨.inl hcell'.1, hcell'.2⟩

omit happlied in
/-- **One step**: an accepted transaction leaves the ledger cell alone or replaces it by a cell that
    holds a valid successor. -/
theorem LedgerAt.step
    (happlied : Applied crypto.blake3 tree next tx context (EscrowCellVerifier.verify crypto
      verifier) resolved created) (hterms : verifier.terms = terms)
    (hfits : tx.outputs.length ≤ 2 ^ 32) :
    ∃ cell' state', LedgerAt crypto terms next cell' state' ∧ SameCell cell cell' ∧
      LedgerStep crypto cell cell' state state' := by
  obtain ⟨cycles, hverified⟩ := happlied.verified
  simp only [EscrowCellVerifier.verify, eq_ok, hterms] at hverified
  obtain ⟨_, _, hescrow, _⟩ := hverified
  rcases verifyEscrowTransition_ok hescrow with ⟨hinputs, houtputs⟩ |
    ⟨input, output, previous, bytes, state', hinputs, houtputs, hbytes, hprevious, hlock, hcapacity,
      hdecoded, hsuccessor⟩
  · exact ⟨cell, state, h.untouched happlied hfits hinputs houtputs, ⟨rfl, rfl, rfl⟩,
      .inl ⟨rfl, rfl⟩⟩
  · obtain ⟨rfl, cell', hmoved, honly, hentry⟩ := h.replaced happlied hfits hinputs houtputs
    obtain ⟨_, hvalid', hsucceeds⟩ := EscrowState.validateSuccessor_ok hsuccessor
    -- the state the verifier decoded is the one the cell was known to hold
    obtain rfl : previous = state := by
      obtain ⟨held, hheld, hstate⟩ := h.decoded
      rw [hbytes, Option.some_inj] at hheld
      rw [hheld, hstate, Except.ok.injEq] at hprevious
      exact hprevious.symm
    have htype : output.1.type_ = some terms.ledgerTypeScript := by
      have houtput : output ∈ ledgerOutputs terms tx := houtputs ▸ List.mem_singleton_self output
      exact of_decide_eq_true (List.mem_filter.mp houtput).2
    have hold : input.cell.typeScript = some terms.ledgerTypeScript := by
      have hcell := (filter_isLedger_eq_iff.mp h.only _).mpr rfl
      exact of_decide_eq_true hcell.2
    refine ⟨cell', state', ⟨honly, ⟨output.2, by rw [hentry]; rfl, hdecoded⟩, hvalid'⟩, ?_,
      .inr ⟨hmoved, hsucceeds⟩⟩
    rw [SameCell, hentry]
    exact ⟨hlock.symm, htype.trans hold.symm, hcapacity⟩

end

end Step

/-! ## Runs -/

section Run

variable {crypto terms tree} {cell : OutPoint × CellEntry} {state : EscrowState}

lemma LedgerAt.submit (h : LedgerAt crypto terms tree cell state) (submission : Submission) :
    ∃ cell' state', LedgerAt crypto terms (Escrow.submit crypto terms tree submission) cell' state' ∧
      SameCell cell cell' ∧ LedgerStep crypto cell cell' state state' := by
  unfold Escrow.submit
  split
  · rename_i receipt next happly
    obtain ⟨resolved, created, happlied⟩ := applyTransaction_eq_ok happly
    exact h.step happlied rfl submission.fits
  · exact ⟨cell, state, h, ⟨rfl, rfl, rfl⟩, .inl ⟨rfl, rfl⟩⟩

lemma SameCell.trans (h : SameCell first second) (h' : SameCell second third) :
    SameCell first third :=
  ⟨h'.1.trans h.1, h'.2.1.trans h.2.1, h'.2.2.trans h.2.2⟩

lemma LedgerAt.run (h : LedgerAt crypto terms tree cell state) (submissions : List Submission) :
    ∃ cell' state', LedgerAt crypto terms (Escrow.run crypto terms tree submissions) cell' state' ∧
      SameCell cell cell' := by
  induction submissions generalizing tree cell state with
  | nil => exact ⟨cell, state, h, rfl, rfl, rfl⟩
  | cons submission rest ih =>
    obtain ⟨cell₁, state₁, h₁, hsame, _⟩ := h.submit submission
    obtain ⟨cell₂, state₂, h₂, hsame₂⟩ := ih h₁
    exact ⟨cell₂, state₂, h₂, hsame.trans hsame₂⟩

/-- **The escrow ledger over whole runs.**  After any submissions there is exactly one ledger cell,
    it holds a valid state, its lock, type and capacity are those of the first one; and the next
    submission either leaves cell and state alone or replaces them by the next epoch, linked to the
    hash of the state before. -/
theorem escrow_ledger_invariant (h : LedgerAt crypto terms tree cell state)
    (submissions : List Submission) (submission : Submission) :
    ∃ cell₁ state₁ cell₂ state₂,
      LedgerAt crypto terms (run crypto terms tree submissions) cell₁ state₁ ∧
      LedgerAt crypto terms (run crypto terms tree (submissions ++ [submission])) cell₂ state₂ ∧
      state₁.Valid crypto terms ∧ state₂.Valid crypto terms ∧
      SameCell cell cell₁ ∧ SameCell cell cell₂ ∧ LedgerStep crypto cell₁ cell₂ state₁ state₂ := by
  obtain ⟨cell₁, state₁, h₁, hsame₁⟩ := h.run submissions
  obtain ⟨cell₂, state₂, h₂, hsame₂, hstep⟩ := h₁.submit submission
  have hlast : run crypto terms tree (submissions ++ [submission]) =
      submit crypto terms (run crypto terms tree submissions) submission := List.foldl_concat ..
  refine ⟨cell₁, state₁, cell₂, state₂, h₁, hlast ▸ h₂, ?_, ?_, hsame₁, hsame₁.trans hsame₂, hstep⟩
  · exact EscrowState.valid_of_validate h₁.valid
  · exact EscrowState.valid_of_validate h₂.valid

end Run

/-! Two participants, and an update that moves a tenth of one deposit to the other. -/

/-- Hashes are the last 32 bytes. -/
def tailCrypto : Crypto := .accepting tailBytes

def tailCellHashes : CellHashes (Multiplicative ℤ) where
  ckbBlake2b256 := tailCrypto.ckbBlake2b256
  merkleBranchHash := tailCrypto.blake3
  dataToElement bytes := Multiplicative.ofAdd (ofLeBytes bytes)
  muHashFinalize _ := fill 32 0

def ledgerLock : Script := ⟨fill 32 4, 1, []⟩

def pairTerms : EscrowTerms :=
  ⟨fill 32 9,
    [⟨fill 32 1, [1], fill 32 3, ledgerLock, 10000000000, 6000000000⟩,
      ⟨fill 32 2, [2], fill 32 4, ledgerLock, 10000000000, 6000000000⟩],
    [⟨fill 32 1, ⟨fill 32 7, 0⟩⟩, ⟨fill 32 2, ⟨fill 32 7, 1⟩⟩], .ckbCapacity, 10, 100, 10, 6,
    tailCrypto.ckbBlake2b256 (serializeScriptMolecule ledgerLock), ⟨fill 32 6, 1, [9]⟩⟩

/-- The ledger at some epoch with some balances. -/
def pairState (epoch : UInt64) (previous evidence : Hash32) (first second : U128) : EscrowState :=
  ⟨fill 32 9, tailCrypto.blake3 pairTerms.preimage, epoch, previous,
    [⟨fill 32 1, first⟩, ⟨fill 32 2, second⟩], evidence⟩

def pairGenesis : EscrowState :=
  pairState 0 (fill 32 0) (fill 32 0) 10000000000 10000000000

def stateData (state : EscrowState) : List UInt8 := state.encode.toOption.getD []

def pairUpdated : EscrowState :=
  pairState 1 (tailCrypto.blake3 (utf8 "myelin:session-escrow:state" ++ stateData pairGenesis))
    (fill 32 5) 9000000000 11000000000

def ledgerOutput : CellOutput := ⟨ledgerLock, some pairTerms.ledgerTypeScript, 1000⟩

def ledgerCell : OutPoint × CellEntry :=
  (⟨fill 32 7, 5⟩, CellEntry.fromOutput tailCellHashes ledgerOutput (stateData pairGenesis) 0 true)

def ledgerTree : CellStateTree tailCellHashes :=
  CellStateTree.new.insert ledgerCell.1 ledgerCell.2

def updateTx : CellTx :=
  ⟨0, [⟨ledgerCell.1, 0⟩], [], [], [ledgerOutput], [stateData pairUpdated], []⟩

def updateSubmission : Submission where
  tx := updateTx
  fits := by decide
  context := ⟨1, false⟩
  delegate _ _ := .ok 7
  application _ _ _ := .ok ()

set_option maxRecDepth 8000 in
/-- The update is accepted: the ledger is in the second state afterwards. -/
theorem escrow_ledger_invariant_update :
    LedgerAt tailCrypto pairTerms ledgerTree ledgerCell pairGenesis ∧
    (∃ receipt next, applyTransaction tailCrypto.blake3 ledgerTree updateTx ⟨1, false⟩
      (EscrowCellVerifier.verify tailCrypto
        ⟨pairTerms, updateSubmission.delegate, updateSubmission.application⟩) =
        .ok (receipt, next)) ∧
    ∃ cell₁ state₁ cell₂ state₂,
      LedgerAt tailCrypto pairTerms (run tailCrypto pairTerms ledgerTree []) cell₁ state₁ ∧
      LedgerAt tailCrypto pairTerms (run tailCrypto pairTerms ledgerTree [updateSubmission])
        cell₂ state₂ ∧
      state₁.Valid tailCrypto pairTerms ∧ state₂.Valid tailCrypto pairTerms ∧
      SameCell ledgerCell cell₁ ∧ SameCell ledgerCell cell₂ ∧
      LedgerStep tailCrypto cell₁ cell₂ state₁ state₂ := by
  have hledger : LedgerAt tailCrypto pairTerms ledgerTree ledgerCell pairGenesis :=
    ⟨rfl, ⟨_, rfl, rfl⟩, rfl⟩
  exact ⟨hledger, ⟨_, _, rfl⟩, escrow_ledger_invariant hledger [] updateSubmission⟩

end Myelin.Escrow
