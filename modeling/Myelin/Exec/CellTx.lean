/-
  Transactions over cells: inputs, dependencies, outputs with their data.

  Inputs and dependencies name cells by outpoint only; what the cells hold comes from a live-cell
  tree (`State.Transition`) or from resolved evidence (`Ckb.Context`).  A dependency of type
  `depGroup` names a cell whose DATA lists further dependencies, so which cells a transaction
  depends on is not a function of the transaction alone.
-/
import Myelin.Exec.Molecule

namespace Myelin.Exec

open Lib

/-- Cell input reference. -/
structure CellInput where
  previousOutput : OutPoint
  since : UInt64
  deriving DecidableEq

/-- Dependency type. -/
inductive DepType where
  /-- A single cell as script code. -/
  | code
  /-- A cell that contains outpoints. -/
  | depGroup
  deriving DecidableEq

/-- Cell dependency. -/
structure CellDep where
  outPoint : OutPoint
  depType : DepType
  deriving DecidableEq

/-- Cell transaction. -/
structure CellTx where
  version : UInt32
  inputs : List CellInput
  cellDeps : List CellDep
  headerDeps : List (FixedBytes 32)
  outputs : List CellOutput
  outputsData : List (List UInt8)
  witnesses : List (List UInt8)
  deriving DecidableEq

/-- New transactions always have this version. -/
def cellTxVersion : UInt32 := 0

namespace CellTx

/-- A transaction with explicit header dependencies. -/
def newWithHeaderDeps (inputs : List CellInput) (cellDeps : List CellDep)
    (headerDeps : List (FixedBytes 32)) (outputs : List CellOutput)
    (outputsData witnesses : List (List UInt8)) : Except String CellTx := do
  ensure (outputs.length = outputsData.length) "outputs and outputs_data length mismatch"
  pure ⟨cellTxVersion, inputs, cellDeps, headerDeps, outputs, outputsData, witnesses⟩

/-- A transaction without header dependencies. -/
def new (inputs : List CellInput) (cellDeps : List CellDep) (outputs : List CellOutput)
    (outputsData witnesses : List (List UInt8)) : Except String CellTx :=
  newWithHeaderDeps inputs cellDeps [] outputs outputsData witnesses

end CellTx

/-! ## Transaction identity -/

/-- `DepType as u8`. -/
def DepType.toByte : DepType → UInt8
  | .code => 0
  | .depGroup => 1

/-- Code hash, hash type and arguments with their length. -/
def scriptBody (script : Script) : List UInt8 :=
  script.codeHash.val ++ [script.hashType] ++ leBytes 4 script.args.length ++ script.args

/-- Lock, flagged type script and capacity. -/
def outputBody (output : CellOutput) : List UInt8 :=
  scriptBody output.lock ++ (match output.type_ with
      | some typeScript => 1 :: scriptBody typeScript
      | none => [0]) ++
    le64 output.capacity

/-- Everything of a transaction but its witnesses, with 32-bit counts. -/
def transactionBody (tx : CellTx) : List UInt8 :=
  le32 tx.version ++ leBytes 4 tx.inputs.length ++
    tx.inputs.flatMap (fun input => input.previousOutput.toKey ++ le64 input.since) ++
    leBytes 4 tx.cellDeps.length ++
    tx.cellDeps.flatMap (fun dep => dep.outPoint.toKey ++ [dep.depType.toByte]) ++
    leBytes 4 tx.headerDeps.length ++ tx.headerDeps.flatMap (·.val) ++
    leBytes 4 tx.outputs.length ++ tx.outputs.flatMap outputBody ++
    tx.outputsData.flatMap (fun data => leBytes 4 data.length ++ data)

/-- Transaction id: the BLAKE3 hash of the body under its domain. -/
def computeTxid (blake3 : List UInt8 → FixedBytes 32) (tx : CellTx) : FixedBytes 32 :=
  blake3 (utf8 "myelin-cell/txid" ++ transactionBody tx)

/-- What `compute_txid` hashes. -/
def txidPreimage (tx : CellTx) : List UInt8 := utf8 "myelin-cell/txid" ++ transactionBody tx

/-- What `compute_wtxid` hashes: the same body under another domain, and the witnesses. -/
def wtxidPreimage (tx : CellTx) : List UInt8 :=
  utf8 "myelin-cell/wtxid" ++ transactionBody tx ++ leBytes 4 tx.witnesses.length ++
    tx.witnesses.flatMap (fun witness => leBytes 4 witness.length ++ witness)

def computeWtxid (blake3 : List UInt8 → FixedBytes 32) (tx : CellTx) : FixedBytes 32 :=
  blake3 (wtxidPreimage tx)

/-! ## Capacity -/

/-- The declared capacity is below what the cell occupies. -/
inductive CapacityError where
  | insufficientCapacity (required available : UInt64)
  deriving DecidableEq

namespace CellOutput

/-- Bytes an output occupies with `dataLen` bytes of data: capacity, lock, type and data. -/
def occupiedCapacity (output : CellOutput) (dataLen : Nat) : UInt64 :=
  UInt64.ofNat (8 + (32 + 1 + output.lock.args.length) + (match output.type_ with
      | some typeScript => 32 + 1 + typeScript.args.length
      | none => 0) + dataLen)

/-- An output's capacity covers what it occupies. -/
def verifyCapacity (output : CellOutput) (dataLen : Nat) : Except CapacityError Unit :=
  ensure (output.occupiedCapacity dataLen ≤ output.capacity)
    (.insufficientCapacity (output.occupiedCapacity dataLen) output.capacity)

end CellOutput

/-! ## Size -/

/-- Estimated bytes of an output: lock, flagged type script and capacity. -/
def CellOutput.estimatedSize (output : CellOutput) : Nat :=
  (32 + 1 + 8) + output.lock.args.length + (match output.type_ with
      | some typeScript => (1 + 32 + 1 + 8) + typeScript.args.length
      | none => 1) + 8

/-- `cell_tx_estimated_serialized_size`; a transaction in memory is below 2 ^ 64 bytes. -/
def CellTx.serializedSize (tx : CellTx) : UInt64 :=
  UInt64.ofNat (2 + (8 + 44 * tx.inputs.length) + (8 + 37 * tx.cellDeps.length) +
    (8 + 32 * tx.headerDeps.length) + (8 + (tx.outputs.map (·.estimatedSize)).sum) +
    (8 + (tx.outputsData.map (8 + ·.length)).sum) + (8 + (tx.witnesses.map (8 + ·.length)).sum))

end Myelin.Exec
