/-
  The live-cell tree and its root.

  The tree keeps four things that must agree: the cells, a leaf hash per cell, a MuHash accumulator
  and a cached root.  All are private in the source and change through `insert`, `remove`, `clear`
  and `root` only, so the agreement is part of the TYPE here (`leaves`, `accumulated`, `cached`) and
  each operation re-establishes it.

  What this buys is **`root_eq`**: the root is a function of the live cells alone.  Neither the
  order of insertions nor cells that came and went leave a trace in it.

  MuHash is a parameter: its accumulator is a fraction over a commutative group (the residues modulo
  the 3072-bit prime), as its documentation has it — removing an element undoes adding it, and the
  order does not matter.
-/
import Mathlib.Algebra.BigOperators.Group.List.Basic
import Myelin.Exec.Molecule
import Myelin.Lib.SortedMap

namespace Myelin.State

open Lib Exec

/-- `myelin_hashes::Hash`. -/
abbrev Hash := FixedBytes 32

/-- The hash functions of the tree, and the group MuHash works in. -/
structure CellHashes (F : Type) where
  /-- CKB-personalised BLAKE2b-256. -/
  ckbBlake2b256 : List UInt8 → Hash
  /-- `MerkleBranchHash`, on the concatenation of what is fed to it. -/
  merkleBranchHash : List UInt8 → Hash
  /-- `data_to_element`: the group element of some bytes. -/
  dataToElement : List UInt8 → F
  /-- Hash of the serialized quotient. -/
  muHashFinalize : F → Hash

/-! ## Cell entries -/

/-- Cell state entry: committed metadata, and the full data it was derived from. -/
structure CellEntry where
  capacity : UInt64
  dataBytes : UInt64
  lockHash : Hash
  typeHash : Option Hash
  dataHash : Hash
  createdBlockNumber : UInt64
  isCellbase : Bool
  lockScript : Option Script
  typeScript : Option Script
  data : Option (List UInt8)
  deriving DecidableEq

variable {F : Type}

section Hashes

variable (hashes : CellHashes F)

/-- Hash of a script's Molecule bytes. -/
def ckbScriptHashMolecule (script : Script) : Hash :=
  hashes.ckbBlake2b256 (serializeScriptMolecule script)

/-- Hash of cell data; empty data has the zero hash. -/
def ckbCellDataHash (data : List UInt8) : Hash :=
  if data.isEmpty then FixedBytes.fill 32 0 else hashes.ckbBlake2b256 data

/-- `u8::from(bool)`. -/
def boolByte (b : Bool) : UInt8 := if b then 1 else 0

namespace CellEntry

/-- Entry of a concrete output: all hashes are derived from it. -/
def fromOutput (output : CellOutput) (data : List UInt8) (createdBlockNumber : UInt64)
    (isCellbase : Bool) : CellEntry where
  capacity := output.capacity
  dataBytes := UInt64.ofNat data.length
  lockHash := ckbScriptHashMolecule hashes output.lock
  typeHash := output.type_.map (ckbScriptHashMolecule hashes)
  dataHash := ckbCellDataHash hashes data
  createdBlockNumber := createdBlockNumber
  isCellbase := isCellbase
  lockScript := some output.lock
  typeScript := output.type_
  data := some data

/-- The committed metadata; full scripts and data are not part of it. -/
def serialize (entry : CellEntry) : List UInt8 :=
  le64 entry.capacity ++ le64 entry.dataBytes ++ entry.lockHash.val ++ (match entry.typeHash with
      | some typeHash => 1 :: typeHash.val
      | none => [0]) ++
    entry.dataHash.val ++ le64 entry.createdBlockNumber ++ [boolByte entry.isCellbase]

/-- Hash of an entry. -/
def hash (entry : CellEntry) : Hash :=
  hashes.merkleBranchHash (utf8 "myelin-cell/entry" ++ entry.serialize)

end CellEntry

/-- Leaf hash of a cell. -/
def computeLeafHash (outpoint : OutPoint) (entry : CellEntry) : Hash :=
  hashes.merkleBranchHash (utf8 "myelin-cell/leaf" ++ outpoint.toKey ++ (entry.hash hashes).val)

end Hashes

/-! ## MuHash -/

/-- Multiplicative hash: what was added over what was removed. -/
structure MuHash (F : Type) where
  numerator : F
  denominator : F
  deriving DecidableEq

namespace MuHash

variable [CommGroup F] (hashes : CellHashes F) (m : MuHash F) (data : List UInt8)

/-- The empty set. -/
def new : MuHash F := ⟨1, 1⟩

/-- Add the element of some data. -/
def addElement : MuHash F :=
  { m with numerator := m.numerator * hashes.dataToElement data }

/-- Remove the element of some data. -/
def removeElement : MuHash F :=
  { m with denominator := m.denominator * hashes.dataToElement data }

/-- The accumulated quotient. -/
def quotient : F := m.numerator / m.denominator

/-- Normalize, serialize and hash. -/
def finalize : Hash := hashes.muHashFinalize m.quotient

@[simp] lemma quotient_new : (new : MuHash F).quotient = 1 := by simp [quotient, new]

@[simp] lemma quotient_addElement :
    (m.addElement hashes data).quotient = hashes.dataToElement data * m.quotient := by
  rw [quotient, quotient, addElement, mul_comm m.numerator, mul_div_assoc]

@[simp] lemma quotient_removeElement :
    (m.removeElement hashes data).quotient = m.quotient / hashes.dataToElement data := by
  rw [quotient, quotient, removeElement, div_mul_eq_div_div]

end MuHash

/-! ## The tree -/

variable [CommGroup F] (hashes : CellHashes F)

/-- The group element of a live cell. -/
def leafElement (cell : OutPoint × CellEntry) : F :=
  hashes.dataToElement (computeLeafHash hashes cell.1 cell.2).val

/-- The product over all live cells. -/
def leafProduct (cells : SortedMap OutPoint CellEntry) : F :=
  (cells.entries.map (leafElement hashes)).prod

lemma leafProduct_of_get? {hashes : CellHashes F} {cells : SortedMap OutPoint CellEntry}
    {outpoint : OutPoint} {entry : CellEntry} (h : cells.get? outpoint = some entry) :
    leafProduct hashes cells =
      leafElement hashes (outpoint, entry) * leafProduct hashes (cells.erase outpoint) := by
  rw [leafProduct, ((SortedMap.perm_cons_erase h).map _).prod_eq, List.map_cons, List.prod_cons,
    ← leafProduct]

lemma leafProduct_insert (cells : SortedMap OutPoint CellEntry) (outpoint : OutPoint)
    (entry : CellEntry) :
    leafProduct hashes (cells.insert outpoint entry) =
      leafElement hashes (outpoint, entry) * leafProduct hashes (cells.erase outpoint) := by
  rw [leafProduct, (SortedMap.insert_perm.map _).prod_eq, List.map_cons, List.prod_cons,
    ← leafProduct]

/-- Live cells with their accumulated commitment. -/
structure CellStateTree where
  cells : SortedMap OutPoint CellEntry
  leafHashes : SortedMap OutPoint Hash
  muhash : MuHash F
  cachedRoot : Option Hash
  leaves : ∀ o, leafHashes.get? o = (cells.get? o).map (computeLeafHash hashes o)
  accumulated : muhash.quotient = leafProduct hashes cells
  cached : ∀ root, cachedRoot = some root → root = muhash.finalize hashes

namespace CellStateTree

variable {hashes}

/-- The empty tree. -/
def new : CellStateTree hashes where
  cells := .empty
  leafHashes := .empty
  muhash := .new
  cachedRoot := none
  leaves _ := rfl
  accumulated := MuHash.quotient_new
  cached := nofun

/-- Insert a cell, or replace it. -/
def insert (t : CellStateTree hashes) (outpoint : OutPoint) (entry : CellEntry) :
    CellStateTree hashes where
  cells := t.cells.insert outpoint entry
  leafHashes := t.leafHashes.insert outpoint (computeLeafHash hashes outpoint entry)
  muhash :=
    (match t.leafHashes.get? outpoint with
      | some oldLeafHash => t.muhash.removeElement hashes oldLeafHash.val
      | none => t.muhash).addElement hashes (computeLeafHash hashes outpoint entry).val
  cachedRoot := none
  leaves o := by
    rw [SortedMap.get?_insert, SortedMap.get?_insert]
    split_ifs with h
    · rw [h, Option.map_some]
    · exact t.leaves o
  accumulated := by
    rw [leafProduct_insert, MuHash.quotient_addElement, leafElement]
    congr 1
    -- the old leaf, if there is one, is divided out again
    rw [t.leaves outpoint]
    cases h : t.cells.get? outpoint with
    | none => rw [Option.map_none, SortedMap.erase_of_get?_none h, t.accumulated]
    | some old =>
      rw [Option.map_some, MuHash.quotient_removeElement, t.accumulated, leafProduct_of_get? h,
        leafElement, mul_div_cancel_left]
  cached := nofun

/-- Remove a cell and return it. -/
def remove (t : CellStateTree hashes) (outpoint : OutPoint) :
    Option CellEntry × CellStateTree hashes :=
  match hcell : t.cells.get? outpoint with
  | none => (none, t)
  | some entry => (some entry, {
      cells := t.cells.erase outpoint
      leafHashes := t.leafHashes.erase outpoint
      muhash := match t.leafHashes.get? outpoint with
        | some oldLeafHash => t.muhash.removeElement hashes oldLeafHash.val
        | none => t.muhash
      cachedRoot := none
      leaves := fun o => by
        by_cases h : o = outpoint
        · rw [h, SortedMap.get?_erase_self, SortedMap.get?_erase_self, Option.map_none]
        · rw [SortedMap.get?_erase_ne h, SortedMap.get?_erase_ne h, t.leaves o]
      accumulated := by
        rw [t.leaves outpoint, hcell, Option.map_some, MuHash.quotient_removeElement, t.accumulated,
          leafProduct_of_get? hcell, leafElement, mul_div_cancel_left]
      cached := nofun })

/-- Forget all cells. -/
def clear (_ : CellStateTree hashes) : CellStateTree hashes := new

/-- The root, and the tree with the root cached. -/
def root (t : CellStateTree hashes) : Hash × CellStateTree hashes :=
  match t.cachedRoot with
  | some root => (root, t)
  | none => (t.muhash.finalize hashes, { t with
      cachedRoot := some (t.muhash.finalize hashes)
      cached := fun _ h => (Option.some.inj h).symm })

/-- **The root is a function of the live cells.** -/
theorem root_eq (t : CellStateTree hashes) :
    t.root.1 = hashes.muHashFinalize (leafProduct hashes t.cells) := by
  have hfinalize : t.muhash.finalize hashes = hashes.muHashFinalize (leafProduct hashes t.cells) := by
    rw [MuHash.finalize, t.accumulated]
  rw [← hfinalize, root]
  split
  · rename_i root hroot
    exact t.cached root hroot
  · rfl

/-- Insert cells one by one. -/
def insertAll (t : CellStateTree hashes) (cells : List (OutPoint × CellEntry)) :
    CellStateTree hashes :=
  cells.foldl (fun t cell => t.insert cell.1 cell.2) t

lemma cells_insertAll (t : CellStateTree hashes) (cells : List (OutPoint × CellEntry)) :
    (t.insertAll cells).cells = t.cells.insertAll cells := by
  induction cells generalizing t with
  | nil => rfl
  | cons cell cells ih => exact ih (t.insert cell.1 cell.2)

end CellStateTree

end Myelin.State
