/-
  The snapshot of the live cells.

  `encode_cell_snapshot` walks the cells in `OutPoint` order; `decode_cell_snapshot` asks for strictly
  increasing KEYS.  The two orders differ on the outputs of one transaction: index 1 comes before
  index 256, but its key `01 00 00 00` comes after `00 01 00 00`.

  Both functions are characterised by the cell list between them (`encode_eq_ok`, `decode_eq_ok`):
  one over the cells of the tree in its order and with fields below 4 GiB, the other over a list with
  increasing keys and the reader's own limits.  **The main theorem** reads off when they are inverse to
  each other: exactly when the tree's order is also the key order (and, for restoring, the reader's
  limits hold).
-/
import Myelin.Exec.Codec
import Myelin.Lib.Reader
import Myelin.Session.Types
import Myelin.State.CellTree

namespace Myelin.Session

open Lib Exec State

variable {F : Type}
variable {input : List UInt8} {previousKey : Option (List UInt8)}

/-! ## Cells of a snapshot -/

/-- A live cell with everything a snapshot says about it. -/
structure FullCell where
  outpoint : OutPoint
  output : CellOutput
  data : List UInt8
  createdBlockNumber : UInt64
  isCellbase : Bool
  deriving DecidableEq

namespace FullCell

/-- The state entry, with all commitments rederived. -/
def entry (hashes : CellHashes F) (cell : FullCell) : CellEntry :=
  CellEntry.fromOutput hashes cell.output cell.data cell.createdBlockNumber cell.isCellbase

/-- The cell as an entry of the tree. -/
def live (hashes : CellHashes F) (cell : FullCell) : OutPoint × CellEntry :=
  (cell.outpoint, cell.entry hashes)

/-- The variable fields have at most `limit` bytes. -/
structure Within (limit : Nat) (cell : FullCell) : Prop where
  lock : (serializeScriptMolecule cell.output.lock).length ≤ limit
  type_ : ∀ script, cell.output.type_ = some script →
    (serializeScriptMolecule script).length ≤ limit
  data : cell.data.length ≤ limit

end FullCell

/-! ## Encoding -/

/-- `u32` length and the bytes. -/
def putBytes (value : List UInt8) : Except SessionError (List UInt8) := do
  ensure (value.length < 2 ^ 32) (SessionError.snapshot "snapshot field exceeds u32")
  pure (leBytes 4 value.length ++ value)

/-- The full data of a tree entry, if it is there and matches the committed hashes. -/
def fullCell (hashes : CellHashes F) (cell : OutPoint × CellEntry) :
    Except SessionError FullCell := do
  let lock ← okOr cell.2.lockScript
    (.snapshot ("cell " ++ cell.1.display ++ " is missing its full lock script"))
  let data ← okOr cell.2.data (.snapshot ("cell " ++ cell.1.display ++ " is missing full data"))
  let full : FullCell := {
    outpoint := cell.1
    output := { capacity := cell.2.capacity, lock := lock, type_ := cell.2.typeScript }
    data := data
    createdBlockNumber := cell.2.createdBlockNumber
    isCellbase := cell.2.isCellbase }
  ensure (full.entry hashes = cell.2) (SessionError.snapshot
    ("cell " ++ cell.1.display ++ " full metadata does not match its committed hashes"))
  pure full

/-- One cell of the snapshot. -/
def encodeCell (cell : FullCell) : Except SessionError (List UInt8) := do
  let outpoint ← putBytes (serializeOutpointMolecule cell.outpoint)
  let lock ← putBytes (serializeScriptMolecule cell.output.lock)
  let type_ ← match cell.output.type_ with
    | some script => do
        let script ← putBytes (serializeScriptMolecule script)
        pure (1 :: script)
    | none => pure [0]
  let data ← putBytes cell.data
  pure (outpoint ++ lock ++ type_ ++ data ++ le64 cell.output.capacity ++
    le64 cell.createdBlockNumber ++ [boolByte cell.isCellbase])

/-- Magic, version and number of cells. -/
def snapshotHeader (count : Nat) : List UInt8 := utf8 "MSNP" ++ le16 1 ++ leBytes 4 count

/-- Encode every live cell. -/
def encodeCellSnapshot [CommGroup F] {hashes : CellHashes F} (state : CellStateTree hashes) :
    Except SessionError (List UInt8) := do
  ensure (state.cells.len < 2 ^ 32) (SessionError.snapshot "too many live cells")
  let cells ← mapResult (fun cell => do
    let full ← fullCell hashes cell
    encodeCell full) state.cells.entries
  pure (snapshotHeader state.cells.len ++ cells.flatten)

/-! ## Decoding -/

/-- Most cells of a snapshot. -/
def maxSnapshotItems : Nat := 16777216

/-- Longest field of a snapshot. -/
def maxSnapshotFieldBytes : Nat := 64 * 1024 * 1024

namespace SnapshotDecoder

/-- The next `len` bytes. -/
def take (len : Nat) : Reader SessionError (List UInt8) :=
  Reader.take (.snapshot "truncated snapshot") len

/-- The next byte. -/
def byte : Reader SessionError UInt8 :=
  Reader.readLe (.snapshot "truncated snapshot") 1 UInt8.ofNat

/-- The next `u16`. -/
def u16 : Reader SessionError UInt16 :=
  Reader.readLe (.snapshot "truncated snapshot") 2 UInt16.ofNat

/-- The next `u32`. -/
def u32 : Reader SessionError UInt32 :=
  Reader.readLe (.snapshot "truncated snapshot") 4 UInt32.ofNat

/-- The next `u64`. -/
def u64 : Reader SessionError UInt64 :=
  Reader.readLe (.snapshot "truncated snapshot") 8 UInt64.ofNat

/-- A length-prefixed field of at most `limit` bytes. -/
def bytes (limit : Nat) : Reader SessionError (List UInt8) := do
  let len ← u32
  Reader.lift (ensure (len.toNat ≤ limit) (SessionError.snapshot "snapshot field limit exceeded"))
  take len.toNat

end SnapshotDecoder

open SnapshotDecoder

/-- A script field. -/
def readScript (limit : Nat) : Reader SessionError Script := do
  let field ← bytes limit
  Reader.lift ((script_canonical.safe field).outcome.mapError fun error => .snapshot error.display)

/-- An optional script behind its flag. -/
def readTypeScript (limit : Nat) : Reader SessionError (Option Script) := do
  let flag ← byte
  if flag = 0 then pure none
  else if flag = 1 then do
    let script ← readScript limit
    pure (some script)
  else Reader.lift (.error (.snapshot ("invalid type-script flag " ++ toString flag)))

/-- A boolean flag. -/
def readCellbase : Reader SessionError Bool := do
  let flag ← byte
  if flag = 0 then pure false
  else if flag = 1 then pure true
  else Reader.lift (.error (.snapshot ("invalid cellbase flag " ++ toString flag)))

/-- One cell, whose key must exceed the previous one. -/
def readCell (limit : Nat) (previousKey : Option (List UInt8)) : Reader SessionError FullCell := do
  let field ← bytes limit
  let outpoint ← Reader.lift ((outpoint_canonical.safe field).outcome.mapError fun error =>
    .snapshot error.display)
  Reader.lift (ensure (∀ previous ∈ previousKey, previous < outpoint.toKey)
    (SessionError.snapshot "outpoints are duplicated or not canonically ordered"))
  let lock ← readScript limit
  let type_ ← readTypeScript limit
  let data ← bytes limit
  let capacity ← u64
  let createdBlockNumber ← u64
  let isCellbase ← readCellbase
  pure ⟨outpoint, ⟨lock, type_, capacity⟩, data, createdBlockNumber, isCellbase⟩

/-- The loop over the cells. -/
def readCells [CommGroup F] {hashes : CellHashes F} :
    Nat → Option (List UInt8) → CellStateTree hashes → Reader SessionError (CellStateTree hashes)
  | 0, _, state => pure state
  | count + 1, previousKey, state => do
      let cell ← readCell maxSnapshotFieldBytes previousKey
      readCells count (some cell.outpoint.toKey) (state.insert cell.outpoint (cell.entry hashes))

/-- Decode a snapshot and rederive every commitment. -/
def decodeCellSnapshot [CommGroup F] (hashes : CellHashes F) (input : List UInt8) :
    Except SessionError (CellStateTree hashes) := do
  let (state, remaining) ← (do
    let magic ← take 4
    Reader.lift (ensure (magic = utf8 "MSNP") (SessionError.snapshot "wrong snapshot magic"))
    let version ← u16
    Reader.lift (ensure (version = 1)
      (SessionError.snapshot ("unsupported snapshot version " ++ toString version)))
    let count ← u32
    Reader.lift (ensure (count.toNat ≤ maxSnapshotItems)
      (SessionError.snapshot "snapshot item limit exceeded"))
    readCells count.toNat none (CellStateTree.new : CellStateTree hashes)) input
  ensure (remaining = []) (SessionError.snapshot "trailing snapshot bytes")
  pure state

/-! ## What the cell reader accepts -/

/-- A length-prefixed field. -/
def fieldBytes (value : List UInt8) : List UInt8 := leBytes 4 value.length ++ value

/-- A cell, whatever the size of its fields. -/
def cellBytes (cell : FullCell) : List UInt8 :=
  fieldBytes (serializeOutpointMolecule cell.outpoint) ++
    fieldBytes (serializeScriptMolecule cell.output.lock) ++
    (match cell.output.type_ with
      | some script => 1 :: fieldBytes (serializeScriptMolecule script)
      | none => [0]) ++
    fieldBytes cell.data ++ le64 cell.output.capacity ++ le64 cell.createdBlockNumber ++
    [boolByte cell.isCellbase]

section Readers

variable {limit : Nat} {rest : List UInt8}

lemma bytes_eq_ok (hlimit : limit < 2 ^ 32) :
    bytes limit input = .ok (value, rest) ↔
      value.length ≤ limit ∧ input = fieldBytes value ++ rest := by
  simp only [bytes, u32, take, Reader.bind_eq_ok, Reader.lift_eq_ok, ensure_eq_ok, Reader.take_eq_ok,
    Reader.readU32_exact _ _ _ _, true_and]
  constructor
  · rintro ⟨len, _, rfl, _, _, ⟨hle, rfl⟩, hlen, rfl⟩
    refine ⟨hlen ▸ hle, ?_⟩
    rw [fieldBytes, hlen, le32, List.append_assoc]
  · rintro ⟨hle, rfl⟩
    have hlen : (UInt32.ofNat value.length).toNat = value.length := by
      rw [UInt32.toNat_ofNat']
      exact Nat.mod_eq_of_lt (by omega)
    refine ⟨UInt32.ofNat value.length, value ++ rest, ?_, (), _, ⟨?_, rfl⟩, hlen.symm, rfl⟩
    · rw [fieldBytes, le32, hlen, List.append_assoc]
    · rwa [hlen]

lemma readScript_eq_ok (hlimit : limit < 2 ^ 32) :
    readScript limit input = .ok (script, rest) ↔ (serializeScriptMolecule script).length ≤ limit ∧
        input = fieldBytes (serializeScriptMolecule script) ++ rest := by
  simp only [readScript, Reader.bind_eq_ok, bytes_eq_ok hlimit, Reader.lift_eq_ok, mapError_eq_ok,
    Safe.outcome_eq_ok]
  constructor
  · rintro ⟨field, _, ⟨hle, rfl⟩, hread, rfl⟩
    obtain ⟨rfl, -⟩ := script_canonical.sound hread
    exact ⟨hle, rfl⟩
  · rintro ⟨hle, rfl⟩
    exact ⟨_, _, ⟨hle, rfl⟩, script_canonical.complete trivial (by omega), rfl⟩

lemma readTypeScript_eq_ok (hlimit : limit < 2 ^ 32) :
    readTypeScript limit input = .ok (type_, rest) ↔
      (∀ script, type_ = some script → (serializeScriptMolecule script).length ≤ limit) ∧
        input = (match type_ with
          | some script => 1 :: fieldBytes (serializeScriptMolecule script)
          | none => [0]) ++ rest := by
  simp only [readTypeScript, byte, Reader.bind_eq_ok, Reader.readU8_exact _ _ _ _, true_and]
  constructor
  · rintro ⟨flag, after, rfl, h⟩
    split_ifs at h with hzero hone
    · obtain ⟨rfl, rfl⟩ := Reader.pure_eq_ok.mp h
      exact ⟨nofun, by rw [hzero]⟩
    · obtain ⟨script, _, hscript, h⟩ := Reader.bind_eq_ok.mp h
      obtain ⟨rfl, rfl⟩ := Reader.pure_eq_ok.mp h
      obtain ⟨hle, rfl⟩ := (readScript_eq_ok hlimit).mp hscript
      exact ⟨fun other h => Option.some.inj h ▸ hle, by rw [hone]; rfl⟩
    · exact absurd (Reader.lift_eq_ok.mp h).1 nofun
  · rintro ⟨hle, rfl⟩
    cases type_ with
    | none => exact ⟨0, rest, rfl, rfl⟩
    | some script =>
      refine ⟨1, fieldBytes (serializeScriptMolecule script) ++ rest, rfl, ?_⟩
      exact Reader.bind_eq_ok.mpr
        ⟨script, rest, (readScript_eq_ok hlimit).mpr ⟨hle script rfl, rfl⟩, rfl⟩

lemma readCellbase_eq_ok :
    readCellbase input = .ok (isCellbase, rest) ↔ input = [boolByte isCellbase] ++ rest := by
  simp only [readCellbase, byte, Reader.bind_eq_ok, Reader.readU8_exact _ _ _ _, true_and]
  constructor
  · rintro ⟨flag, after, rfl, h⟩
    split_ifs at h with hzero hone
    · obtain ⟨rfl, rfl⟩ := Reader.pure_eq_ok.mp h
      rw [hzero]
      rfl
    · obtain ⟨rfl, rfl⟩ := Reader.pure_eq_ok.mp h
      rw [hone]
      rfl
    · exact absurd (Reader.lift_eq_ok.mp h).1 nofun
  · rintro rfl
    cases isCellbase
    · exact ⟨0, rest, rfl, rfl⟩
    · exact ⟨1, rest, rfl, rfl⟩

/-- A cell is accepted exactly from the bytes it is written to, if its key is in order. -/
lemma readCell_eq_ok (hlow : 36 ≤ limit) (hlimit : limit < 2 ^ 32) :
    readCell limit previousKey input = .ok (cell, rest) ↔
      cell.Within limit ∧ (∀ previous ∈ previousKey, previous < cell.outpoint.toKey) ∧
        input = cellBytes cell ++ rest := by
  simp only [readCell, Reader.bind_eq_ok, Reader.lift_eq_ok, Reader.pure_eq_ok, mapError_eq_ok,
    ensure_eq_ok, bytes_eq_ok hlimit, Safe.outcome_eq_ok, readScript_eq_ok hlimit,
    readTypeScript_eq_ok hlimit, u64, Reader.readU64_exact _ _ _ _, readCellbase_eq_ok, true_and]
  constructor
  · rintro ⟨_, _, ⟨_, rfl⟩, outpoint, _, ⟨hread, rfl⟩, _, _, ⟨horder, rfl⟩, lock, _, ⟨hlock, rfl⟩,
      type_, _, ⟨htype, rfl⟩, data, _, ⟨hdata, rfl⟩, capacity, _, rfl, created, _, rfl, isCellbase, _,
      rfl, rfl, rfl⟩
    obtain ⟨rfl, -⟩ := outpoint_canonical.sound hread
    refine ⟨⟨hlock, htype, hdata⟩, horder, ?_⟩
    simp only [cellBytes, List.append_assoc]
  · rintro ⟨⟨hlock, htype, hdata⟩, horder, rfl⟩
    have houtpoint : (serializeOutpointMolecule cell.outpoint).length ≤ limit := by
      rw [serializeOutpointMolecule_length]
      exact hlow
    have hread := outpoint_canonical.complete trivial (houtpoint.trans_lt hlimit)
    simp only [cellBytes, List.append_assoc]
    exact ⟨_, _, ⟨houtpoint, rfl⟩, _, _, ⟨hread, rfl⟩, (), _, ⟨horder, rfl⟩, _, _, ⟨hlock, rfl⟩, _, _,
      ⟨htype, rfl⟩, _, _, ⟨hdata, rfl⟩, _, _, rfl, _, _, rfl, _, _, rfl, rfl, rfl⟩

/-- Whatever the writer's limit admits can be read without the reader's limit and order. -/
lemma readCell_cellBytes (h : cell.Within (2 ^ 32 - 1)) (rest : List UInt8) :
    readCell (2 ^ 32 - 1) none (cellBytes cell ++ rest) = .ok (cell, rest) :=
  (readCell_eq_ok (by decide) (by decide)).mpr ⟨h, nofun, rfl⟩

end Readers

/-! ## What the cell writer writes -/

/-- The encoder's view of an entry: its full cell, if the entry is the one derived from it. -/
lemma fullCell_eq_ok : fullCell hashes cell = .ok full ↔ full.live hashes = cell := by
  simp only [fullCell, eq_ok]
  constructor
  · rintro ⟨lock, _, data, _, hentry, rfl⟩
    exact Prod.ext rfl hentry
  · rintro rfl
    exact ⟨_, rfl, _, rfl, rfl, rfl⟩

variable {out : List UInt8}

lemma putBytes_eq_ok :
    putBytes value = .ok out ↔ value.length ≤ 2 ^ 32 - 1 ∧ out = fieldBytes value := by
  simp only [putBytes, eq_ok, fieldBytes]
  constructor
  · rintro ⟨hlt, rfl⟩
    exact ⟨by omega, rfl⟩
  · rintro ⟨hle, rfl⟩
    exact ⟨by omega, rfl⟩

variable {cell : FullCell}

lemma encodeCell_eq_ok :
    encodeCell cell = .ok out ↔ cell.Within (2 ^ 32 - 1) ∧ out = cellBytes cell := by
  have houtpoint : (serializeOutpointMolecule cell.outpoint).length ≤ 2 ^ 32 - 1 := by
    rw [serializeOutpointMolecule, List.length_append, cell.outpoint.txHash.property, le32,
      leBytes_length]
    decide
  obtain ⟨outpoint, ⟨lock, type_, capacity⟩, data, created, isCellbase⟩ := cell
  cases type_ with
  | none =>
    simp only [encodeCell, eq_ok, putBytes_eq_ok]
    constructor
    · rintro ⟨_, ⟨_, rfl⟩, _, ⟨hlock, rfl⟩, _, rfl, _, ⟨hdata, rfl⟩, rfl⟩
      exact ⟨⟨hlock, by simp, hdata⟩, rfl⟩
    · rintro ⟨⟨hlock, _, hdata⟩, rfl⟩
      exact ⟨_, ⟨houtpoint, rfl⟩, _, ⟨hlock, rfl⟩, _, rfl, _, ⟨hdata, rfl⟩, rfl⟩
  | some script =>
    simp only [encodeCell, eq_ok, putBytes_eq_ok]
    constructor
    · rintro ⟨_, ⟨_, rfl⟩, _, ⟨hlock, rfl⟩, _, ⟨htype, rfl⟩, _, rfl, _, ⟨hdata, rfl⟩, rfl⟩
      exact ⟨⟨hlock, fun other h => Option.some.inj h ▸ htype, hdata⟩, rfl⟩
    · rintro ⟨⟨hlock, htype, hdata⟩, rfl⟩
      exact ⟨_, ⟨houtpoint, rfl⟩, _, ⟨hlock, rfl⟩, _, ⟨htype script rfl, rfl⟩, _, rfl, _,
        ⟨hdata, rfl⟩, rfl⟩

/-- The reader's limits on an entry. -/
def EntryWithin (entry : CellEntry) : Prop :=
  (∀ script ∈ entry.lockScript, (serializeScriptMolecule script).length ≤ maxSnapshotFieldBytes) ∧
  (∀ script ∈ entry.typeScript, (serializeScriptMolecule script).length ≤ maxSnapshotFieldBytes) ∧
  ∀ data ∈ entry.data, data.length ≤ maxSnapshotFieldBytes

lemma entryWithin_entry : EntryWithin (cell.entry hashes) ↔ cell.Within maxSnapshotFieldBytes := by
  constructor
  · rintro ⟨hlock, htype, hdata⟩
    exact ⟨hlock _ rfl, htype, hdata _ rfl⟩
  · rintro ⟨hlock, htype, hdata⟩
    exact ⟨fun script h => Option.some.inj h ▸ hlock, htype, fun data h => Option.some.inj h ▸ hdata⟩

lemma map_live_keys (hashes : CellHashes F) (cells : List FullCell) :
    (cells.map (FullCell.live hashes)).map (·.1.toKey) = cells.map (·.outpoint.toKey) := by
  rw [List.map_map]
  rfl

/-! ## Whole snapshots -/

/-- The snapshot of a list of cells. -/
def snapshotBytes (cells : List FullCell) : List UInt8 :=
  snapshotHeader cells.length ++ cells.flatMap cellBytes

/-- Strictly increasing keys. -/
def KeysIncrease (cells : List FullCell) : Prop := (cells.map (·.outpoint.toKey)).Pairwise (· < ·)

variable [CommGroup F] {hashes : CellHashes F}

lemma readCells_eq_ok {state : CellStateTree hashes} :
    readCells count previousKey state input = .ok (result, rest) ↔
      ∃ cells : List FullCell, cells.length = count ∧
        (∀ cell ∈ cells, cell.Within maxSnapshotFieldBytes) ∧
        (previousKey.toList ++ cells.map (·.outpoint.toKey)).IsChain (· < ·) ∧
        input = cells.flatMap cellBytes ++ rest ∧
        result = state.insertAll (cells.map (FullCell.live hashes)) := by
  induction count generalizing previousKey state input with
  | zero =>
    rw [readCells, Reader.pure_eq_ok]
    constructor
    · rintro ⟨rfl, rfl⟩
      exact ⟨[], rfl, by simp, by cases previousKey <;> simp, rfl, rfl⟩
    · rintro ⟨cells, hlength, _, _, rfl, rfl⟩
      rw [List.length_eq_zero_iff.mp hlength]
      exact ⟨rfl, rfl⟩
  | succ count ih =>
    -- the first cell is read behind `previousKey`, the others behind the key of the first
    simp only [readCells, Reader.bind_eq_ok,
      readCell_eq_ok (show 36 ≤ maxSnapshotFieldBytes by decide) (by decide), ih]
    constructor
    · rintro ⟨cell, _, ⟨hwithin, horder, rfl⟩, cells, rfl, hcells, hchain, rfl, rfl⟩
      refine ⟨cell :: cells, rfl, List.forall_mem_cons.mpr ⟨hwithin, hcells⟩, ?_, ?_, rfl⟩
      · cases previousKey with
        | none => exact hchain
        | some previous => exact List.isChain_cons_cons.mpr ⟨horder previous rfl, hchain⟩
      · rw [List.flatMap_cons, List.append_assoc]
    · rintro ⟨cells, hlength, hcells, hchain, rfl, rfl⟩
      obtain ⟨cell, cells, rfl⟩ := List.exists_cons_of_length_eq_add_one hlength
      obtain ⟨hwithin, hcells⟩ := List.forall_mem_cons.mp hcells
      refine ⟨cell, cells.flatMap cellBytes ++ rest, ⟨hwithin, ?_, ?_⟩, cells,
        Nat.succ.inj hlength, hcells, ?_, rfl, rfl⟩
      · rintro previous ⟨⟩
        exact (List.isChain_cons_cons.mp hchain).1
      · rw [List.flatMap_cons, List.append_assoc]
      · cases previousKey with
        | none => exact hchain
        | some previous => exact (List.isChain_cons_cons.mp hchain).2

/-- What `decode_cell_snapshot` accepts: snapshots of cells with increasing keys, within its limits. -/
lemma decode_eq_ok :
    decodeCellSnapshot hashes input = .ok state ↔
      ∃ cells : List FullCell, cells.length ≤ maxSnapshotItems ∧
        (∀ cell ∈ cells, cell.Within maxSnapshotFieldBytes) ∧ KeysIncrease cells ∧
        input = snapshotBytes cells ∧
        state = CellStateTree.new.insertAll (cells.map (FullCell.live hashes)) := by
  have hmagic : (utf8 "MSNP").length = 4 := rfl
  simp only [decodeCellSnapshot, eq_ok, Prod.exists, Reader.bind_eq_ok, Reader.lift_eq_ok, take,
    u16, u32, Reader.take_eq_ok, Reader.readU16_exact _ _ _ _, Reader.readU32_exact _ _ _ _,
    true_and, readCells_eq_ok]
  constructor
  · rintro ⟨_, _, ⟨_, _, ⟨_, rfl⟩, _, ⟨rfl, rfl⟩, version, _, rfl, _, ⟨rfl, rfl⟩, count, _, rfl, _,
      ⟨hcount, rfl⟩, cells, hlength, hcells, hchain, rfl, rfl⟩, rfl, rfl⟩
    refine ⟨cells, hlength ▸ hcount, hcells, List.isChain_iff_pairwise.mp hchain, ?_, rfl⟩
    simp only [snapshotBytes, snapshotHeader, hlength, le32, List.append_assoc, List.append_nil]
  · rintro ⟨cells, hcount, hcells, hkeys, rfl, rfl⟩
    have hfits : (UInt32.ofNat cells.length).toNat = cells.length := by
      rw [UInt32.toNat_ofNat']
      exact Nat.mod_eq_of_lt (lt_of_le_of_lt hcount (by decide))
    refine ⟨_, [], ⟨utf8 "MSNP", _, ⟨hmagic, ?_⟩, _, ⟨rfl, rfl⟩, 1, _, rfl, _, ⟨rfl, rfl⟩,
      UInt32.ofNat cells.length, cells.flatMap cellBytes, rfl, _, ⟨hfits.symm ▸ hcount, rfl⟩, cells,
      hfits.symm, hcells, List.isChain_iff_pairwise.mpr hkeys, (List.append_nil _).symm, rfl⟩, rfl, rfl⟩
    simp only [snapshotBytes, snapshotHeader, le32, hfits, List.append_assoc]

/-- What `encode_cell_snapshot` writes: the tree's cells in the tree's order. -/
lemma encode_eq_ok {state : CellStateTree hashes} :
    encodeCellSnapshot state = .ok out ↔
      ∃ cells : List FullCell, cells.map (FullCell.live hashes) = state.cells.entries ∧
        cells.length < 2 ^ 32 ∧ (∀ cell ∈ cells, cell.Within (2 ^ 32 - 1)) ∧
        out = snapshotBytes cells := by
  simp only [encodeCellSnapshot, eq_ok, mapResult_eq_ok, fullCell_eq_ok, encodeCell_eq_ok]
  have hcells : ∀ (entries : List (OutPoint × CellEntry)) (written : List (List UInt8)),
      List.Forall₂ (fun entry bytes => ∃ full : FullCell,
          full.live hashes = entry ∧ full.Within (2 ^ 32 - 1) ∧ bytes = cellBytes full)
        entries written ↔
      ∃ cells : List FullCell, cells.map (FullCell.live hashes) = entries ∧
        (∀ cell ∈ cells, cell.Within (2 ^ 32 - 1)) ∧ written = cells.map cellBytes := by
    intro entries written
    constructor
    · intro h
      induction h with
      | nil => exact ⟨[], rfl, by simp, rfl⟩
      | cons hhead _ ih =>
        obtain ⟨full, rfl, hwithin, rfl⟩ := hhead
        obtain ⟨cells, rfl, hall, rfl⟩ := ih
        exact ⟨full :: cells, rfl, List.forall_mem_cons.mpr ⟨hwithin, hall⟩, rfl⟩
    · rintro ⟨cells, rfl, hall, rfl⟩
      rw [List.forall₂_map_left_iff, List.forall₂_map_right_iff, List.forall₂_same]
      exact fun cell hcell => ⟨cell, rfl, hall cell hcell, rfl⟩
  simp only [hcells]
  constructor
  · rintro ⟨hcount, _, ⟨cells, hentries, hall, rfl⟩, rfl⟩
    have hlen : state.cells.len = cells.length := by
      rw [SortedMap.len, ← hentries, List.length_map]
    rw [hlen] at hcount ⊢
    exact ⟨cells, hentries, hcount, hall, by rw [snapshotBytes, List.flatMap_def]⟩
  · rintro ⟨cells, hentries, hcount, hall, rfl⟩
    have hlen : state.cells.len = cells.length := by
      rw [SortedMap.len, ← hentries, List.length_map]
    rw [hlen]
    exact ⟨hcount, _, ⟨cells, hentries, hall, rfl⟩, by rw [snapshotBytes, List.flatMap_def]⟩

/-! ## The round trip -/

variable {cells : List FullCell}

variable {others : List FullCell}

/-- Bytes determine the cells written to them. -/
lemma flatMap_cellBytes_inj (hcells : ∀ cell ∈ cells, cell.Within (2 ^ 32 - 1))
    (hothers : ∀ cell ∈ others, cell.Within (2 ^ 32 - 1)) (hlength : cells.length = others.length)
    (h : cells.flatMap cellBytes = others.flatMap cellBytes) : cells = others := by
  induction cells generalizing others with
  | nil => exact (List.length_eq_zero_iff.mp hlength.symm).symm
  | cons cell cells ih =>
    obtain ⟨other, others, rfl⟩ := List.exists_cons_of_length_eq_add_one hlength.symm
    obtain ⟨hcell, htail⟩ := List.forall_mem_cons.mp hcells
    obtain ⟨hother, htail'⟩ := List.forall_mem_cons.mp hothers
    rw [List.flatMap_cons, List.flatMap_cons] at h
    -- one reader reads both first cells from the same bytes
    have hread := readCell_cellBytes hcell (cells.flatMap cellBytes)
    rw [h, readCell_cellBytes hother (others.flatMap cellBytes)] at hread
    obtain ⟨hhead, hrest⟩ := Prod.mk.inj (Except.ok.inj hread)
    rw [hhead, ih htail htail' (Nat.succ.inj hlength) hrest.symm]

lemma snapshotBytes_inj (hcells : ∀ cell ∈ cells, cell.Within (2 ^ 32 - 1))
    (hothers : ∀ cell ∈ others, cell.Within (2 ^ 32 - 1)) (hlow : cells.length < 2 ^ 32)
    (hlow' : others.length < 2 ^ 32) (h : snapshotBytes cells = snapshotBytes others) :
    cells = others := by
  have hheader : (snapshotHeader cells.length).length = (snapshotHeader others.length).length := rfl
  obtain ⟨hcount, hbody⟩ := List.append_inj h hheader
  have hlength : cells.length = others.length := by
    rw [← ofLeBytes_leBytes 4 cells.length (by omega), ← ofLeBytes_leBytes 4 others.length (by omega)]
    exact congrArg ofLeBytes (List.append_cancel_left hcount)
  exact flatMap_cellBytes_inj hcells hothers hlength hbody

lemma FullCell.Within.mono (h : cell.Within limit) (hle : limit ≤ limit') : cell.Within limit' :=
  ⟨h.lock.trans hle, fun script hscript => (h.type_ script hscript).trans hle, h.data.trans hle⟩

/-- Along the cells in the tree's order, the keys increase too. -/
def KeyOrderAgrees (state : CellStateTree hashes) : Prop :=
  (state.cells.entries.map (·.1.toKey)).Pairwise (· < ·)

/-- What a tree needs besides a snapshot to be restored from it. -/
structure Restorable (state : CellStateTree hashes) : Prop where
  ordered : KeyOrderAgrees state
  items : state.cells.len ≤ maxSnapshotItems
  fields : ∀ cell ∈ state.cells.entries, EntryWithin cell.2

lemma keyOrderAgrees_iff {state : CellStateTree hashes}
    (h : cells.map (FullCell.live hashes) = state.cells.entries) :
    KeyOrderAgrees state ↔ KeysIncrease cells := by
  rw [KeyOrderAgrees, KeysIncrease, ← h, map_live_keys]

/-- Cells in key order build a tree that has them as its entries, in whatever order. -/
lemma perm_of_insertAll (h : KeysIncrease cells) :
    (cells.map (FullCell.live hashes)).Perm
      (CellStateTree.new.insertAll (cells.map (FullCell.live hashes)) :
        CellStateTree hashes).cells.entries := by
  have hkeys : ((cells.map (FullCell.live hashes)).map (·.1)).Nodup := by
    have hlive : ((cells.map (FullCell.live hashes)).map (·.1.toKey)).Pairwise (· < ·) := by
      rw [map_live_keys]
      exact h
    refine List.Nodup.of_map OutPoint.toKey ?_
    rw [List.map_map]
    exact hlive.imp fun hlt => ne_of_lt hlt
  rw [CellStateTree.cells_insertAll]
  refine (List.perm_ext_iff_of_nodup (List.Nodup.of_map _ hkeys) (SortedMap.nodup_entries _)).mpr
    fun e => ?_
  rw [SortedMap.mem_insertAll hkeys]
  simp [CellStateTree.new, SortedMap.empty]

/-- Restoring a snapshot of a tree. -/
lemma decode_encode_iff {state : CellStateTree hashes} (h : encodeCellSnapshot state = .ok out) :
    (∃ restored, decodeCellSnapshot hashes out = .ok restored ∧
      restored.cells = state.cells ∧ restored.root.1 = state.root.1) ↔ Restorable state := by
  obtain ⟨cells, hentries, hcount, hall, rfl⟩ := encode_eq_ok.mp h
  have hlen : state.cells.len = cells.length := by
    rw [SortedMap.len, ← hentries, List.length_map]
  constructor
  · rintro ⟨restored, hdecode, _⟩
    obtain ⟨others, hitems, hfields, hkeys, hbytes, _⟩ := decode_eq_ok.mp hdecode
    obtain rfl := snapshotBytes_inj hall
      (fun cell hcell => (hfields cell hcell).mono (by decide)) hcount
      (lt_of_le_of_lt hitems (by decide)) hbytes
    refine ⟨(keyOrderAgrees_iff hentries).mpr hkeys, hlen ▸ hitems, ?_⟩
    rw [← hentries]
    exact List.forall_mem_map.mpr fun cell hcell => entryWithin_entry.mpr (hfields cell hcell)
  · rintro ⟨hordered, hitems, hfields⟩
    rw [← hentries] at hfields
    have hkeys := (keyOrderAgrees_iff hentries).mp hordered
    have hcells : (CellStateTree.new.insertAll (cells.map (FullCell.live hashes)) :
        CellStateTree hashes).cells = state.cells := by
      rw [CellStateTree.cells_insertAll]
      exact SortedMap.insertAll_perm (List.Perm.of_eq hentries)
    refine ⟨_, decode_eq_ok.mpr ⟨cells, hlen ▸ hitems, fun cell hcell => ?_, hkeys, rfl, rfl⟩, hcells, ?_⟩
    · exact entryWithin_entry.mp (List.forall_mem_map.mp hfields cell hcell)
    · rw [CellStateTree.root_eq, CellStateTree.root_eq, hcells]

/-- Re-encoding a decoded tree. -/
lemma encode_decode_iff (h : decodeCellSnapshot hashes input = .ok state) :
    encodeCellSnapshot state = .ok input ↔ KeyOrderAgrees state := by
  obtain ⟨cells, hitems, hfields, hkeys, rfl, rfl⟩ := decode_eq_ok.mp h
  have hcount : cells.length < 2 ^ 32 := lt_of_le_of_lt hitems (by decide)
  have hall : ∀ cell ∈ cells, cell.Within (2 ^ 32 - 1) :=
    fun cell hcell => (hfields cell hcell).mono (by decide)
  constructor
  · intro hencode
    obtain ⟨others, hentries, hcount', hall', hbytes⟩ := encode_eq_ok.mp hencode
    obtain rfl := snapshotBytes_inj hall hall' hcount hcount' hbytes
    exact (keyOrderAgrees_iff hentries).mpr hkeys
  · intro hagrees
    refine encode_eq_ok.mpr ⟨cells, ?_, hcount, hall, rfl⟩
    -- the written order and the tree's order both have increasing keys
    have hwritten : (cells.map (FullCell.live hashes)).Pairwise
        (fun a b => a.1.toKey < b.1.toKey) := List.pairwise_map.mp (map_live_keys hashes cells ▸ hkeys)
    exact (perm_of_insertAll hkeys).eq_of_pairwise
      (fun a b _ _ hab hba => absurd (lt_trans hab hba) (lt_irrefl _)) hwritten
      (List.pairwise_map.mp hagrees)

/-- **The snapshot round trip.**  A tree is restored from its own snapshot exactly when its order is the
    key order and it keeps to the reader's limits; an accepted snapshot is the one its tree encodes to
    exactly when the tree's order is the key order. -/
theorem cell_snapshot_round_trip_iff (hashes : CellHashes F) :
    (∀ (state : CellStateTree hashes) (out : List UInt8), encodeCellSnapshot state = .ok out →
      ((∃ restored, decodeCellSnapshot hashes out = .ok restored ∧
        restored.cells = state.cells ∧ restored.root.1 = state.root.1) ↔ Restorable state)) ∧
    ∀ (input : List UInt8) (state : CellStateTree hashes),
      decodeCellSnapshot hashes input = .ok state →
      (encodeCellSnapshot state = .ok input ↔ KeyOrderAgrees state) :=
  ⟨fun _ _ h => decode_encode_iff h, fun _ _ h => encode_decode_iff h⟩

/-- Toy hash functions, over the additive group of the integers. -/
def toyHashes : CellHashes (Multiplicative ℤ) where
  ckbBlake2b256 := headBytes
  merkleBranchHash := headBytes
  dataToElement bytes := Multiplicative.ofAdd (ofLeBytes bytes : ℤ)
  muHashFinalize n := FixedBytes.fill 32 (UInt8.ofNat n.toAdd.toNat)

/-- Output `index` of a toy transaction, locked by an empty script. -/
def toyCell (index : UInt32) : FullCell :=
  ⟨⟨FixedBytes.fill 32 9, index⟩, ⟨⟨FixedBytes.fill 32 1, 0, []⟩, none, 100⟩, [1, 2, 3], 4, false⟩

lemma toyCell_within (index : UInt32) : (toyCell index).Within maxSnapshotFieldBytes := by
  refine ⟨?_, nofun, ?_⟩
  · rw [serializeScriptMolecule_length]
    show 53 ≤ 67108864
    decide
  · show 3 ≤ 67108864
    decide

/-- The tree of some outputs of the toy transaction. -/
def toyTree (indices : List UInt32) : CellStateTree toyHashes :=
  CellStateTree.new.insertAll (indices.map fun index => (toyCell index).live toyHashes)

/-- Outputs 1 and 2 are restored from their snapshot. -/
theorem cell_snapshot_round_trip_toyTree :
    ∃ out, encodeCellSnapshot (toyTree [2, 1]) = .ok out ∧
      (∃ restored, decodeCellSnapshot toyHashes out = .ok restored ∧
        restored.cells = (toyTree [2, 1]).cells ∧ restored.root.1 = (toyTree [2, 1]).root.1) ∧
      decodeCellSnapshot toyHashes out = .ok (toyTree [1, 2]) ∧
      encodeCellSnapshot (toyTree [1, 2]) = .ok out := by
  have hencode : encodeCellSnapshot (toyTree [2, 1]) =
      .ok (snapshotBytes [toyCell 1, toyCell 2]) := by decide +kernel
  have hdecode : decodeCellSnapshot toyHashes (snapshotBytes [toyCell 1, toyCell 2]) =
      .ok (toyTree [1, 2]) :=
    decode_eq_ok.mpr ⟨[toyCell 1, toyCell 2], by decide, List.forall_mem_cons.mpr
      ⟨toyCell_within 1, List.forall_mem_singleton.mpr (toyCell_within 2)⟩,
      by unfold KeysIncrease; decide, rfl, rfl⟩
  refine ⟨_, hencode, ?_, hdecode, ?_⟩
  · refine ((cell_snapshot_round_trip_iff toyHashes).1 _ _ hencode).mpr
      ⟨by unfold KeyOrderAgrees; decide, by decide, ?_⟩
    unfold EntryWithin
    decide
  · exact ((cell_snapshot_round_trip_iff toyHashes).2 _ _ hdecode).mpr
      (by unfold KeyOrderAgrees; decide)

/-- **Outputs 1 and 256 are not restored**: the snapshot lists them in this order, whose keys
    decrease.  The decoder accepts the other order, which is not what the tree encodes to. -/
theorem output_256_breaks_round_trip :
    encodeCellSnapshot (toyTree [1, 256]) = .ok (snapshotBytes [toyCell 1, toyCell 256]) ∧
    (decodeCellSnapshot toyHashes (snapshotBytes [toyCell 1, toyCell 256])).map (fun _ => ()) =
      .error (.snapshot "outpoints are duplicated or not canonically ordered") ∧
    ∃ state, decodeCellSnapshot toyHashes (snapshotBytes [toyCell 256, toyCell 1]) = .ok state ∧
      encodeCellSnapshot state ≠ .ok (snapshotBytes [toyCell 256, toyCell 1]) := by
  have hkeys : KeysIncrease [toyCell 256, toyCell 1] := by unfold KeysIncrease; decide
  have hwithin : ∀ cell ∈ [toyCell 256, toyCell 1], cell.Within maxSnapshotFieldBytes :=
    List.forall_mem_cons.mpr ⟨toyCell_within 256, List.forall_mem_singleton.mpr (toyCell_within 1)⟩
  refine ⟨by decide +kernel, by decide +kernel, toyTree [256, 1], ?_, by decide +kernel⟩
  exact decode_eq_ok.mpr ⟨[toyCell 256, toyCell 1], by decide, hwithin, hkeys, rfl, rfl⟩

end Myelin.Session
