/-
  The Molecule codec of transactions, with its index operations.

  Every reader is written as the source has it, with slices and indices that PANIC out of bounds
  (`Lib.Codec`).

  **`molecule_codec`**: transactions, scripts, outputs, resolved cells, witness arguments and
  dependency groups are `Canonical`.  Reader and writer are inverse to each other, both ways, and no
  byte string makes a reader index out of bounds.  In particular NOTHING non-canonical is accepted: no
  gaps between fields, no shared or reordered offsets, no spare bytes.  It is assembled from one law
  for each layout: structs (`struct_canonical`), fixed-width vectors (`fixvec_canonical`), vectors
  of pieces (`dynvec_canonical`) and tables.
-/
import Myelin.Exec.CellTx
import Myelin.Lib.Codec

namespace Myelin.Exec

open Lib

/-- Fully resolved cell contents. -/
structure ResolvedCell where
  cellOutput : CellOutput
  data : Option (List UInt8)
  deriving DecidableEq

/-- CKB `WitnessArgs`. -/
structure CkbWitnessArgs where
  lock : Option (List UInt8)
  inputType : Option (List UInt8)
  outputType : Option (List UInt8)
  deriving DecidableEq

/-! ## Writers -/

/-- `CellInput` struct. -/
def serializeCellInputMolecule (input : CellInput) : List UInt8 :=
  le64 input.since ++ serializeOutpointMolecule input.previousOutput

/-- `CellDep` struct. -/
def serializeCellDepMolecule (dep : CellDep) : List UInt8 :=
  serializeOutpointMolecule dep.outPoint ++ [dep.depType.toByte]

/-- `CellOutput` table. -/
def serializeCellOutputMolecule (output : CellOutput) : List UInt8 :=
  encodeTable [le64 output.capacity, serializeScriptMolecule output.lock,
    writeOptional serializeScriptMolecule output.type_]

/-- A count and that many items of one width. -/
def encodeFixvec {α : Type} (write : α → List UInt8) (items : List α) : List UInt8 :=
  leBytes 4 items.length ++ items.flatMap write

/-- Items of any width: a table, or its size alone. -/
def encodeDynvec (items : List (List UInt8)) : List UInt8 :=
  if items = [] then leBytes 4 4 else encodeTable items

/-- A vector of byte vectors. -/
def encodeBytesVec (items : List (List UInt8)) : List UInt8 := encodeDynvec (items.map encodeBytes)

/-- `RawTransaction` table: everything but the witnesses. -/
def serializeRawTransactionMolecule (tx : CellTx) : List UInt8 :=
  encodeTable [le32 tx.version, encodeFixvec serializeCellDepMolecule tx.cellDeps,
    encodeFixvec Subtype.val tx.headerDeps, encodeFixvec serializeCellInputMolecule tx.inputs,
    encodeDynvec (tx.outputs.map serializeCellOutputMolecule), encodeBytesVec tx.outputsData]

/-- `Transaction` table. -/
def serializeTransactionMolecule (tx : CellTx) : List UInt8 :=
  encodeTable [serializeRawTransactionMolecule tx, encodeBytesVec tx.witnesses]

/-- `ResolvedCell` table. -/
def serializeResolvedCellMolecule (cell : ResolvedCell) : List UInt8 :=
  encodeTable [serializeCellOutputMolecule cell.cellOutput, writeOptional encodeBytes cell.data]

/-- `WitnessArgs` table. -/
def serializeCkbWitnessArgsMolecule (args : CkbWitnessArgs) : List UInt8 :=
  encodeTable [writeOptional encodeBytes args.lock, writeOptional encodeBytes args.inputType,
    writeOptional encodeBytes args.outputType]

/-- `OutPointVec`, the data of a dependency group: not empty. -/
def serializeCkbOutpointVecMolecule (outpoints : List OutPoint) : Except MoleculeError (List UInt8) :=
  if outpoints = [] then
    .error (.invalidFormat "OutPointVec" "CKB DepGroup OutPointVec must not be empty")
  else .ok (encodeFixvec serializeOutpointMolecule outpoints)

/-! ## Readers -/

/-- Readers of this format. -/
abbrev Read (α : Type) := Except (Fault MoleculeError) α

/-- `invalid(ty, reason)` unless the condition holds. -/
def validIf (c : Prop) [Decidable c] (ty reason : String) : Read Unit :=
  ensure c (.error (.invalidFormat ty reason))

variable (bytes : List UInt8) (ty : String)

/-- The number in the first four bytes. -/
def unpackNumber : Read Nat := do
  validIf (4 ≤ bytes.length) ty ("expected at least 4 bytes for number, got " ++ toString bytes.length)
  let b0 ← index bytes 0
  let b1 ← index bytes 1
  let b2 ← index bytes 2
  let b3 ← index bytes 3
  pure (ofLeBytes [b0, b1, b2, b3])

/-- The pieces between the offsets of a header. -/
def cutAt (firstOffset totalSize : Nat) (ty item container : String) :
    Read (List (List UInt8)) := do
  let header ← range bytes 4 firstOffset
  let numbers ← mapResult (fun chunk => unpackNumber chunk ty) (chunksExact 4 header)
  let offsets := numbers ++ [totalSize]
  validIf (offsets.IsChain (· ≤ ·)) ty (item ++ " offsets are not monotonic")
  validIf (∀ offset ∈ offsets, firstOffset ≤ offset ∧ offset ≤ totalSize) ty
    (item ++ " offset is outside " ++ container ++ " payload")
  mapResult (fun pair => range bytes pair.1 pair.2) (windows offsets)

/-- The fields of a table with the expected number of fields. -/
def decodeTable (expectedFields : Nat) (ty : String) : Read (List (List UInt8)) := do
  validIf (8 ≤ bytes.length) ty ("table header is too short: " ++ toString bytes.length)
  let totalSize ← unpackNumber bytes ty
  validIf (totalSize = bytes.length) ty
    ("total size mismatch: header " ++ toString totalSize ++ ", actual " ++ toString bytes.length)
  let rest ← range bytes 4 bytes.length
  let firstOffset ← unpackNumber rest ty
  validIf (firstOffset % 4 = 0 ∧ 8 ≤ firstOffset ∧ firstOffset ≤ bytes.length) ty
    ("invalid first field offset " ++ toString firstOffset)
  let fieldCount := firstOffset / 4 - 1
  ensure (fieldCount = expectedFields) (.error (MoleculeError.schemaMismatch
    (ty ++ ": expected " ++ toString expectedFields ++ " fields, got " ++ toString fieldCount)))
  cutAt bytes firstOffset totalSize ty "field" "table"

/-- The items of a vector of pieces. -/
def decodeDynvec : Read (List (List UInt8)) := do
  validIf (4 ≤ bytes.length) ty ("dynvec header is too short: " ++ toString bytes.length)
  let totalSize ← unpackNumber bytes ty
  validIf (totalSize = bytes.length) ty
    ("total size mismatch: header " ++ toString totalSize ++ ", actual " ++ toString bytes.length)
  if totalSize = 4 then pure []
  else do
    validIf (8 ≤ bytes.length) ty "non-empty dynvec missing first offset"
    let rest ← range bytes 4 bytes.length
    let firstOffset ← unpackNumber rest ty
    validIf (firstOffset % 4 = 0 ∧ 8 ≤ firstOffset ∧ firstOffset ≤ bytes.length) ty
      ("invalid first item offset " ++ toString firstOffset)
    cutAt bytes firstOffset totalSize ty "item" "dynvec"

/-- A length-prefixed byte vector that fills its bytes. -/
def decodeBytes : Read (List UInt8) := do
  let len ← unpackNumber bytes "Bytes"
  validIf (bytes.length = 4 + len) "Bytes"
    ("expected " ++ toString (4 + len) ++ " bytes, got " ++ toString bytes.length)
  range bytes 4 bytes.length

/-- Exactly one byte. -/
def decodeByte : Read UInt8 := do
  validIf (bytes.length = 1) ty ("expected 1 byte, got " ++ toString bytes.length)
  index bytes 0

/-- Exactly 32 bytes: `copy_from_slice` panics on any other length. -/
def decodeArray32 : Read (FixedBytes 32) := do
  validIf (bytes.length = 32) ty ("expected 32 bytes, got " ++ toString bytes.length)
  okOr (FixedBytes.ofList? 32 bytes) .panic

/-- Exactly four bytes. -/
def decodeU32 : Read UInt32 := do
  validIf (bytes.length = 4) ty ("expected 4 bytes, got " ++ toString bytes.length)
  let b0 ← index bytes 0
  let b1 ← index bytes 1
  let b2 ← index bytes 2
  let b3 ← index bytes 3
  pure (UInt32.ofNat (ofLeBytes [b0, b1, b2, b3]))

/-- Exactly eight bytes. -/
def decodeU64 : Read UInt64 := do
  validIf (bytes.length = 8) ty ("expected 8 bytes, got " ++ toString bytes.length)
  let b0 ← index bytes 0
  let b1 ← index bytes 1
  let b2 ← index bytes 2
  let b3 ← index bytes 3
  let b4 ← index bytes 4
  let b5 ← index bytes 5
  let b6 ← index bytes 6
  let b7 ← index bytes 7
  pure (UInt64.ofNat (ofLeBytes [b0, b1, b2, b3, b4, b5, b6, b7]))

/-- `0` or `1`. -/
def decodeDepType (byte : UInt8) : Read DepType :=
  if byte = 0 then .ok .code
  else if byte = 1 then .ok .depGroup
  else .error (.error (.invalidFormat "DepType" ("expected 0 or 1, got " ++ toString byte)))

/-- `OutPoint` from its struct. -/
def deserializeOutpointMolecule : Read OutPoint := do
  validIf (bytes.length = 36) "OutPoint" ("expected 36 bytes, got " ++ toString bytes.length)
  let txHash ← decodeArray32 (← range bytes 0 32) "OutPoint.tx_hash"
  let index ← decodeU32 (← range bytes 32 36) "OutPoint.index"
  pure ⟨txHash, index⟩

/-- `CellInput` from its struct. -/
def deserializeCellInputMolecule : Read CellInput := do
  validIf (bytes.length = 44) "CellInput" ("expected 44 bytes, got " ++ toString bytes.length)
  let since ← decodeU64 (← range bytes 0 8) "CellInput.since"
  let previousOutput ← deserializeOutpointMolecule (← range bytes 8 44)
  pure ⟨previousOutput, since⟩

/-- `CellDep` from its struct. -/
def deserializeCellDepMolecule : Read CellDep := do
  validIf (bytes.length = 37) "CellDep" ("expected 37 bytes, got " ++ toString bytes.length)
  let outPoint ← deserializeOutpointMolecule (← range bytes 0 36)
  let depType ← decodeDepType (← index bytes 36)
  pure ⟨outPoint, depType⟩

/-- `Script` from its table. -/
def deserializeScriptMolecule : Read Script := do
  let fields ← decodeTable bytes 3 "Script"
  let codeHash ← decodeArray32 (← index fields 0) "Script.code_hash"
  let hashType ← decodeByte (← index fields 1) "Script.hash_type"
  let args ← decodeBytes (← index fields 2)
  pure ⟨codeHash, hashType, args⟩

/-- `CellOutput` from its table. -/
def deserializeCellOutputMolecule : Read CellOutput := do
  let fields ← decodeTable bytes 3 "CellOutput"
  let capacity ← decodeU64 (← index fields 0) "CellOutput.capacity"
  let lock ← deserializeScriptMolecule (← index fields 1)
  let type_ ← readOptional deserializeScriptMolecule (← index fields 2)
  pure ⟨lock, type_, capacity⟩

/-- A count and that many items of one width. -/
def decodeFixvec {α : Type} (width : Nat) (item : List UInt8 → Read α) (ty : String)
    (bytes : List UInt8) : Read (List α) := do
  let count ← unpackNumber bytes ty
  validIf (bytes.length = 4 + count * width) ty
    ("expected " ++ toString (4 + count * width) ++ " bytes, got " ++ toString bytes.length)
  let body ← range bytes 4 bytes.length
  mapResult item (chunksExact width body)

/-- Header dependencies. -/
def decodeFixvecByte32 : List UInt8 → Read (List (FixedBytes 32)) :=
  decodeFixvec 32 (fun chunk => decodeArray32 chunk ty) ty

/-- Cell dependencies. -/
def decodeFixvecCellDeps : List UInt8 → Read (List CellDep) :=
  decodeFixvec 37 deserializeCellDepMolecule "CellDepVec"

/-- Inputs. -/
def decodeFixvecCellInputs : List UInt8 → Read (List CellInput) :=
  decodeFixvec 44 deserializeCellInputMolecule "CellInputVec"

/-- Items of any width, each read by itself. -/
def decodeItems {α : Type} (item : List UInt8 → Read α) (ty : String) (bytes : List UInt8) :
    Read (List α) := do
  mapResult item (← decodeDynvec bytes ty)

/-- Outputs. -/
def decodeDynvecCellOutputs : List UInt8 → Read (List CellOutput) :=
  decodeItems deserializeCellOutputMolecule "CellOutputVec"

/-- Byte vectors. -/
def decodeBytesVec : Read (List (List UInt8)) :=
  decodeItems decodeBytes ty bytes

/-- `RawTransaction` from its table: a transaction without witnesses. -/
def deserializeRawTransactionMolecule : Read CellTx := do
  let fields ← decodeTable bytes 6 "RawTransaction"
  let outputs ← decodeDynvecCellOutputs (← index fields 4)
  let outputsData ← decodeBytesVec (← index fields 5) "RawTransaction.outputs_data"
  ensure (outputs.length = outputsData.length) (.error (MoleculeError.validationFailed
    ("RawTransaction outputs/outputs_data length mismatch: " ++ toString outputs.length ++
      " outputs, " ++ toString outputsData.length ++ " data entries")))
  let version ← decodeU32 (← index fields 0) "RawTransaction.version"
  let cellDeps ← decodeFixvecCellDeps (← index fields 1)
  let headerDeps ← decodeFixvecByte32 "RawTransaction.header_deps" (← index fields 2)
  let inputs ← decodeFixvecCellInputs (← index fields 3)
  pure ⟨version, inputs, cellDeps, headerDeps, outputs, outputsData, []⟩

/-- `Transaction` from its table. -/
def deserializeTransactionMolecule : Read CellTx := do
  let fields ← decodeTable bytes 2 "Transaction"
  let tx ← deserializeRawTransactionMolecule (← index fields 0)
  let witnesses ← decodeBytesVec (← index fields 1) "Transaction.witnesses"
  pure { tx with witnesses := witnesses }

/-- `ResolvedCell` from its table. -/
def deserializeResolvedCellMolecule : Read ResolvedCell := do
  let fields ← decodeTable bytes 2 "ResolvedCell"
  let cellOutput ← deserializeCellOutputMolecule (← index fields 0)
  let data ← readOptional decodeBytes (← index fields 1)
  pure ⟨cellOutput, data⟩

/-- `WitnessArgs` from its table. -/
def deserializeCkbWitnessArgsMolecule : Read CkbWitnessArgs := do
  let fields ← decodeTable bytes 3 "WitnessArgs"
  let lock ← readOptional decodeBytes (← index fields 0)
  let inputType ← readOptional decodeBytes (← index fields 1)
  let outputType ← readOptional decodeBytes (← index fields 2)
  pure ⟨lock, inputType, outputType⟩

/-- `OutPointVec`: at least one outpoint. -/
def deserializeCkbOutpointVecMolecule : Read (List OutPoint) := do
  let count ← unpackNumber bytes "OutPointVec"
  validIf (count ≠ 0) "OutPointVec" "CKB DepGroup OutPointVec must not be empty"
  validIf (bytes.length = 4 + count * 36) "OutPointVec"
    s!"expected {4 + count * 36} bytes for {count} outpoints, got {bytes.length}"
  let body ← range bytes 4 bytes.length
  mapResult deserializeOutpointMolecule (chunksExact 36 body)

/-! ## Numbers, bytes and structs -/

variable {bytes}

/-- Four bytes at the front. -/
lemma exists_four (h : 4 ≤ bytes.length) :
    ∃ b0 b1 b2 b3 rest, bytes = b0 :: b1 :: b2 :: b3 :: rest := by
  match bytes, h with
  | b0 :: b1 :: b2 :: b3 :: rest, _ => exact ⟨b0, b1, b2, b3, rest, rfl⟩

lemma unpackNumber_accepts (bytes : List UInt8) (ty : String) :
    Accepts (unpackNumber bytes ty) fun n => 4 ≤ bytes.length ∧ ofLeBytes (bytes.take 4) = n := by
  have hread : unpackNumber bytes ty = (do
      validIf (4 ≤ bytes.length) ty ("expected at least 4 bytes for number, got " ++ toString bytes.length)
      pure (ofLeBytes (bytes.take 4))) := by
    refine ensure_bind_congr fun h => ?_
    obtain ⟨b0, b1, b2, b3, rest, rfl⟩ := exists_four h
    rfl
  rw [hread]
  exact (accepts_ensure.bind fun _ _ => accepts_pure _).congr fun n => by simp

lemma u32_canonical (ty : String) : Canonical (decodeU32 · ty) le32 fun _ => True := by
  refine number_canonical (fun bytes => ensure_bind_congr fun h => ?_)
    (fun n hn => UInt32.toNat_ofNat_of_lt' hn) (fun _ => UInt32.ofNat_toNat) fun x => x.toNat_lt
  match bytes, h with
  | [b0, b1, b2, b3], _ => rfl

lemma u64_canonical (ty : String) : Canonical (decodeU64 · ty) le64 fun _ => True := by
  refine number_canonical (fun bytes => ensure_bind_congr fun h => ?_)
    (fun n hn => UInt64.toNat_ofNat_of_lt' hn) (fun _ => UInt64.ofNat_toNat) fun x => x.toNat_lt
  match bytes, h with
  | [b0, b1, b2, b3, b4, b5, b6, b7], _ => rfl

lemma array32_canonical (ty : String) :
    Canonical (decodeArray32 · ty) Subtype.val fun _ => True := by
  refine .of_accepts (fun _ _ _ => trivial) fun bytes => ?_
  have hread : decodeArray32 bytes ty = okOr (FixedBytes.ofList? 32 bytes)
      (.error (.invalidFormat ty ("expected 32 bytes, got " ++ toString bytes.length))) := by
    unfold decodeArray32 validIf ensure FixedBytes.ofList?
    split_ifs <;> rfl
  rw [hread]
  exact accepts_okOr.congr fun value => by simp [FixedBytes.ofList?_eq_some]

lemma byte_canonical (ty : String) :
    Canonical (decodeByte · ty) (fun byte => [byte]) fun _ => True := by
  refine .of_accepts (fun _ _ _ => trivial) fun bytes => (accepts_ensure.bind fun _ hlength =>
    accepts_index (show 0 < bytes.length by omega)).congr fun byte => ?_
  constructor
  · rintro ⟨_, hlength, hbyte⟩
    obtain ⟨only, rfl⟩ := List.length_eq_one_iff.mp hlength
    obtain rfl : only = byte := Option.some_inj.mp hbyte
    exact ⟨trivial, rfl, trivial⟩
  · rintro ⟨-, rfl, -⟩
    exact ⟨(), rfl, rfl⟩

lemma bytes_canonical : Canonical decodeBytes encodeBytes fun _ => True := by
  refine .of_accepts (fun value _ hfits => (?_ : value.length < 2 ^ 32)) fun bytes =>
    ((unpackNumber_accepts bytes _).bind fun len hlen => accepts_ensure.bind fun _ hlength =>
      accepts_range (by omega) (Nat.le_refl _)).congr fun value => ?_
  · rw [encodeBytes, List.length_append] at hfits
    omega
  · rw [slice_to_end]
    constructor
    · rintro ⟨_, ⟨hfour, rfl⟩, _, hlength, rfl⟩
      have hbound := ofLeBytes_lt (bytes.take 4)
      have hback := leBytes_ofLeBytes (bytes.take 4)
      rw [List.length_take, Nat.min_eq_left hfour] at hbound hback
      have hvalue : (bytes.drop 4).length = ofLeBytes (bytes.take 4) := by
        rw [List.length_drop]
        omega
      rw [encodeBytes, hvalue, hback, List.take_append_drop]
      exact ⟨by omega, rfl, trivial⟩
    · rintro ⟨hbound, rfl, -⟩
      rw [encodeBytes, List.take_left' (leBytes_length 4 _), List.drop_left' (leBytes_length 4 _),
        List.length_append, leBytes_length, ofLeBytes_leBytes 4 _ (by omega)]
      exact ⟨_, ⟨by omega, rfl⟩, (), rfl, rfl⟩

lemma decodeDepType_accepts (byte : UInt8) :
    Accepts (decodeDepType byte) fun depType => byte = depType.toByte := by
  unfold decodeDepType
  split_ifs with hzero hone
  · exact ⟨fun depType => by cases depType <;> simp [hzero, DepType.toByte], avoids_ok _⟩
  · exact ⟨fun depType => by cases depType <;> simp [hone, DepType.toByte], avoids_ok _⟩
  · exact ⟨fun depType => by cases depType <;> simp [hzero, hone, DepType.toByte],
      avoids_error nofun⟩

lemma outpoint_canonical :
    Canonical deserializeOutpointMolecule serializeOutpointMolecule fun _ => True :=
  struct_canonical (by decide) (array32_canonical _) (u32_canonical _) (by decide)
    (fun hash => hash.property) (fun _ => by rw [le32, leBytes_length]) fun _ _ x => by cases x; simp

lemma cellInput_canonical :
    Canonical deserializeCellInputMolecule serializeCellInputMolecule fun _ => True :=
  struct_canonical (by decide) (u64_canonical _) outpoint_canonical (by decide)
    (fun _ => leBytes_length 8 _) (by simp) fun _ _ x => by cases x; simp [and_comm]

lemma cellDep_canonical :
    Canonical deserializeCellDepMolecule serializeCellDepMolecule fun _ => True := by
  refine .of_accepts (fun _ _ _ => trivial) fun bytes => (accepts_ensure.bind fun _ hlength =>
    (accepts_range (by decide) (by omega)).bind fun _ hfirst =>
    (outpoint_canonical.accepts (hfirst ▸ (slice_length_le ..).trans_lt (by omega))).bind fun _ _ =>
    (accepts_index (show 36 < bytes.length by omega)).bind fun _ _ =>
    (decodeDepType_accepts _).bind fun _ _ => accepts_pure _).congr fun dep => ?_
  constructor
  · rintro ⟨_, hlength, _, rfl, outPoint, ⟨houtpoint, -⟩, byte, hbyte, depType, rfl, rfl⟩
    have hlast : bytes.drop 36 = [depType.toByte] := by
      rw [List.drop_eq_getElem?_toList_append, hbyte, List.drop_of_length_le (by omega)]
      rfl
    rw [serializeCellDepMolecule, ← houtpoint, ← hlast, slice_zero, List.take_append_drop]
    exact ⟨trivial, rfl, trivial⟩
  · rintro ⟨-, rfl, -⟩
    have hwidth := serializeOutpointMolecule_length dep.outPoint
    refine ⟨(), ?_, _, rfl, dep.outPoint, ⟨?_, trivial⟩, dep.depType.toByte, ?_, _, rfl, rfl⟩
    · rw [serializeCellDepMolecule, List.length_append, hwidth, List.length_singleton]
    · rw [serializeCellDepMolecule, slice_zero, List.take_left' hwidth]
    · rw [serializeCellDepMolecule, List.getElem?_append_right hwidth.le, hwidth]
      rfl

/-! ## Tables and vectors of pieces -/

lemma mapResult_unpackNumber {pieces : List (List UInt8)} {ty : String}
    (h : ∀ piece ∈ pieces, piece.length = 4) :
    mapResult (fun chunk => unpackNumber chunk ty) pieces = .ok (pieces.map ofLeBytes) := by
  induction pieces with
  | nil => rfl
  | cons piece rest ih =>
    obtain ⟨hpiece, hrest⟩ := List.forall_mem_cons.mp h
    have hnumber : unpackNumber piece ty = .ok (ofLeBytes piece) := by
      rw [(unpackNumber_accepts _ _).eq_ok, List.take_of_length_le hpiece.le]
      exact ⟨hpiece.ge, rfl⟩
    rw [mapResult, hnumber, ih hrest]
    rfl

/-- Cutting never panics: the checks come before the slices. -/
lemma cutAt_accepts {first : Nat} {ty item container : String}
    (hfirst : first % 4 = 0 ∧ 8 ≤ first ∧ first ≤ bytes.length) :
    Accepts (cutAt bytes first bytes.length ty item container) fun pieces =>
      (offsetsOf bytes first).IsChain (· ≤ ·) ∧
      (∀ offset ∈ offsetsOf bytes first, first ≤ offset ∧ offset ≤ bytes.length) ∧
      slices bytes (offsetsOf bytes first) = pieces := by
  obtain ⟨hmod, hlow, hhigh⟩ := hfirst
  have hheader : slice bytes 4 first = (bytes.drop 4).take (first - 4) := by
    rw [slice, List.drop_take]
  have hcount : (first - 4) / 4 = first / 4 - 1 := by omega
  have hlength : ((bytes.drop 4).take (first - 4)).length = first - 4 := by
    rw [List.length_take, List.length_drop]
    omega
  have hchunks : chunksExact 4 (slice bytes 4 first) = chunks 4 (first / 4 - 1) (bytes.drop 4) := by
    rw [chunksExact, hheader, hlength, hcount, chunks_take (by omega)]
  have hpieces : ∀ piece ∈ chunks 4 (first / 4 - 1) (bytes.drop 4), piece.length = 4 :=
    fun piece => length_of_mem_chunks (by rw [List.length_drop]; omega)
  have hnumbers : ∀ header, slice bytes 4 first = header →
      Accepts (mapResult (fun chunk => unpackNumber chunk ty) (chunksExact 4 header))
        (readNumbers (first / 4 - 1) (bytes.drop 4) = ·) := by
    rintro _ rfl
    rw [hchunks, mapResult_unpackNumber hpieces, ← readNumbers_eq_map_chunks]
    exact accepts_pure _
  unfold cutAt
  refine Accepts.congr ((accepts_range (by omega) hhigh).bind fun header hheader =>
    (hnumbers header hheader).bind fun numbers _ => accepts_ensure.bind fun _ hchain =>
    accepts_ensure.bind fun _ hbounds =>
    accepts_windows hchain fun offset hoffset => (hbounds offset hoffset).2) fun pieces => ?_
  simp [offsetsOf]

lemma decodeTable_accepts (ty : String) {count : Nat} (hpos : 0 < count) (bytes : List UInt8) :
    Accepts (decodeTable bytes count ty) fun fields =>
      fields.length = count ∧ bytes.length < 2 ^ 32 ∧ bytes = encodeTable fields := by
  refine (accepts_ensure.bind fun _ hlong => (unpackNumber_accepts bytes ty).bind fun total _ =>
    accepts_ensure.bind fun _ htotal => (accepts_range (by omega) (Nat.le_refl _)).bind fun rest _ =>
    (unpackNumber_accepts rest ty).bind fun first _ => accepts_ensure.bind fun _ hfirst =>
    accepts_ensure.bind fun _ _ => htotal ▸ cutAt_accepts hfirst).congr fun fields => ?_
  constructor
  · rintro ⟨_, hlong, _, ⟨-, htotal⟩, _, rfl, _, rfl, first, ⟨-, hstart⟩, _, hinside, _, rfl, hchain,
      hbounds, rfl⟩
    rw [slice_to_end] at hstart
    exact Header.eq_encodeTable ⟨hlong, htotal, hstart, hinside, hchain, hbounds⟩
  · rintro ⟨rfl, hfits, rfl⟩
    obtain ⟨⟨hlong, htotal, hstart, hinside, hchain, hbounds⟩, hslices⟩ := header_encodeTable hfits hpos
    refine ⟨(), hlong, _, ⟨by omega, htotal⟩, (), rfl, _, rfl, _, ⟨?_, ?_⟩, (), hinside, (), by omega,
      hchain, hbounds, hslices⟩
    · rw [slice_to_end, List.length_drop]
      omega
    · rw [slice_to_end, hstart]

lemma encodeDynvec_eq (items : List (List UInt8)) : encodeDynvec items = encodeTable items := by
  unfold encodeDynvec
  split_ifs with hempty
  · rw [hempty]
    rfl
  · rfl

/-- A vector of pieces is accepted exactly if it is the table of its items. -/
lemma decodeDynvec_accepts (bytes : List UInt8) (ty : String) :
    Accepts (decodeDynvec bytes ty) fun items =>
      bytes.length < 2 ^ 32 ∧ bytes = encodeTable items := by
  unfold decodeDynvec
  refine Accepts.congr (accepts_ensure.bind fun _ hfour => (unpackNumber_accepts bytes ty).bind
    fun total htotal => accepts_ensure.bind fun _ heq =>
    (?_ : Accepts _ fun items => bytes.length < 2 ^ 32 ∧ bytes = encodeTable items)) fun items => ?_
  · subst heq
    split_ifs with hsize
    · refine (accepts_pure _).congr fun items => ⟨?_, ?_⟩
      · rintro rfl
        have hwrite := leBytes_ofLeBytes bytes
        rw [List.take_of_length_le hsize.le] at htotal
        rw [htotal.2, hsize] at hwrite
        exact ⟨by omega, hwrite.symm⟩
      · rintro ⟨-, rfl⟩
        rw [encodeTable_length] at hsize
        exact (List.eq_nil_of_length_eq_zero (by omega)).symm
    · -- with an item, the checks are those of a table
      refine Accepts.congr (accepts_ensure.bind fun _ hlong =>
        (accepts_range (by omega) (Nat.le_refl _)).bind fun rest _ => (unpackNumber_accepts rest ty).bind
        fun first _ => accepts_ensure.bind fun _ hinside => cutAt_accepts hinside) fun items => ⟨?_, ?_⟩
      · rintro ⟨_, hlong, _, rfl, first, ⟨-, hstart⟩, _, hinside, hchain, hbounds, rfl⟩
        rw [slice_to_end] at hstart
        exact (Header.eq_encodeTable ⟨hlong, htotal.2, hstart, hinside, hchain, hbounds⟩).2
      · rintro ⟨hfits, rfl⟩
        have hsome : 0 < items.length := List.length_pos_of_ne_nil fun hnil => hsize (by rw [hnil]; rfl)
        obtain ⟨⟨hlong, -, hstart, hinside, hchain, hbounds⟩, hslices⟩ := header_encodeTable hfits hsome
        refine ⟨(), hlong, _, rfl, _, ⟨?_, ?_⟩, (), hinside, hchain, hbounds, hslices⟩
        · rw [slice_to_end, List.length_drop]
          omega
        · rw [slice_to_end, hstart]
  · constructor
    · rintro ⟨_, _, _, _, _, _, h⟩
      exact h
    · rintro ⟨hfits, rfl⟩
      have hfour : 4 ≤ (encodeTable items).length := by
        rw [encodeTable_length]
        omega
      exact ⟨(), hfour, _, ⟨hfour, (encodeTable_header hfits).1⟩, (), rfl, hfits, rfl⟩

/-! ## Layouts -/

section Layouts

variable {α : Type} {item : List UInt8 → Read α} {write : α → List UInt8} {well : α → Prop}

lemma encodeFixvec_length {width : Nat} {xs : List α} (hwidth : ∀ x ∈ xs, (write x).length = width) :
    (encodeFixvec write xs).length = 4 + xs.length * width := by
  rw [encodeFixvec, List.length_append, leBytes_length, List.flatMap,
    length_flatten_of_width (List.forall_mem_map.mpr hwidth), List.length_map]

/-- The count stands in front. -/
lemma encodeFixvec_count {xs : List α} :
    ((4 ≤ bytes.length ∧ ofLeBytes (bytes.take 4) = xs.length) ∧ bytes = encodeFixvec write xs) ↔
      xs.length < 2 ^ 32 ∧ bytes = encodeFixvec write xs := by
  constructor
  · rintro ⟨⟨hfour, hcount⟩, hbytes⟩
    have hbound := ofLeBytes_lt (bytes.take 4)
    rw [List.length_take, Nat.min_eq_left hfour, hcount] at hbound
    exact ⟨hbound, hbytes⟩
  · rintro ⟨hbound, rfl⟩
    rw [encodeFixvec, List.take_left' (leBytes_length 4 _), List.length_append, leBytes_length]
    exact ⟨⟨by omega, ofLeBytes_leBytes 4 _ hbound⟩, rfl⟩

/-- Items of one width behind their count. -/
lemma items_accepts {width : Nat} {error : MoleculeError} (hpos : 0 < width) (hlt : width < 2 ^ 32)
    (h : Canonical item write well) (hwidth : ∀ x, well x → (write x).length = width)
    (hcount : 4 ≤ bytes.length ∧ ofLeBytes (bytes.take 4) = count) :
    Accepts (do
      ensure (bytes.length = 4 + count * width) (.error error)
      let body ← range bytes 4 bytes.length
      mapResult item (chunksExact width body)) fun xs =>
        count = xs.length ∧ bytes = encodeFixvec write xs ∧ ∀ x ∈ xs, well x := by
  refine Accepts.congr (accepts_ensure.bind fun _ hlength =>
    (accepts_range hcount.1 (Nat.le_refl _)).bind fun body _ =>
    h.mapResult_accepts fun piece hpiece => ?_) fun xs => ?_
  · rw [length_of_mem_chunks (Nat.div_mul_le_self _ _) hpiece]
    exact hlt
  constructor
  · rintro ⟨_, hlength, _, rfl, hchunks, hwell⟩
    have hbody : (bytes.drop 4).length = count * width := by
      rw [List.length_drop]
      omega
    have hback := leBytes_ofLeBytes (bytes.take 4)
    rw [List.length_take, Nat.min_eq_left hcount.1, hcount.2] at hback
    rw [slice_to_end, chunksExact, hbody, Nat.mul_div_cancel _ hpos] at hchunks
    have hmany : count = xs.length := by rw [← List.length_map write, ← hchunks, chunks_length]
    refine ⟨hmany, ?_, hwell⟩
    rw [encodeFixvec, List.flatMap, ← hchunks, flatten_chunks hbody, ← hmany, hback,
      List.take_append_drop]
  · rintro ⟨rfl, rfl, hwell⟩
    have hitems : ∀ x ∈ xs, (write x).length = width := fun x hx => hwidth x (hwell x hx)
    refine ⟨(), encodeFixvec_length hitems, _, rfl, ?_, hwell⟩
    rw [slice_to_end, encodeFixvec, List.drop_left' (leBytes_length 4 _), chunksExact, List.flatMap,
      length_flatten_of_width (List.forall_mem_map.mpr hitems), Nat.mul_div_cancel _ hpos,
      chunks_flatten (List.forall_mem_map.mpr hitems)]

/-- A count and items of one width. -/
lemma fixvec_canonical {width : Nat} {ty : String} (hpos : 0 < width) (hlt : width < 2 ^ 32)
    (h : Canonical item write well) (hwidth : ∀ x, well x → (write x).length = width) :
    Canonical (decodeFixvec width item ty) (encodeFixvec write) fun xs => ∀ x ∈ xs, well x := by
  refine .of_accepts (fun xs hwell hfits => (?_ : xs.length < 2 ^ 32)) fun bytes =>
    ((unpackNumber_accepts bytes ty).bind fun count hcount =>
      items_accepts hpos hlt h hwidth hcount).congr fun xs => ?_
  · have hle : xs.length ≤ xs.length * width := Nat.le_mul_of_pos_right _ hpos
    rw [encodeFixvec_length fun x hx => hwidth x (hwell x hx)] at hfits
    omega
  · rw [← and_assoc, ← encodeFixvec_count]
    grind

/-- Items of any width. -/
lemma dynvec_canonical {ty : String} (h : Canonical item write well) :
    Canonical (decodeItems item ty) (fun xs => encodeDynvec (xs.map write))
      fun xs => ∀ x ∈ xs, well x := by
  refine .of_accepts (fun _ _ hfits => hfits) fun bytes => ((decodeDynvec_accepts bytes ty).bind
    fun pieces hpieces => h.mapResult_accepts fun piece hpiece => ?_).congr fun xs => ?_
  · obtain ⟨hfits, rfl⟩ := hpieces
    exact (length_le_encodeTable hpiece).trans_lt hfits
  · rw [encodeDynvec_eq]
    constructor
    · rintro ⟨pieces, ⟨hfits, rfl⟩, rfl, hwell⟩
      exact ⟨hfits, rfl, hwell⟩
    · rintro ⟨hfits, rfl, hwell⟩
      exact ⟨_, ⟨hfits, rfl⟩, rfl, hwell⟩

end Layouts

/-! ## Tables -/

lemma encodeBytes_ne_nil (bytes : List UInt8) : encodeBytes bytes ≠ [] := by
  intro h
  have := congrArg List.length h
  simp [encodeBytes] at this

lemma encodeTable_ne_nil (fields : List (List UInt8)) : encodeTable fields ≠ [] := by
  intro h
  have := congrArg List.length h
  rw [encodeTable_length, List.length_nil] at this
  omega

lemma script_canonical :
    Canonical deserializeScriptMolecule serializeScriptMolecule fun _ => True := by
  refine table_canonical (decodeTable_accepts _ (by decide)) (fun _ => rfl)
    fun fields hcount hfits => ?_
  obtain ⟨a, b, c, rfl⟩ := List.length_eq_three.mp hcount
  simp only [List.forall_mem_cons] at hfits
  refine Accepts.congr (((array32_canonical _).accepts hfits.1).bind fun codeHash _ =>
    ((byte_canonical _).accepts hfits.2.1).bind fun hashType _ =>
    (bytes_canonical.accepts hfits.2.2.1).bind fun args _ => accepts_pure _) fun script => ?_
  grind

lemma cellOutput_canonical :
    Canonical deserializeCellOutputMolecule serializeCellOutputMolecule fun _ => True := by
  have htype := script_canonical.optional fun script => encodeTable_ne_nil _
  refine table_canonical (decodeTable_accepts _ (by decide)) (fun _ => rfl)
    fun fields hcount hfits => ?_
  obtain ⟨a, b, c, rfl⟩ := List.length_eq_three.mp hcount
  simp only [List.forall_mem_cons] at hfits
  refine Accepts.congr (((u64_canonical _).accepts hfits.1).bind fun capacity _ =>
    (script_canonical.accepts hfits.2.1).bind fun lock _ =>
    (htype.accepts hfits.2.2.1).bind fun type_ _ => accepts_pure _) fun output => ?_
  grind

/-- An optional byte vector. -/
lemma bytesOpt_canonical :
    Canonical (readOptional decodeBytes) (writeOptional encodeBytes) fun _ => True :=
  (bytes_canonical.optional encodeBytes_ne_nil).of_forall fun _ _ _ => trivial

lemma resolvedCell_canonical :
    Canonical deserializeResolvedCellMolecule serializeResolvedCellMolecule fun _ => True := by
  refine table_canonical (decodeTable_accepts _ (by decide)) (fun _ => rfl)
    fun fields hcount hfits => ?_
  obtain ⟨a, b, rfl⟩ := List.length_eq_two.mp hcount
  simp only [List.forall_mem_cons] at hfits
  refine Accepts.congr ((cellOutput_canonical.accepts hfits.1).bind fun cellOutput _ =>
    (bytesOpt_canonical.accepts hfits.2.1).bind fun data _ => accepts_pure _) fun cell => ?_
  grind

lemma witnessArgs_canonical :
    Canonical deserializeCkbWitnessArgsMolecule serializeCkbWitnessArgsMolecule fun _ => True := by
  refine table_canonical (decodeTable_accepts _ (by decide)) (fun _ => rfl)
    fun fields hcount hfits => ?_
  obtain ⟨a, b, c, rfl⟩ := List.length_eq_three.mp hcount
  simp only [List.forall_mem_cons] at hfits
  refine Accepts.congr ((bytesOpt_canonical.accepts hfits.1).bind fun lock _ =>
    (bytesOpt_canonical.accepts hfits.2.1).bind fun inputType _ =>
    (bytesOpt_canonical.accepts hfits.2.2.1).bind fun outputType _ => accepts_pure _) fun args => ?_
  grind

/-! ## Transactions -/

lemma cellDeps_canonical :
    Canonical decodeFixvecCellDeps (encodeFixvec serializeCellDepMolecule) fun _ => True := by
  refine (fixvec_canonical (by decide) (by decide) cellDep_canonical fun dep _ => ?_).of_forall
    fun _ _ _ => trivial
  rw [serializeCellDepMolecule, List.length_append, serializeOutpointMolecule_length]
  rfl

lemma headerDeps_canonical (ty : String) :
    Canonical (decodeFixvecByte32 ty) (encodeFixvec Subtype.val) fun _ => True :=
  (fixvec_canonical (by decide) (by decide) (array32_canonical ty) fun hash _ => hash.property).of_forall
    fun _ _ _ => trivial

lemma cellInputs_canonical :
    Canonical decodeFixvecCellInputs (encodeFixvec serializeCellInputMolecule) fun _ => True := by
  refine (fixvec_canonical (by decide) (by decide) cellInput_canonical fun input _ => ?_).of_forall
    fun _ _ _ => trivial
  rw [serializeCellInputMolecule, List.length_append, serializeOutpointMolecule_length, le64,
    leBytes_length]

lemma cellOutputs_canonical : Canonical decodeDynvecCellOutputs
    (fun outputs => encodeDynvec (outputs.map serializeCellOutputMolecule)) fun _ => True :=
  (dynvec_canonical cellOutput_canonical).of_forall fun _ _ _ => trivial

lemma bytesVec_canonical (ty : String) :
    Canonical (decodeBytesVec · ty) encodeBytesVec fun _ => True :=
  (dynvec_canonical bytes_canonical).of_forall fun _ _ _ => trivial

/-- As many data entries as outputs. -/
def CellTx.Paired (tx : CellTx) : Prop := tx.outputs.length = tx.outputsData.length

lemma rawTransaction_canonical :
    Canonical deserializeRawTransactionMolecule serializeRawTransactionMolecule
      fun tx => tx.Paired ∧ tx.witnesses = [] := by
  refine table_canonical (decodeTable_accepts _ (by decide)) (fun _ => rfl)
    fun fields hcount hfits => ?_
  match fields, hcount with
  | [a, b, c, d, e, f], _ =>
    simp only [List.forall_mem_cons] at hfits
    obtain ⟨hversion, hdeps, hheaders, hinputs, houtputs, hdata, -⟩ := hfits
    refine Accepts.congr ((cellOutputs_canonical.accepts houtputs).bind fun outputs _ =>
      ((bytesVec_canonical _).accepts hdata).bind fun data _ => accepts_ensure.bind fun _ hpaired =>
      ((u32_canonical _).accepts hversion).bind fun version _ =>
      (cellDeps_canonical.accepts hdeps).bind fun cellDeps _ =>
      ((headerDeps_canonical _).accepts hheaders).bind fun headerDeps _ =>
      (cellInputs_canonical.accepts hinputs).bind fun inputs _ => accepts_pure _) fun tx => ?_
    obtain ⟨version, inputs, cellDeps, headerDeps, outputs, data, witnesses⟩ := tx
    grind [CellTx.Paired]

lemma transaction_canonical :
    Canonical deserializeTransactionMolecule serializeTransactionMolecule CellTx.Paired := by
  refine table_canonical (decodeTable_accepts _ (by decide)) (fun _ => rfl)
    fun fields hcount hfits => ?_
  obtain ⟨a, b, rfl⟩ := List.length_eq_two.mp hcount
  simp only [List.forall_mem_cons] at hfits
  refine Accepts.congr ((rawTransaction_canonical.accepts hfits.1).bind fun raw _ =>
    ((bytesVec_canonical _).accepts hfits.2.1).bind fun witnesses _ => accepts_pure _) fun tx => ?_
  constructor
  · rintro ⟨raw, ⟨rfl, hpaired, -⟩, witnesses, ⟨rfl, -⟩, rfl⟩
    exact ⟨rfl, hpaired⟩
  · rintro ⟨hfields, hpaired⟩
    obtain ⟨rfl, hlast⟩ := List.cons.inj hfields
    obtain ⟨rfl, -⟩ := List.cons.inj hlast
    -- the raw part does not depend on the witnesses
    exact ⟨{ tx with witnesses := [] }, ⟨rfl, hpaired, rfl⟩, tx.witnesses, ⟨rfl, trivial⟩, rfl⟩

/-! ## Dependency groups -/

/-- A dependency group is a vector of outpoints that is not empty. -/
lemma outpointVec_accepts (bytes : List UInt8) :
    Accepts (deserializeCkbOutpointVecMolecule bytes) fun outpoints =>
      outpoints ≠ [] ∧ outpoints.length < 2 ^ 32 ∧
        bytes = encodeFixvec serializeOutpointMolecule outpoints := by
  refine ((unpackNumber_accepts bytes _).bind fun count hcount => accepts_ensure.bind fun _ _ =>
    items_accepts (by decide) (by decide) outpoint_canonical
      (fun outpoint _ => serializeOutpointMolecule_length outpoint) hcount).congr fun outpoints => ?_
  rw [← encodeFixvec_count]
  grind

/-- The members of a dependency group, from its cell's data. -/
def parseCkbDepGroupData (data : List UInt8) : Except String (List OutPoint) :=
  (outpointVec_accepts data).safe.outcome.mapError MoleculeError.display

/-- **Molecule codec**: for transactions with as many data entries as outputs, for scripts, outputs,
    resolved cells and witness arguments, whatever is written below 4 GiB is read back, whatever is
    accepted is written back to the same bytes, and no bytes make a reader index out of bounds.  The
    same holds for dependency groups, which are not empty, and it is this reader that finds the members
    of a group. -/
theorem molecule_codec :
    Canonical deserializeTransactionMolecule serializeTransactionMolecule CellTx.Paired ∧
    Canonical deserializeScriptMolecule serializeScriptMolecule (fun _ => True) ∧
    Canonical deserializeCellOutputMolecule serializeCellOutputMolecule (fun _ => True) ∧
    Canonical deserializeResolvedCellMolecule serializeResolvedCellMolecule (fun _ => True) ∧
    Canonical deserializeCkbWitnessArgsMolecule serializeCkbWitnessArgsMolecule (fun _ => True) ∧
    (∀ outpoints, outpoints ≠ [] → ∃ bytes, serializeCkbOutpointVecMolecule outpoints = .ok bytes ∧
      (bytes.length < 2 ^ 32 → deserializeCkbOutpointVecMolecule bytes = .ok outpoints)) ∧
    (∀ bytes outpoints, deserializeCkbOutpointVecMolecule bytes = .ok outpoints →
      serializeCkbOutpointVecMolecule outpoints = .ok bytes) ∧
    (∀ bytes, Safe (deserializeCkbOutpointVecMolecule bytes)) ∧
    ∀ data outpoints, parseCkbDepGroupData data = .ok outpoints ↔
      deserializeCkbOutpointVecMolecule data = .ok outpoints := by
  refine ⟨transaction_canonical, script_canonical, cellOutput_canonical, resolvedCell_canonical,
    witnessArgs_canonical, fun outpoints hne => ?_, fun bytes outpoints h => ?_,
    fun bytes => (outpointVec_accepts bytes).safe, fun data outpoints => by simp [parseCkbDepGroupData]⟩
  · refine ⟨_, if_neg hne, fun hfits => ((outpointVec_accepts _).eq_ok _).mpr ⟨hne, ?_, rfl⟩⟩
    rw [encodeFixvec_length fun outpoint _ => serializeOutpointMolecule_length outpoint] at hfits
    omega
  · obtain ⟨hne, -, rfl⟩ := ((outpointVec_accepts bytes).eq_ok outpoints).mp h
    exact if_neg hne

end Myelin.Exec
