/-
  Cells on the wire: outpoints, scripts and their Molecule layouts.

  Writers never fail, so they are plain functions.  The readers, which do, are in `Exec.Codec`.

  `OutPoint` has two orders in the source.  The derived one (`instLinearOrder`) compares the index as
  a NUMBER; `to_key` writes it least significant byte first, so keys compare differently.
-/
import Mathlib.Data.Prod.Lex
import Myelin.Lib.Molecule
import Myelin.Lib.Result

namespace Myelin.Exec

open Lib

/-! ## Cells -/

/-- Uniquely identifies a cell: transaction hash and output index. -/
structure OutPoint where
  txHash : FixedBytes 32
  index : UInt32
  deriving DecidableEq

/-- Script reference. -/
structure Script where
  codeHash : FixedBytes 32
  hashType : UInt8
  args : List UInt8
  deriving DecidableEq

/-- Cell output without its data. -/
structure CellOutput where
  lock : Script
  type_ : Option Script
  capacity : UInt64
  deriving DecidableEq

namespace OutPoint

/-- 36-byte key for indexing. -/
def toKey (o : OutPoint) : List UInt8 := o.txHash.val ++ le32 o.index

/-- The derived order: transaction hash, then index. -/
def orderKey (o : OutPoint) : Lex (List UInt8 × Nat) := toLex (o.txHash.val, o.index.toNat)

lemma orderKey_injective : Function.Injective orderKey := by
  intro a b h
  obtain ⟨htx, hindex⟩ := Prod.mk.inj (toLex_inj.mp h)
  cases a
  cases b
  congr
  · exact Subtype.ext htx
  · exact UInt32.toNat_inj.mp hindex

instance instLinearOrder : LinearOrder OutPoint := LinearOrder.lift' orderKey orderKey_injective

/-- Lower-case hexadecimal hash, a colon and the index. -/
def display (o : OutPoint) : String :=
  String.ofList (o.txHash.val.flatMap fun byte =>
    [Nat.digitChar (byte.toNat / 16), Nat.digitChar (byte.toNat % 16)]) ++ ":" ++ toString o.index

end OutPoint

/-! ## Writers -/

/-- Why bytes are refused. -/
inductive MoleculeError where
  | invalidFormat (ty reason : String)
  | schemaMismatch (message : String)
  | validationFailed (message : String)
  deriving DecidableEq

/-- The error's text. -/
def MoleculeError.display : MoleculeError → String
  | .invalidFormat ty reason => "invalid molecule bytes for " ++ ty ++ ": " ++ reason
  | .schemaMismatch message => "schema mismatch: " ++ message
  | .validationFailed message => "validation failed: " ++ message

/-- A length-prefixed byte vector. -/
def encodeBytes (bytes : List UInt8) : List UInt8 := leBytes 4 bytes.length ++ bytes

/-- `Script` table. -/
def serializeScriptMolecule (script : Script) : List UInt8 :=
  encodeTable [script.codeHash.val, [script.hashType], encodeBytes script.args]

/-- `OutPoint` struct. -/
def serializeOutpointMolecule (outpoint : OutPoint) : List UInt8 :=
  outpoint.txHash.val ++ le32 outpoint.index

lemma serializeScriptMolecule_length (script : Script) :
    (serializeScriptMolecule script).length = 53 + script.args.length := by
  have hhash := script.codeHash.property
  rw [serializeScriptMolecule, encodeTable_length]
  simp only [List.length_cons, List.length_nil, List.map_cons, List.map_nil, List.sum_cons,
    List.sum_nil, encodeBytes, List.length_append, leBytes_length, hhash]
  omega

@[simp] lemma serializeOutpointMolecule_length (outpoint : OutPoint) :
    (serializeOutpointMolecule outpoint).length = 36 := by
  rw [serializeOutpointMolecule, List.length_append, outpoint.txHash.property, le32, leBytes_length]

end Myelin.Exec
