/-
  The data every finality engine shares: hashes, keys, errors and the session block.

  The cryptography is NOT modelled: `Crypto` is a parameter whose fields are the library calls
  the source makes (BLAKE3, the CKB-personalised BLAKE2b, secp256k1 parsing, Schnorr verification
  and ECDSA key recovery).  What the source computes AROUND those calls — domain tags, field order,
  length counters — is here byte for byte.

  Rust `assert!`s inside `encode_table` (a table of 4 GiB or more) abort the process; they return
  nothing to a caller, so `MyelinBlock.hash` is the value of the calls that do return.
-/
import Myelin.Lib.Molecule

namespace Myelin.Consensus

open Lib

/-- Fixed-width hash used by consensus artefacts. -/
abbrev Hash32 := FixedBytes 32

/-- Schnorr signature of a committee validator. -/
abbrev Signature64 := FixedBytes 64

/-- Compressed public key of a CKB-compatible authority. -/
abbrev CkbPublicKey33 := FixedBytes 33

/-- Compact recoverable ECDSA signature of an authority seal. -/
abbrev CkbSignature65 := FixedBytes 65

/-- Blake160 lock argument. -/
abbrev CkbLockArg := FixedBytes 20

/-- The cryptographic library calls the engines make.  The `Except` texts are the libraries' own
    error messages, which the source splices into its errors. -/
structure Crypto where
  /-- `blake3::hash`. -/
  blake3 : List UInt8 → Hash32
  /-- CKB-personalised BLAKE2b-256. -/
  ckbBlake2b256 : List UInt8 → Hash32
  /-- `XOnlyPublicKey::from_slice`, reduced to whether it parses. -/
  parseXOnlyPublicKey : Hash32 → Except String Unit
  /-- `Secp256k1::verify_schnorr` on a parsed key: key, digest, signature. -/
  schnorr : Hash32 → Hash32 → Signature64 → Bool
  /-- `PublicKey::from_slice` followed by `serialize`. -/
  parsePublicKey : CkbPublicKey33 → Except String CkbPublicKey33
  /-- `recover_ecdsa` on a compact recoverable signature: digest, signature. -/
  recoverPublicKey : Hash32 → CkbSignature65 → Except String CkbPublicKey33

/-- Libraries for examples: one hash function, and every Schnorr signature is good. -/
def Crypto.accepting (hash : List UInt8 → Hash32) : Crypto where
  blake3 := hash
  ckbBlake2b256 := hash
  parseXOnlyPublicKey _ := .ok ()
  schnorr _ _ _ := true
  parsePublicKey publicKey := .ok publicKey
  recoverPublicKey _ _ := .error "no key"

/-- `verify_schnorr`: an unparsable key verifies nothing. -/
def verifySchnorr (crypto : Crypto) (publicKey digest : Hash32) (signature : Signature64) : Bool :=
  match crypto.parseXOnlyPublicKey publicKey with
  | .error _ => false
  | .ok () => crypto.schnorr publicKey digest signature

/-- Consensus engine selected for a session. -/
inductive ConsensusKind where
  | staticClosedCommittee
  | proofOfAuthority
  | tendermint
  deriving DecidableEq, Repr

/-- Stable config string of an engine kind. -/
def ConsensusKind.asStr : ConsensusKind → String
  | .staticClosedCommittee => "static-closed-committee"
  | .proofOfAuthority => "proof-of-authority"
  | .tendermint => "tendermint"

/-- Consensus errors, with the data each one carries. -/
inductive ConsensusError where
  | invalidConfig (message : String)
  | proofCodec (message : String)
  | messageCodec (message : String)
  | unknownEngine (name : String)
  | wrongEngine (expected actual : String)
  | wrongFinalityProof (expected actual : String)
  | wrongBlockHash
  | wrongHeight (expected actual : UInt64)
  | wrongRound (expected actual : UInt32)
  | duplicateValidator
  | duplicateAuthority (id : String)
  | duplicateAuthorityKey
  | unknownValidator (id : String)
  | zeroWeight (id : String)
  | invalidSignature (id : String)
  | unexpectedAuthority (expected actual : String)
  | quorumNotMet (signedWeight quorumWeight : UInt64)
  | unexpectedProposer (expected actual : String)
  | equivocation (validatorId : String) (round : UInt32) (step : String)
  | invalidTendermintState (message : String)
  /-- The call panics. -/
  | panicked (message : String)
  deriving DecidableEq, Repr

/-- `Display` of a consensus error. -/
def ConsensusError.display : ConsensusError → String
  | .invalidConfig message => "invalid consensus config: " ++ message
  | .proofCodec message => "finality proof codec failed: " ++ message
  | .messageCodec message => "consensus message codec failed: " ++ message
  | .unknownEngine name => "unknown consensus engine: " ++ name
  | .wrongEngine expected actual =>
      "wrong consensus engine: expected " ++ expected ++ ", got " ++ actual
  | .wrongFinalityProof expected actual =>
      "wrong finality proof: expected " ++ expected ++ ", got " ++ actual
  | .wrongBlockHash => "certificate block hash does not match"
  | .wrongHeight expected actual =>
      "wrong weighted_precommit height: expected " ++ toString expected ++ ", got " ++
        toString actual
  | .wrongRound expected actual =>
      "wrong weighted_precommit round: expected " ++ toString expected ++ ", got " ++
        toString actual
  | .duplicateValidator => "duplicate validator"
  | .duplicateAuthority id => "duplicate proof-of-authority id: " ++ id
  | .duplicateAuthorityKey => "duplicate proof-of-authority public key"
  | .unknownValidator id => "unknown validator: " ++ id
  | .zeroWeight id => "validator has zero weight: " ++ id
  | .invalidSignature id => "invalid signature for validator: " ++ id
  | .unexpectedAuthority expected actual =>
      "unexpected proof-of-authority signer: expected " ++ expected ++ ", got " ++ actual
  | .quorumNotMet signedWeight quorumWeight =>
      "quorum not met: signed " ++ toString signedWeight ++ ", required " ++ toString quorumWeight
  | .unexpectedProposer expected actual =>
      "unexpected Tendermint proposer: expected " ++ expected ++ ", got " ++ actual
  | .equivocation validatorId round step =>
      "Tendermint equivocation by " ++ validatorId ++ " at round " ++ toString round ++
        " during " ++ step
  | .invalidTendermintState message => "invalid Tendermint state: " ++ message
  | .panicked message => message

/-- Parse only the canonical protocol spelling of a consensus kind. -/
def ConsensusKind.fromCanonicalStr (value : String) : Except ConsensusError ConsensusKind :=
  if value = "static-closed-committee" then .ok .staticClosedCommittee
  else if value = "proof-of-authority" then .ok .proofOfAuthority
  else if value = "tendermint" then .ok .tendermint
  else .error (.unknownEngine value)

lemma ConsensusKind.fromCanonicalStr_asStr (kind : ConsensusKind) :
    ConsensusKind.fromCanonicalStr kind.asStr = .ok kind := by
  cases kind <;> rfl

/-! ## The session block and its hash -/

/-- A finite-session block finalised by one of the engines. -/
structure MyelinBlock where
  version : UInt32
  /-- Session whose history contains the block. -/
  sessionId : Hash32
  parentHash : Hash32
  /-- Session-local block number. -/
  number : UInt64
  timestampMs : UInt64
  /-- Engine expected to finalise the block. -/
  consensusKind : ConsensusKind
  applicationProfileCommitment : Hash32
  executionFrameCommitment : Hash32
  stateRootBefore : Hash32
  stateRootAfter : Hash32
  orderedCellTxCommitments : List Hash32
  dataCommitments : List Hash32
  schedulerCommitment : Hash32
  deriving DecidableEq

/-- A `u32` count followed by the hashes. -/
def encodeHashVec (values : List Hash32) : List UInt8 :=
  le32 (UInt32.ofNat values.length) ++ values.flatMap Subtype.val

/-- Canonical bytes of a block. -/
def MyelinBlock.toMoleculeBytes (block : MyelinBlock) : List UInt8 :=
  encodeTable [
    le32 block.version,
    block.sessionId.val,
    block.parentHash.val,
    le64 block.number,
    le64 block.timestampMs,
    utf8 block.consensusKind.asStr,
    block.applicationProfileCommitment.val,
    block.executionFrameCommitment.val,
    block.stateRootBefore.val,
    block.stateRootAfter.val,
    encodeHashVec block.orderedCellTxCommitments,
    encodeHashVec block.dataCommitments,
    block.schedulerCommitment.val]

/-- Hash of the canonical block bytes under the block domain. -/
def MyelinBlock.hash (crypto : Crypto) (block : MyelinBlock) : Hash32 :=
  crypto.blake3 (utf8 "myelin:block" ++ block.toMoleculeBytes)

end Myelin.Consensus
