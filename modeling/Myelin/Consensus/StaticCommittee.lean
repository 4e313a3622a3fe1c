/-
  The static closed committee: one weighted certificate finalises a block.

  `verifyCertificate_eq_ok` is the specification of the verification loop: it accepts exactly the
  certificates for this hash whose entries are valid signatures of distinct configured validators
  with quorum weight.  Nothing in the constructor or the loop relates the quorum to the total
  beyond `0 < quorum ≤ total`.
-/
import Myelin.Consensus.Tendermint

namespace Myelin.Consensus

open Lib

variable {crypto : Crypto}

/-- Static closed-committee configuration. -/
structure StaticCommitteeConfig where
  validators : List CommitteeValidator
  /-- Weight required to finalise a block. -/
  quorumWeight : UInt64
  deriving DecidableEq

/-- Certificate attached to a block finalised by the committee. -/
structure CommitteeCertificate where
  blockHash : Hash32
  signatures : List CommitteeSignature
  deriving DecidableEq

/-- Finalised block artefact. -/
structure FinalisedBlock where
  block : MyelinBlock
  blockHash : Hash32
  certificate : CommitteeCertificate
  deriving DecidableEq

/-- Static closed-committee finality engine. -/
structure StaticClosedCommittee (crypto : Crypto) where
  set : WeightedSet crypto

/-- Digest a committee validator signs. -/
def staticSignatureDigest (crypto : Crypto) (validatorId : String) (blockHash : Hash32) : Hash32 :=
  crypto.blake3 (utf8 "myelin:static-committee-signature" ++ idBytes validatorId ++ blockHash.val)

namespace StaticClosedCommittee

/-- The configured validators. -/
abbrev validators (e : StaticClosedCommittee crypto) : ValidatorMap crypto := e.set.validators

/-- Weight required to finalise a block. -/
abbrev quorumWeight (e : StaticClosedCommittee crypto) : UInt64 := e.set.quorum

/-- Validate and build a static closed committee. -/
def new (crypto : Crypto) (config : StaticCommitteeConfig) :
    Except ConsensusError (StaticClosedCommittee crypto) := do
  let set ← WeightedSet.new crypto {
    quorumZero := "quorum_weight must be non-zero"
    totalOverflow := "committee weight overflow"
    noValidators := "committee must contain at least one validator"
    quorumTooHigh := "quorum_weight exceeds total committee weight"
  } config.validators config.quorumWeight
  pure ⟨set⟩

variable (e : StaticClosedCommittee crypto)

/-- The validators and quorum as a committee of the quorum library. -/
def committee : Committee String := e.validators.committee e.quorumWeight.toNat

/-- Verify a certificate for a block hash. -/
def verifyCertificate (blockHash : Hash32) (certificate : CommitteeCertificate) :
    Except ConsensusError Unit := do
  ensure (certificate.blockHash = blockHash) ConsensusError.wrongBlockHash
  let signedWeight ← e.validators.certificateLoop (staticSignatureDigest crypto · blockHash)
    "certificate weight overflow" [] 0 certificate.signatures
  ensure (e.quorumWeight ≤ signedWeight) (.quorumNotMet signedWeight e.quorumWeight)

/-- Verify and finalise a block. -/
def finaliseBlock (block : MyelinBlock) (certificate : CommitteeCertificate) :
    Except ConsensusError FinalisedBlock := do
  ensure (block.consensusKind = .staticClosedCommittee)
    (.wrongEngine ConsensusKind.staticClosedCommittee.asStr block.consensusKind.asStr)
  let blockHash := block.hash crypto
  e.verifyCertificate blockHash certificate
  pure ⟨block, blockHash, certificate⟩

variable {e}

/-- **The certificates a committee accepts.** -/
theorem verifyCertificate_eq_ok :
    e.verifyCertificate blockHash certificate = .ok () ↔ certificate.blockHash = blockHash ∧
      (∀ signature ∈ certificate.signatures,
        e.validators.Signed (staticSignatureDigest crypto · blockHash) signature) ∧
      (certificate.signatures.map (·.validatorId)).Nodup ∧
      e.committee.quorum ≤
        e.committee.power (certificate.signatures.map (·.validatorId)).toFinset := by
  simp only [verifyCertificate, eq_ok]
  exact and_congr_right fun _ => ValidatorMap.certificateLoop_eq_ok

end StaticClosedCommittee

end Myelin.Consensus
