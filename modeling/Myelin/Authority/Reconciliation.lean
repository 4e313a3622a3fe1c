/-
  Canonical command observations after a submission.

  A certificate lists, for the commands of one exact signed submission, what the canonical chain
  says of each, together with the pruned block records that show it and the epoch at which the
  authority looked.  The holder re-derives every status from those records.  A `missing` status is
  worth something only under a strictly newer epoch, since the submitted one can then commit no more.
-/
import Myelin.Authority.Protocol

namespace Myelin.Authority

open Lib Consensus Session

/-- Most commands of one certificate. -/
def maxReconciliationCommands : Nat := 256

/-- Most bytes of the block records of one certificate. -/
def maxReconciliationBytes : Nat := 32 * 1024 * 1024

/-- What the authority observed, signed. -/
structure CommandReconciliation where
  policy : Hash32
  submissionDigest : Hash32
  submittedEpoch : UInt64
  observedEpoch : UInt64
  observedHead : List UInt8
  observations : List CommandObservation
  /-- Unique canonical block records with snapshots pruned. -/
  blocks : List (List UInt8)
  signature : List UInt8
  deriving DecidableEq

/-- An observation whose evidence was checked. -/
inductive VerifiedObservation where
  | missing (command : CommandIdentity)
  | committed (receipt : CommandReceipt) (record : FinalisedBlockRecord)
  | identityConflict (receipt : CommandReceipt)
  deriving DecidableEq

/-- Identity of the command an observation is about. -/
def VerifiedObservation.id : VerifiedObservation → Hash32
  | .missing command => command.id
  | .committed receipt _ | .identityConflict receipt => receipt.command.id

/-- A reconcilable list of commands: bounded, distinct, no zero hash. -/
def validateCommands (commands : List CommandIdentity) : Except AuthorityError Unit :=
  ensure (commands ≠ [] ∧ commands.length ≤ maxReconciliationCommands ∧
      (commands.map CommandIdentity.id).Nodup ∧
      ∀ command ∈ commands, command.id ≠ zeroHash ∧ command.payloadHash ≠ zeroHash)
    (.invalid "reconciliation command count/identity invalid")

namespace CommandReconciliation

variable (env : AuthorityEnv)

/-- Digest the authority signs. -/
def digest (certificate : CommandReconciliation) : Except AuthorityError Hash32 :=
  protocolHash env "myelin:writer-fence-reconciliation:v1"
    (env.reconciliationBytes certificate.policy certificate.submissionDigest
      certificate.submittedEpoch certificate.observedEpoch certificate.observedHead
      certificate.observations certificate.blocks)

/-- Every block is of this session, listed once, and on the chain of the observed head. -/
def checkBlocks (policy : FencingPolicy) (head : SessionHead) :
    List UInt64 → List FinalisedBlockRecord → Except AuthorityError Unit
  | _, [] => .ok ()
  | seen, block :: rest => do
      ensure (block.block.sessionId = policy.sessionId ∧ block.block.number ∉ seen ∧
          head.finalisedHeight.any (block.block.number ≤ ·) = true ∧
          (head.finalisedHeight = some block.block.number →
            block.block.hash env.session.crypto = head.blockHash))
        (.invalid "observation block is outside canonical head")
      checkBlocks policy head (block.block.number :: seen) rest

/-- A receipt against the block it points to, and the index of that block. -/
def verifyReceipt (policy : FencingPolicy) (blocks : List FinalisedBlockRecord)
    (command : CommandIdentity) (receipt : CommandReceipt) (blockIndex : UInt32) (committed : Bool) :
    Except AuthorityError (Option Nat × VerifiedObservation) := do
  let block ← okOr blocks[blockIndex.toNat]? (.invalid "missing observation block")
  let position ← okOr (receipt.index block.frameInput.startPosition)
    (.invalid "receipt input position invalid")
  ensure (receipt.sessionId = policy.sessionId ∧ receipt.command.id = command.id ∧
      decide (receipt.command.payloadHash = command.payloadHash) = committed)
    (.invalid "observation receipt/payload does not match exact committed frame")
  let expected ← (CommandReceipt.forRecord env.session block position).mapError sessionFailure
  ensure (expected = receipt)
    (.invalid "observation receipt/payload does not match exact committed frame")
  pure (some blockIndex.toNat,
    if committed then .committed receipt block else .identityConflict receipt)

/-- One observation, and the index of the block it used. -/
def verifyObservation (policy : FencingPolicy) (blocks : List FinalisedBlockRecord)
    (entry : CommandObservation × CommandIdentity) :
    Except AuthorityError (Option Nat × VerifiedObservation) := do
  ensure (entry.1.command = entry.2) (.invalid "reconciliation command order/payload differs")
  match entry.1.status with
  | .missing => pure (none, .missing entry.2)
  | .committed receipt blockIndex => verifyReceipt env policy blocks entry.2 receipt blockIndex true
  | .identityConflict receipt blockIndex =>
      verifyReceipt env policy blocks entry.2 receipt blockIndex false

/-- Scope, submission, epochs and counts of a certificate. -/
def checkScope (certificate : CommandReconciliation) (policy : FencingPolicy)
    (submission : CommitAuthorization) (commands : List CommandIdentity) :
    Except AuthorityError Unit := do
  ensure (certificate.policy = policy.commitment env ∧ submission.policy = certificate.policy)
    (.invalid "reconciliation scope, submission, epoch or size mismatch")
  let submissionDigest ← submission.digest env
  -- A sum of lengths that overflows `usize` is refused in the source; it is over the bound here.
  ensure (certificate.submissionDigest = submissionDigest ∧
      certificate.submittedEpoch = submission.epoch ∧ certificate.submittedEpoch ≠ 0 ∧
      certificate.submittedEpoch ≤ certificate.observedEpoch ∧
      certificate.observations.length = commands.length ∧
      certificate.blocks.length ≤ commands.length ∧
      (certificate.blocks.map List.length).sum ≤ maxReconciliationBytes)
    (.invalid "reconciliation scope, submission, epoch or size mismatch")

/-- Verify a certificate for one exact submission and list of commands. -/
def verify (certificate : CommandReconciliation) (policy : FencingPolicy)
    (submission : CommitAuthorization) (commands : List CommandIdentity) :
    Except AuthorityError (List VerifiedObservation) := do
  validateCommands commands
  certificate.checkScope env policy submission commands
  let digest ← certificate.digest env
  protocolVerify env policy.certificateKey digest certificate.signature
  let head ← decodeHead env certificate.observedHead
  ensure (head.sessionId = policy.sessionId) (.invalid "observation is for another session")
  let blocks ← mapResult
    (fun bytes => (FinalisedBlockRecord.decode env.session bytes).mapError sessionFailure)
    certificate.blocks
  checkBlocks env policy head [] blocks
  let results ← mapResult (verifyObservation env policy blocks)
    (certificate.observations.zip commands)
  ensure ((results.filterMap Prod.fst).dedup.length = blocks.length)
    (.invalid "unreferenced reconciliation block")
  pure (results.map Prod.snd)

end CommandReconciliation

end Myelin.Authority
