/-
  Session configuration, succession and handoffs: what is committed, and what is checked.

  A successor's genesis names its predecessor (`SessionConfig.predecessor`), and the declaration
  that creates it must repeat that reference exactly (`SuccessorDeclaration.validate_ok`).  So a
  predecessor field by itself proves nothing; only the sealed chain behind it does.
-/
import Myelin.Session.Application

namespace Myelin.Session

open Lib Consensus

variable (env : SessionEnv)

/-! ## Source-effect policies -/

namespace ProtocolEffectsPolicy

/-- A policy other than `disabled` needs a nonzero hash. -/
def validate : ProtocolEffectsPolicy → Except SessionError Unit
  | .disabled => .ok ()
  | .authorityMetadata policyHash | .application policyHash =>
      ensure (policyHash ≠ zeroHash) (.protocolEffects "effect policy hash must not be zero")

/-- What the commitment hashes. -/
def preimage (policy : ProtocolEffectsPolicy) : List UInt8 :=
  utf8 "myelin:protocol-effects-policy:v1" ++
    match policy with
    | .disabled => [0]
    | .authorityMetadata policyHash => 1 :: policyHash.val
    | .application policyHash => 2 :: policyHash.val

/-- Commitment bound by genesis. -/
def commitment (policy : ProtocolEffectsPolicy) : Hash32 := env.blake3 policy.preimage

/-- Whether the application itself verifies source effects. -/
def isApplication : ProtocolEffectsPolicy → Bool
  | .application _ => true
  | _ => false

end ProtocolEffectsPolicy

/-! ## Session configuration -/

namespace SessionConfig

/-- Validate fail-closed limits and identifiers. -/
def validate (config : SessionConfig) : Except SessionError Unit := do
  ensure (config.sessionId ≠ zeroHash) (.invalidConfig "session_id must not be zero")
  ensure (config.consensusConfigCommitment ≠ zeroHash)
    (.invalidConfig "consensus_config_commitment must not be zero")
  ensure (config.consensusModuleCommitment ≠ zeroHash)
    (.invalidConfig "consensus_module_commitment must not be zero")
  ensure (config.consensusWalSchemaHash ≠ zeroHash)
    (.invalidConfig "consensus_wal_schema_hash must not be zero")
  config.applicationProfile.validate
  config.protocolEffects.validate
  config.commitLimits.validate
  checkLimit "transactions" config.maxBlockTransactions.toNat maxSequenceItems
  checkLimit "transaction_bytes" config.maxBlockBytes.toNat maxRecordBytes
  ensure (∀ predecessor ∈ config.predecessor, predecessor.sessionId ≠ zeroHash ∧
      predecessor.sessionId ≠ config.sessionId ∧ predecessor.finalStateRoot ≠ zeroHash ∧
      predecessor.applicationProfileCommitment ≠ zeroHash)
    (.invalidConfig "invalid predecessor lineage reference")
  ensure (config.maxBlockTransactions ≠ 0)
    (.invalidConfig "max_block_transactions must be non-zero")
  ensure (config.maxBlockBytes ≠ 0) (.invalidConfig "max_block_bytes must be non-zero")

/-- Encode the current persistence format. -/
def encode (config : SessionConfig) : Except SessionError (List UInt8) := do
  config.validate
  encodeRecord env (env.postcard.sessionConfig config)

/-- Decode only the current config format. -/
def decode (bytes : List UInt8) : Except SessionError SessionConfig := do
  let body ← recordBody env bytes
  let config ← env.postcard.takeSessionConfig body
  config.validate
  pure config

/-- Bytes of the predecessor field in the config commitment. -/
def predecessorBytes : Option PredecessorReference → List UInt8
  | some predecessor => 1 :: predecessor.sessionId.val ++ le64 predecessor.finalHeight ++
      predecessor.finalStateRoot.val ++ predecessor.applicationProfileCommitment.val
  | none => [0]

/-- What the commitment hashes. -/
def preimage (config : SessionConfig) : List UInt8 :=
  utf8 "myelin:session-config:v3" ++ config.sessionId.val ++
    utf8 config.consensusKind.asStr ++ config.consensusConfigCommitment.val ++
    config.consensusModuleCommitment.val ++ config.consensusWalSchemaHash.val ++
    (config.applicationProfile.commitment env).val ++ config.initialStateRoot.val ++
    le64 config.initialInputPosition ++ le64 config.initialLogicalTime ++
    le64 config.initialTimestampMs ++ predecessorBytes config.predecessor ++
    le32 config.maxBlockTransactions ++ le64 config.maxBlockBytes ++ le64 config.maxFutureDriftMs ++
    (config.commitLimits.commitment env).val ++ (config.protocolEffects.commitment env).val

/-- Immutable commitment used by successor declarations and cross-session audit material. -/
def commitment (config : SessionConfig) : Hash32 := env.blake3 (config.preimage env)

end SessionConfig

/-- Height that must be used by the next block. -/
def SessionHead.nextHeight (head : SessionHead) : Except SessionError UInt64 :=
  match head.finalisedHeight with
  | some height => okOr (checkedAdd height 1) .heightOverflow
  | none => .ok 0

/-! ## Succession -/

namespace SuccessorTransition

variable (transition : SuccessorTransition)

/-- Checks that need neither configuration. -/
def validateShape (sourceRoot targetRoot : Hash32) : Except SessionError Unit := do
  ensure (zeroHash ∉ [transition.sourceGenesisCommitment, transition.inputRoot,
      transition.sourceSnapshotHash])
    (.continuity "successor receipt has a zero binding")
  match transition.state with
  | .continue =>
      ensure (sourceRoot = targetRoot)
        (.continuity "state-preserving successor changes the state root")
  | .compatible policyHash declarationHash vectorsHash =>
      ensure (sourceRoot = targetRoot)
        (.continuity "state-preserving successor changes the state root")
      ensure (zeroHash ∉ [policyHash, declarationHash, vectorsHash])
        (.continuity "compatibility requires policy, declaration and vectors")
  | .migrate artifact _ stateRoot snapshot =>
      ensure (artifact.formatVersion = 1 ∧ artifact.programDigest ≠ zeroHash ∧
          artifact.inputSchemaHash ≠ zeroHash ∧ snapshot ≠ [] ∧ stateRoot = targetRoot)
        (.continuity "invalid migration artifact, inputs or target state")

/-- Check a receipt against both configurations and the input it was derived from. -/
def validate (source target : SessionConfig) (sourceRoot inputRoot : Hash32) :
    Except SessionError Unit := do
  transition.validateShape sourceRoot target.initialStateRoot
  ensure (transition.sourceGenesisCommitment = source.commitment env ∧
      transition.inputRoot = inputRoot)
    (.continuity "successor receipt source genesis or input mismatch")
  match transition.state with
  | .continue =>
      ensure (source.applicationProfile = target.applicationProfile ∧
          source.protocolEffects = target.protocolEffects)
        (.continuity "changed application rules require explicit compatibility or migration")
  | .compatible policyHash _ _ =>
      ensure (source.protocolEffects = .application policyHash ∧
          source.applicationProfile.stateCodecHash = target.applicationProfile.stateCodecHash)
        (.continuity "compatibility requires the source application policy and unchanged codec")
  | .migrate _ inputs _ snapshot => do
      ensure (source.protocolEffects.isApplication)
        (.continuity "migration requires a source application policy")
      checkLimit "migration_inputs" inputs.length
        source.applicationProfile.resources.maxFrameInputBytes.toNat
      target.commitLimits.snapshot snapshot

/-- The receipt binds exact source bytes. -/
def checkSourceSnapshot (snapshot : List UInt8) : Except SessionError Unit :=
  ensure (snapshot ≠ [] ∧ env.blake3 snapshot = transition.sourceSnapshotHash)
    (.continuity "successor source snapshot mismatch")

/-- Converted state for a migration, the source bytes otherwise. -/
def targetSnapshot (sourceSnapshot : List UInt8) : List UInt8 :=
  match transition.state with
  | .migrate _ _ _ snapshot => snapshot
  | _ => sourceSnapshot

/-- Fixed-width, length-prefixed bytes of a receipt, independent of serde. -/
def commitmentBytes : List UInt8 :=
  transition.sourceGenesisCommitment.val ++ transition.inputRoot.val ++
    transition.sourceSnapshotHash.val ++
    match transition.state with
    | .continue => [0]
    | .compatible policyHash declarationHash vectorsHash =>
        1 :: policyHash.val ++ declarationHash.val ++ vectorsHash.val
    | .migrate artifact inputs stateRoot snapshot =>
        2 :: le32 artifact.formatVersion ++ artifact.programDigest.val ++
          artifact.inputSchemaHash.val ++ le64 (UInt64.ofNat inputs.length) ++ inputs ++
          stateRoot.val ++ le64 (UInt64.ofNat snapshot.length) ++ snapshot

end SuccessorTransition

namespace SuccessorDeclaration

variable (declaration : SuccessorDeclaration)

/-- The reference the target's genesis must carry. -/
def predecessorReference : PredecessorReference where
  sessionId := declaration.sourceSessionId
  finalHeight := declaration.sourceHeight
  finalStateRoot := declaration.sourceStateRoot
  applicationProfileCommitment := declaration.sourceApplicationProfileCommitment

/-- Checks that need no source configuration. -/
def validate : Except SessionError Unit := do
  declaration.targetConfig.validate
  ensure (declaration.sourceSessionId ≠ zeroHash ∧
      declaration.sourceSessionId ≠ declaration.targetConfig.sessionId ∧
      declaration.sourceStateRoot ≠ zeroHash ∧
      declaration.sourceApplicationProfileCommitment ≠ zeroHash ∧
      declaration.targetConfig.predecessor = some declaration.predecessorReference)
    (.continuity "invalid successor source/target identity or state root")
  declaration.transition.validateShape declaration.sourceStateRoot
    declaration.targetConfig.initialStateRoot

/-- Commitment the sealing block carries. -/
def commitment : Hash32 :=
  env.blake3 (utf8 "myelin:successor-declaration-v2" ++ declaration.sourceSessionId.val ++
    le64 declaration.sourceHeight ++ declaration.sourceStateRoot.val ++
    declaration.sourceApplicationProfileCommitment.val ++
    (declaration.targetConfig.commitment env).val ++ declaration.transition.commitmentBytes)

/-- Checks against the source configuration. -/
def validateSource (source : SessionConfig) (inputRoot : Hash32) : Except SessionError Unit := do
  declaration.validate
  ensure (declaration.sourceSessionId = source.sessionId ∧
      declaration.sourceApplicationProfileCommitment = source.applicationProfile.commitment env)
    (.continuity "successor source profile mismatch")
  declaration.transition.validate env source declaration.targetConfig declaration.sourceStateRoot
    inputRoot

/-- Verify source bytes before returning either copied or converted state. -/
def targetSnapshot (sourceSnapshot : List UInt8) : Except SessionError (List UInt8) := do
  declaration.transition.checkSourceSnapshot env sourceSnapshot
  pure (declaration.transition.targetSnapshot sourceSnapshot)

/-- An accepted declaration is the one its target's genesis names. -/
lemma validate_ok {declaration : SuccessorDeclaration} (h : declaration.validate = .ok ()) :
    declaration.sourceSessionId ≠ declaration.targetConfig.sessionId ∧
      declaration.targetConfig.predecessor = some declaration.predecessorReference := by
  simp only [validate, eq_ok] at h
  obtain ⟨-, ⟨-, hne, -, -, hpredecessor⟩, -⟩ := h
  exact ⟨hne, hpredecessor⟩

end SuccessorDeclaration

/-! ## Handoffs -/

/-- Longest handoff payload. -/
def maxHandoffPayloadBytes : Nat := 16 * 1024 * 1024

/-- Longest handoff authorization. -/
def maxHandoffAuthorizationBytes : Nat := 64 * 1024

/-- Identifier inside a target, whichever kind it is. -/
def HandoffTarget.id : HandoffTarget → Hash32
  | .session id | .policy id => id

/-- Bounds shared by intents and issued handoffs. -/
def validateHandoffFields (target : HandoffTarget) (expiresAtMs : UInt64)
    (payloadLen authorizationLen : Nat) (evidenceRequirement : Option EvidenceRequirement) :
    Except SessionError Unit := do
  ensure (target.id ≠ zeroHash) (.continuity "handoff target must not be zero")
  ensure (expiresAtMs ≠ 0 ∧ payloadLen ≠ 0 ∧ payloadLen ≤ maxHandoffPayloadBytes)
    (.continuity "handoff expiry or payload bounds are invalid")
  ensure (authorizationLen ≠ 0 ∧ authorizationLen ≤ maxHandoffAuthorizationBytes)
    (.continuity "handoff authorization bounds are invalid")
  ensure (∀ requirement ∈ evidenceRequirement, requirement.messageId ≠ zeroHash ∧
      requirement.pipelineCommitment ≠ zeroHash)
    (.continuity "handoff evidence requirement has a zero commitment")

/-- Bounds of an intent. -/
def HandoffIntent.validate (intent : HandoffIntent) : Except SessionError Unit :=
  validateHandoffFields intent.target intent.expiresAtMs intent.payload.length
    intent.authorization.length intent.evidenceRequirement

namespace SessionHandoff

variable (handoff : SessionHandoff)

/-- The handoff an intent becomes in a source block. -/
def fromIntent (sourceSessionId : Hash32) (sourceHeight : UInt64)
    (sourceStateRoot sourceApplicationProfileCommitment sourceConsensusModuleCommitment : Hash32)
    (sourceTimestampMs : UInt64) (intent : HandoffIntent) : Except SessionError SessionHandoff := do
  intent.validate
  ensure (sourceTimestampMs < intent.expiresAtMs)
    (.continuity "handoff must expire after its source block timestamp")
  pure { intent with
    sourceSessionId, sourceHeight, sourceStateRoot, sourceApplicationProfileCommitment
    sourceConsensusModuleCommitment }

/-- Bytes of a target in the handoff id. -/
def targetBytes : HandoffTarget → List UInt8
  | .session id => 0 :: id.val
  | .policy id => 1 :: id.val

/-- Bytes of an evidence requirement in the handoff id. -/
def requirementBytes : Option EvidenceRequirement → List UInt8
  | some requirement => 1 :: requirement.messageId.val ++ requirement.pipelineCommitment.val ++
      le16 requirement.minimumStageIndex
  | none => [0]

/-- Every field, as the id hashes it. -/
def preimage : List UInt8 :=
  utf8 "myelin:session-handoff" ++ handoff.sourceSessionId.val ++
    le64 handoff.sourceHeight ++ handoff.sourceStateRoot.val ++
    handoff.sourceApplicationProfileCommitment.val ++ handoff.sourceConsensusModuleCommitment.val ++
    targetBytes handoff.target ++ le64 handoff.expiresAtMs ++
    le64 (UInt64.ofNat handoff.payload.length) ++ handoff.payload ++
    le64 (UInt64.ofNat handoff.authorization.length) ++ handoff.authorization ++
    requirementBytes handoff.evidenceRequirement

/-- Identity of a handoff: a hash of every field. -/
def id : Hash32 := env.blake3 handoff.preimage

/-- Bounds, identity and expiry of an issued handoff. -/
def validate (sourceTimestampMs : UInt64) : Except SessionError Unit := do
  validateHandoffFields handoff.target handoff.expiresAtMs handoff.payload.length
    handoff.authorization.length handoff.evidenceRequirement
  ensure (handoff.sourceSessionId ≠ zeroHash ∧ handoff.sourceStateRoot ≠ zeroHash ∧
      handoff.sourceApplicationProfileCommitment ≠ zeroHash ∧
      handoff.sourceConsensusModuleCommitment ≠ zeroHash ∧ sourceTimestampMs < handoff.expiresAtMs)
    (.continuity "handoff source identity or expiry is invalid")

/-- Whether a session may take the handoff in. -/
def acceptsTarget (targetConfig : SessionConfig) : Bool :=
  match handoff.target with
  | .session sessionId => sessionId = targetConfig.sessionId
  | .policy policy => policy = targetConfig.applicationProfile.handoffPolicyHash

/-- Commitment the consuming block carries. -/
def consumptionCommitment (sessionId : Hash32) (height : UInt64) (handoffId : Hash32) : Hash32 :=
  env.blake3 (utf8 "myelin:session-handoff-consumption" ++ sessionId.val ++ le64 height ++
    handoffId.val)

end SessionHandoff

/-- The request a handoff was made from. -/
def intentFromHandoff (handoff : SessionHandoff) : HandoffIntent := { handoff with }

/-- Only the declared source trust class is compared here. -/
def validateHandoffTrust (target source : SessionConfig) : Except SessionError Unit :=
  match target.protocolEffects with
  | .disabled => .error (.protocolEffects "handoff intake is disabled by genesis")
  | .application _ =>
      ensure (source.protocolEffects.isApplication)
        (.protocolEffects "authority metadata cannot become an application-verified handoff")
  | .authorityMetadata _ => .ok ()

end Myelin.Session
