/-
  Finalised block records: what a record commits to, and the checks every reader repeats.

  `FinalisedBlockRecord.validateResources` is run on commit and again by every load, so a record
  that is read back has passed it under the configuration it is read with.
-/
import Myelin.Consensus.ProofCodec
import Myelin.Session.Lifecycle

namespace Myelin.Session

open Lib Consensus

variable (env : SessionEnv)

/-! ## Effect context -/

/-- Serialise within the codec ceiling and hash under a domain. -/
def hashSerialized (domain : String) (bytes : List UInt8) : Except SessionError Hash32 := do
  let _ ← sizeWithLimit bytes "effect_context_bytes" maxRecordBytes
  pure (env.blake3 (utf8 domain ++ bytes))

namespace ProtocolEffectsContext

variable (context : ProtocolEffectsContext)

/-- Whether the block issues handoffs or declares a successor. -/
def hasSourceEffects : Bool :=
  context.issuedHandoffs ≠ [] ∨ context.successorConfig ≠ []

/-- The successor config, if there is one. -/
def successor : Except SessionError (Option SessionConfig) :=
  if context.successorConfig = [] then .ok none
  else do
    let config ← SessionConfig.decode env context.successorConfig
    pure (some config)

/-- Each intent is valid, unexpired and unlike the ones before it. -/
def checkIntents (env : SessionEnv) (timestampMs : UInt64) :
    List Hash32 → List HandoffIntent → Except SessionError Unit
  | _, [] => .ok ()
  | seen, intent :: rest => do
      intent.validate
      ensure (timestampMs < intent.expiresAtMs)
        (.protocolEffects "expired or duplicate source intent")
      let commitment ← hashSerialized env "myelin:source-intent:v1" (env.postcard.handoffIntent intent)
      ensure (commitment ∉ seen) (.protocolEffects "expired or duplicate source intent")
      checkIntents env timestampMs (commitment :: seen) rest

/-- Validate a context under its own policy. -/
def validate : Except SessionError Unit := do
  context.policy.validate
  ensure (context.sourceGenesisCommitment ≠ zeroHash ∧ context.sourceSessionId ≠ zeroHash)
    (.protocolEffects "missing source genesis identity")
  ensure (¬ (context.hasSourceEffects ∧ context.policy = .disabled))
    (.protocolEffects "source effects are disabled by genesis")
  checkIntents env context.timestampMs [] context.issuedHandoffs
  let _ ← context.successor env

/-- Build and validate the context of one block. -/
def new (config : SessionConfig) (height timestampMs : UInt64) (preStateRoot : Hash32)
    (input : FrameInput) (issued : List HandoffIntent) (successor : Option SessionConfig) :
    Except SessionError ProtocolEffectsContext := do
  let successorConfig ← match successor with
    | some target => target.encode env
    | none => pure []
  let context : ProtocolEffectsContext := {
    sourceGenesisCommitment := config.commitment env
    sourceSessionId := config.sessionId
    policy := config.protocolEffects
    height, timestampMs, preStateRoot
    inputRoot := input.root env
    issuedHandoffs := issued
    successorConfig }
  context.validate env
  pure context

/-- A context holds what it was made of, and is valid. -/
lemma new_ok {env : SessionEnv} {config : SessionConfig} {height timestampMs : UInt64}
    {preStateRoot : Hash32} {input : FrameInput} {issued : List HandoffIntent}
    {successor : Option SessionConfig} {context : ProtocolEffectsContext}
    (h : new env config height timestampMs preStateRoot input issued successor = .ok context) :
    (∃ successorConfig, context = ⟨config.commitment env, config.sessionId, config.protocolEffects,
        height, timestampMs, preStateRoot, input.root env, issued, successorConfig⟩) ∧
      context.validate env = .ok () := by
  unfold new at h
  split at h
  all_goals
    simp only [eq_ok] at h
    obtain ⟨successorConfig, -, hvalid, rfl⟩ := h
    exact ⟨⟨successorConfig, rfl⟩, hvalid⟩

/-- Commitment the block carries. -/
def commitment : Except SessionError Hash32 :=
  hashSerialized env "myelin:protocol-effects-context:v1" (env.postcard.effectsContext context)

end ProtocolEffectsContext

/-- Actor, object and nonce are nonzero. -/
def EffectAuthorizationScope.validate (scope : EffectAuthorizationScope) : Except SessionError Unit :=
  ensure (scope.actor ≠ zeroHash ∧ scope.object ≠ zeroHash ∧ scope.nonce ≠ zeroHash)
    (.protocolEffects "authorization actor, object and nonce must be nonzero")

/-- Complete handoff authorization digest, excluding the signature bytes themselves. -/
def EffectAuthorizationScope.handoffDigest (scope : EffectAuthorizationScope)
    (sourceGenesis : Hash32) (intent : HandoffIntent) : Except SessionError Hash32 := do
  scope.validate
  ensure (sourceGenesis ≠ zeroHash) (.protocolEffects "missing authorization source genesis")
  hashSerialized env "myelin:session-effect-handoff-authorization:v1"
    (env.postcard.handoffAuthorization sourceGenesis scope intent)

/-- Commitment to the lifecycle actions of one block. -/
def actionsCommitment (sessionId : Hash32) (height : UInt64)
    (actions : List ResolvedHandoffAction) : Except SessionError Hash32 := do
  let bytes := env.postcard.handoffActions sessionId height actions
  let _ ← sizeWithLimit bytes "lifecycle_bytes" maxRecordBytes
  pure (env.blake3 (utf8 "myelin:handoff-lifecycle-actions:v2" ++ bytes))

/-! ## Outbox, checkpoints, genesis -/

namespace OutboxMessage

/-- Longest topic. -/
def maxOutboxTopicBytes : Nat := 256

/-- Longest payload. -/
def maxOutboxPayloadBytes : Nat := 64 * 1024 * 1024

/-- Validate module namespace and finite resource bounds. -/
def validate (message : OutboxMessage) : Except SessionError Unit := do
  ensure (message.id ≠ zeroHash ∧ message.consensusModuleCommitment ≠ zeroHash)
    (.codec "outbox id and module commitment must not be zero")
  ensure (message.topic ≠ "" ∧ (utf8 message.topic).length ≤ maxOutboxTopicBytes)
    (.codec "outbox topic length must be 1..=256 bytes")
  ensure (message.payload.length ≤ maxOutboxPayloadBytes)
    (.codec "outbox payload exceeds 67108864 bytes")

/-- Commitment included in the block's data commitments. -/
def commitment (message : OutboxMessage) : Hash32 :=
  env.blake3 (utf8 "myelin:session-outbox" ++ message.id.val ++
    message.consensusModuleCommitment.val ++
    le32 (UInt32.ofNat (utf8 message.topic).length) ++ utf8 message.topic ++
    le64 (UInt64.ofNat message.payload.length) ++ message.payload)

/-- Encode a checksummed, versioned persistence record. -/
def encode (message : OutboxMessage) : Except SessionError (List UInt8) := do
  message.validate
  encodeRecord env (env.postcard.outboxMessage message)

end OutboxMessage

/-- Encode a checksummed checkpoint record. -/
def StateCheckpoint.encode (checkpoint : StateCheckpoint) : Except SessionError (List UInt8) := do
  ensure (checkpoint.sessionId ≠ zeroHash ∧ checkpoint.stateSnapshot ≠ [])
    (.codec "checkpoint session id and snapshot must be non-empty")
  encodeRecord env (env.postcard.stateCheckpoint checkpoint)

/-- What encoding and decoding a genesis both check. -/
def SessionGenesis.validate (genesis : SessionGenesis) : Except SessionError Unit := do
  genesis.config.validate
  genesis.config.commitLimits.snapshot genesis.stateSnapshot

/-- Encode immutable genesis material for a store backend. -/
def SessionGenesis.encode (genesis : SessionGenesis) : Except SessionError (List UInt8) := do
  genesis.validate
  encodeRecord env (env.postcard.sessionGenesis genesis)

/-- Encode a handoff record. -/
def StoredHandoff.encode (stored : StoredHandoff) : Except SessionError (List UInt8) := do
  stored.validateLifecycle
  encodeRecord env (env.postcard.storedHandoff stored)

/-- Receipt of the command at `index` of a record's frame. -/
def CommandReceipt.forRecord (record : FinalisedBlockRecord) (index : Nat) :
    Except SessionError CommandReceipt := do
  let command ← okOr record.frameInput.commands[index]? (.invalidFrame "command index outside frame")
  let inputPosition ← okOr (checkedAdd record.frameInput.startPosition (UInt64.ofNat index))
    (.invalidFrame "command position overflow")
  pure {
    sessionId := record.block.sessionId
    command, inputPosition
    blockHeight := record.block.number
    blockHash := record.block.hash env.crypto
    frameCommitment := record.frame.commitment env }

/-! ## Block records -/

namespace FinalisedBlockRecord

variable (record : FinalisedBlockRecord) (config : SessionConfig)

/-- Block version and successor shape. -/
def checkSuccessorFormat : Except SessionError Unit := do
  ensure (record.block.version = sessionBlockVersion)
    (.codec "unsupported block format or missing snapshot size")
  match record.successor with
  | some successor => successor.validate
  | none => pure ()

/-- Encoded body of a record, with its encoded proof. -/
def body : Except SessionError (List UInt8) := do
  record.checkSuccessorFormat
  let proof ← (record.proof.encode env.crypto).mapError .consensus
  pure (env.postcard.record record proof)

/-- Encode a checksummed, versioned persistence record. -/
def encode : Except SessionError (List UInt8) := do
  let bytes ← record.body env
  encodeRecord env bytes

/-- Decode a stored record, checking its checksum and strict schema. -/
def decode (bytes : List UInt8) : Except SessionError FinalisedBlockRecord := do
  let body ← recordBody env bytes
  let record ← env.postcard.takeRecord body
  record.checkSuccessorFormat
  pure record

/-- Size of an encoded record within a limit. -/
def recordSize (body : List UInt8) (limit : Nat) : Except SessionError Nat := do
  checkLimit "record_bytes" recordHeaderBytes limit
  ensure (body.length ≤ limit - recordHeaderBytes)
    (.resourceLimit "record_bytes" (limit - recordHeaderBytes + 1 + recordHeaderBytes) limit)
  pure (recordHeaderBytes + body.length)

/-- Bytes of the `postcard` length prefix of a buffer. -/
def lengthPrefixBytes (length : UInt64) : Nat :=
  max 1 ((Nat.log2 length.toNat + 7) / 7)

/-- Size of the complete original record, including a pruned snapshot. -/
def encodedSizeWithLimit (limit : Nat) : Except SessionError Nat := do
  let bytes ← record.body env
  let size ← recordSize bytes limit
  let original := record.resourceSnapshotBytes
  let size ← if record.stateSnapshot = [] ∧ original ≠ 0 then do
      let full := size + original.toNat + (lengthPrefixBytes original - 1)
      ensure (full < 2 ^ 64) (.blockLimit "original record size overflow")
      pure full
    else do
      ensure (original.toNat = record.stateSnapshot.length)
        (.codec "snapshot length does not match committed resource usage")
      pure size
  checkLimit "record_bytes" size limit
  pure size

/-- The effect context the record was executed under. -/
def effectsContext : Except SessionError ProtocolEffectsContext :=
  ProtocolEffectsContext.new env config record.block.number record.block.timestampMs
    record.block.stateRootBefore record.frameInput (record.issuedHandoffs.map intentFromHandoff)
    (record.successor.map (·.targetConfig))

end FinalisedBlockRecord

/-- Validate retained record fields against the session's limits. -/
def CommitResourceLimits.record (env : SessionEnv) (limits : CommitResourceLimits)
    (record : FinalisedBlockRecord) : Except SessionError Unit := do
  let original := record.resourceSnapshotBytes
  checkLimit "snapshot_bytes" original.toNat limits.maxSnapshotBytes.toNat
  ensure (record.block.dataCommitments.getLast? = some (snapshotCommitment env limits original))
    (.codec "resource budget or snapshot commitment is absent or changed")
  limits.frame env record.frameInput
  checkLimit "issued_handoffs" record.issuedHandoffs.length limits.maxIssuedHandoffs.toNat
  let consumed ← addUsage "consumed_handoffs" record.consumedHandoffIds.length
    record.handoffActions.length
  checkLimit "consumed_handoffs" consumed limits.maxConsumedHandoffs.toNat
  checkLimit "data_commitments" record.block.dataCommitments.length limits.maxDataCommitments.toNat
  checkLimit "outbox_messages" record.outbox.length limits.maxOutboxMessages.toNat
  let bytes ← record.outbox.foldlM (fun sum message => do
    let sum ← addUsage "outbox_bytes" sum (utf8 message.topic).length
    addUsage "outbox_bytes" sum message.payload.length) 0
  checkLimit "outbox_bytes" bytes limits.maxOutboxBytes.toNat
  limits.snapshot record.stateSnapshot
  let _ ← limits.handoffs (record.issuedHandoffs ++ record.handoffActions.map (·.handoff))
  let _ ← record.encodedSizeWithLimit env limits.maxRecordBytes.toNat

/-- Actions of one block: each well formed, and no handoff twice or also consumed. -/
def checkActions (env : SessionEnv) (sessionId : Hash32) (height : UInt64) :
    List Hash32 → List ResolvedHandoffAction → Except SessionError Unit
  | _, [] => .ok ()
  | seen, action :: rest => do
      action.validateFor env sessionId height
      ensure (action.action.handoffId ∉ seen) (.continuity "duplicate or consumed lifecycle action")
      checkActions env sessionId height (action.action.handoffId :: seen) rest

/-- Element `n` from the end of a list (`len.checked_sub(n).and_then(get)`). -/
def fromEnd {α : Type} (list : List α) (n : Nat) : Option α :=
  if n ≤ list.length then list[list.length - n]? else none

variable (record : FinalisedBlockRecord) (config : SessionConfig)

/-- The successor part of `validate_resources`. -/
def FinalisedBlockRecord.validateSuccessor : Except SessionError Unit :=
  match record.successor with
  | none => .ok ()
  | some successor => do
      successor.validateSource env config (record.frameInput.root env)
      if record.stateSnapshot ≠ [] then do
        let _ ← successor.targetSnapshot env record.stateSnapshot

/-- The lifecycle part of `validate_resources`. -/
def FinalisedBlockRecord.validateActions : Except SessionError Unit := do
  if record.handoffActions ≠ [] then do
    ensure (config.protocolEffects.isApplication)
      (.continuity "lifecycle actions require an application policy")
    checkActions env record.block.sessionId record.block.number record.consumedHandoffIds
      record.handoffActions
    let commitment ← actionsCommitment env record.block.sessionId record.block.number
      record.handoffActions
    ensure (fromEnd record.block.dataCommitments 3 = some commitment)
      (.continuity "lifecycle commitment missing or changed")

/-- Every check of a record that needs only the session's configuration. -/
def FinalisedBlockRecord.validateResources : Except SessionError Unit := do
  ensure (record.block.version = sessionBlockVersion) (.codec "unsupported session block version")
  record.checkSuccessorFormat
  record.validateSuccessor env config
  ensure (record.consumedHandoffIds.length + record.handoffActions.length < 2 ^ 64)
    (.blockLimit "handoff/action count overflow")
  checkLimit "consumed_handoffs" (record.consumedHandoffIds.length + record.handoffActions.length)
    config.commitLimits.maxConsumedHandoffs.toNat
  record.validateActions env config
  checkLimit "transactions" record.transactions.length config.maxBlockTransactions.toNat
  let bytes := (record.transactions.map List.length).sum
  ensure (bytes < 2 ^ 64) (.blockLimit "transaction bytes overflow")
  checkLimit "transaction_bytes" bytes config.maxBlockBytes.toNat
  config.commitLimits.record env record
  let context ← record.effectsContext env config
  let commitment ← context.commitment env
  ensure (fromEnd record.block.dataCommitments 2 = some commitment)
    (.protocolEffects "source effect context commitment changed")

/-- Reject oversized imports before decoding, then check under the session's configuration. -/
def FinalisedBlockRecord.decodeForConfig (bytes : List UInt8) (config : SessionConfig) :
    Except SessionError FinalisedBlockRecord := do
  config.validate
  checkLimit "record_bytes" bytes.length config.commitLimits.maxRecordBytes.toNat
  let record ← FinalisedBlockRecord.decode env bytes
  record.validateResources env config
  pure record

/-- Check a handoff's exact source record and genesis linkage. -/
def validateHandoffSource (config : SessionConfig) (record : FinalisedBlockRecord)
    (handoff : SessionHandoff) : Except SessionError Unit := do
  config.validate
  record.validateResources env config
  handoff.validate record.block.timestampMs
  ensure (record.block.sessionId = config.sessionId ∧ handoff.sourceSessionId = config.sessionId ∧
      record.block.number = handoff.sourceHeight ∧
      record.block.stateRootAfter = handoff.sourceStateRoot ∧
      record.block.applicationProfileCommitment = config.applicationProfile.commitment env ∧
      record.block.applicationProfileCommitment = handoff.sourceApplicationProfileCommitment ∧
      record.consensusModuleCommitment = config.consensusModuleCommitment ∧
      record.consensusModuleCommitment = handoff.sourceConsensusModuleCommitment ∧
      handoff ∈ record.issuedHandoffs ∧ handoff.id env ∈ record.block.dataCommitments)
    (.protocolEffects "handoff is not committed by its claimed source genesis/block")

/-! ## Uniform values

Configurations and records for examples, with one hash wherever a hash is asked for. -/

def SessionConfig.uniform (sessionId hash : Hash32) (effects : ProtocolEffectsPolicy) :
    SessionConfig :=
  ⟨sessionId, .staticClosedCommittee, hash, hash, hash,
    ⟨true, "app", hash, hash, hash, hash, hash, ⟨false⟩, ⟨1, 64, 1, 1, 1, 1⟩, hash, hash⟩,
    hash, 0, 0, 0, none, 1, 1, 0, CommitResourceLimits.default, effects⟩

/-- A block that takes nothing in and does nothing. -/
def FinalisedBlockRecord.uniform (sessionId hash : Hash32) (number : UInt64)
    (snapshot : List UInt8) : FinalisedBlockRecord :=
  ⟨⟨sessionBlockVersion, sessionId, if number = 0 then zeroHash else hash, number, 0,
      .staticClosedCommittee, hash, hash, hash, hash, [], [], hash⟩,
    hash, .staticClosedCommittee ⟨hash, []⟩, [], snapshot, [],
    ⟨sessionId, number, hash, 0, 0, hash, 0, 0, hash, hash, [], ⟨0, 0, 0⟩⟩, ⟨[], 0, 0, 0, 0, []⟩,
    none, [], [], [], UInt64.ofNat snapshot.length, []⟩

end Myelin.Session
