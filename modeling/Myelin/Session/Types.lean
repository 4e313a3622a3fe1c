/-
  Data and errors of the session runtime.

  One session is an immutable `SessionConfig`, a chain of `FinalisedBlockRecord`s and the
  `SessionHead` of that chain.  Sessions exchange `SessionHandoff`s; what became of a handoff is
  its `HandoffLifecycle`.  A `SuccessorDeclaration` ends one session and starts the next.

  The bytes `postcard` produces are NOT modelled: `Postcard` is a parameter with one field per
  type the source serialises.  Sizes, envelopes and digests computed from those bytes are.
-/
import Myelin.Consensus.Engines

namespace Myelin.Session

open Lib Consensus

/-! ## Errors -/

/-- Why a bounded recovery read stopped. -/
inductive RecoveryPauseReason where
  | blocks
  | storeReads
  | readBytes
  | deadline
  | cancelled
  deriving DecidableEq, Repr

/-- Store-level failure categories used for safe retry decisions. -/
inductive StoreError where
  | conflict (message : String)
  | notFound (message : String)
  | corrupt (message : String)
  | readBudget (reason : RecoveryPauseReason)
  | backend (message : String)
  deriving DecidableEq, Repr

/-- `Debug` of a pause reason. -/
def RecoveryPauseReason.debug : RecoveryPauseReason → String
  | .blocks => "Blocks"
  | .storeReads => "StoreReads"
  | .readBytes => "ReadBytes"
  | .deadline => "Deadline"
  | .cancelled => "Cancelled"

/-- `Display` of a store error. -/
def StoreError.display : StoreError → String
  | .conflict message => "compare-and-swap conflict: " ++ message
  | .notFound message => "record not found: " ++ message
  | .corrupt message => "corrupt durable record: " ++ message
  | .readBudget reason => "recovery read budget: " ++ reason.debug
  | .backend message => "store backend failure: " ++ message

/-- Session runtime failures. -/
inductive SessionError where
  | invalidConfig (message : String)
  /-- Application execution frame violated its genesis-bound contract. -/
  | invalidFrame (message : String)
  /-- Evidence receipt or pipeline linkage failed validation. -/
  | evidence (message : String)
  /-- Session succession or cross-session handoff violated its commitment. -/
  | continuity (message : String)
  /-- Genesis-bound effect policy or application authorization failed. -/
  | protocolEffects (message : String)
  | heightOverflow
  | blockLimit (message : String)
  /-- Genesis-bound aggregate budget exceeded. -/
  | resourceLimit (resource : String) (used limit : Nat)
  /-- Durable chain did not pass recovery audit. -/
  | recovery (message : String)
  /-- Snapshot is missing data or is malformed. -/
  | snapshot (message : String)
  /-- Strict persistent record codec failure. -/
  | codec (message : String)
  | consensus (error : ConsensusError)
  | store (error : StoreError)
  deriving DecidableEq, Repr

/-- `Display` of a session error. -/
def SessionError.display : SessionError → String
  | .invalidConfig message => "invalid session config: " ++ message
  | .invalidFrame message => "invalid execution frame: " ++ message
  | .evidence message => "evidence verification failed: " ++ message
  | .continuity message => "session continuity failed: " ++ message
  | .protocolEffects message => "protocol effects failed: " ++ message
  | .heightOverflow => "session height overflow"
  | .blockLimit message => "block limit exceeded: " ++ message
  | .resourceLimit resource used limit =>
      resource ++ " limit exceeded: " ++ toString used ++ " > " ++ toString limit
  | .recovery message => "recovery audit failed: " ++ message
  | .snapshot message => "invalid state snapshot: " ++ message
  | .codec message => "record codec failed: " ++ message
  | .consensus error => error.display
  | .store error => error.display

/-- `[0; 32]`. -/
def zeroHash : Hash32 := FixedBytes.fill 32 0

/-! ## The application of a session -/

/-- Strict CKB VM capability profile. -/
structure ApplicationVmProfile where
  spawnIpcRequired : Bool
  deriving DecidableEq

/-- Hard application-level envelope checked independently of block limits. -/
structure ApplicationResourceEnvelope where
  maxFrameInputs : UInt64
  maxFrameInputBytes : UInt64
  maxFrameCycles : UInt64
  maxLogicalTimeSpan : UInt64
  maxInspectQueryBytes : UInt64
  maxInspectResultBytes : UInt64
  deriving DecidableEq

/-- Complete immutable interpretation of application state for one session. -/
structure ApplicationProfile where
  commandIdentityRequired : Bool
  applicationId : String
  programDigest : Hash32
  inputSchemaHash : Hash32
  stateCodecHash : Hash32
  logicalTimePolicyHash : Hash32
  entropyPolicyHash : Hash32
  vm : ApplicationVmProfile
  resources : ApplicationResourceEnvelope
  courtProfileHash : Hash32
  handoffPolicyHash : Hash32
  deriving DecidableEq

/-- Application-scoped identity and digest of the original signed command. -/
structure CommandIdentity where
  id : Hash32
  payloadHash : Hash32
  deriving DecidableEq

/-- Canonical application input attached to one candidate block. -/
structure FrameInput where
  commands : List CommandIdentity
  startPosition : UInt64
  endPosition : UInt64
  logicalTimeStart : UInt64
  logicalTimeEnd : UInt64
  payload : List UInt8
  deriving DecidableEq

/-- Measured resources committed by an execution frame. -/
structure ExecutionResources where
  cycles : UInt64
  transactionBytes : UInt64
  inputBytes : UInt64
  deriving DecidableEq

/-- Auditable application slice bound by one finalised block. -/
structure ExecutionFrame where
  sessionId : Hash32
  height : UInt64
  applicationProfileCommitment : Hash32
  inputStart : UInt64
  inputEnd : UInt64
  inputRoot : Hash32
  logicalTimeStart : UInt64
  logicalTimeEnd : UInt64
  stateRootBefore : Hash32
  stateRootAfter : Hash32
  orderedCellTxCommitments : List Hash32
  resources : ExecutionResources
  deriving DecidableEq

/-! ## Session configuration -/

/-- Limits on one complete state transition. -/
structure CommitResourceLimits where
  version : UInt16
  maxFrameBytes : UInt64
  maxIssuedHandoffs : UInt64
  maxConsumedHandoffs : UInt64
  maxHandoffPayloadBytes : UInt64
  maxAuthorizationBytes : UInt64
  maxDataCommitments : UInt64
  maxOutboxMessages : UInt64
  maxOutboxBytes : UInt64
  maxSnapshotBytes : UInt64
  maxRecordBytes : UInt64
  deriving DecidableEq

/-- Source-effect trust model fixed at genesis. -/
inductive ProtocolEffectsPolicy where
  | disabled
  | authorityMetadata (policyHash : Hash32)
  | application (policyHash : Hash32)
  deriving DecidableEq

/-- Reverse lineage embedded in a successor's immutable genesis config. -/
structure PredecessorReference where
  sessionId : Hash32
  finalHeight : UInt64
  finalStateRoot : Hash32
  applicationProfileCommitment : Hash32
  deriving DecidableEq

/-- Immutable limits and genesis commitment for one continuous session chain. -/
structure SessionConfig where
  sessionId : Hash32
  consensusKind : ConsensusKind
  consensusConfigCommitment : Hash32
  consensusModuleCommitment : Hash32
  consensusWalSchemaHash : Hash32
  applicationProfile : ApplicationProfile
  initialStateRoot : Hash32
  initialInputPosition : UInt64
  initialLogicalTime : UInt64
  initialTimestampMs : UInt64
  predecessor : Option PredecessorReference
  maxBlockTransactions : UInt32
  maxBlockBytes : UInt64
  maxFutureDriftMs : UInt64
  commitLimits : CommitResourceLimits
  protocolEffects : ProtocolEffectsPolicy
  deriving DecidableEq

/-- Last atomically committed point of a session chain. -/
structure SessionHead where
  sessionId : Hash32
  finalisedHeight : Option UInt64
  blockHash : Hash32
  stateRoot : Hash32
  timestampMs : UInt64
  inputPosition : UInt64
  logicalTime : UInt64
  /-- Target session id once a final successor declaration seals this chain. -/
  sealedBySuccessor : Option Hash32
  deriving DecidableEq

/-- Genesis record atomically created with the initial chain head. -/
structure SessionGenesis where
  config : SessionConfig
  stateSnapshot : List UInt8
  deriving DecidableEq

/-- Full state used to restart a session. -/
structure StateCheckpoint where
  sessionId : Hash32
  finalisedHeight : Option UInt64
  stateRoot : Hash32
  stateSnapshot : List UInt8
  deriving DecidableEq

/-! ## Succession -/

/-- Identity of a migration program. -/
structure MigrationArtifact where
  formatVersion : UInt32
  programDigest : Hash32
  inputSchemaHash : Hash32
  deriving DecidableEq

/-- Output of the source application's deterministic successor policy. -/
inductive SuccessorState where
  /-- Preserve every state byte and the complete application/effect policy. -/
  | «continue»
  /-- Preserve state bytes under an explicitly checked compatibility policy. -/
  | compatible (policyHash declarationHash vectorsHash : Hash32)
  /-- Run a separately identified migration program. -/
  | migrate (artifact : MigrationArtifact) (inputs : List UInt8) (stateRoot : Hash32)
      (snapshot : List UInt8)
  deriving DecidableEq

/-- Transition receipt carried by a successor declaration. -/
structure SuccessorTransition where
  sourceGenesisCommitment : Hash32
  inputRoot : Hash32
  sourceSnapshotHash : Hash32
  state : SuccessorState
  deriving DecidableEq

/-- Final declaration that seals one session and atomically creates its sole successor. -/
structure SuccessorDeclaration where
  sourceSessionId : Hash32
  sourceHeight : UInt64
  sourceStateRoot : Hash32
  sourceApplicationProfileCommitment : Hash32
  targetConfig : SessionConfig
  transition : SuccessorTransition
  deriving DecidableEq

/-! ## Handoffs -/

/-- Exact target session, or any session with the given intake policy. -/
inductive HandoffTarget where
  | session (id : Hash32)
  | policy (id : Hash32)
  deriving DecidableEq

/-- Minimum locally verified evidence stage required before target inclusion. -/
structure EvidenceRequirement where
  messageId : Hash32
  pipelineCommitment : Hash32
  minimumStageIndex : UInt16
  deriving DecidableEq

/-- Application request to commit a transferable payload in the source block. -/
structure HandoffIntent where
  target : HandoffTarget
  expiresAtMs : UInt64
  payload : List UInt8
  authorization : List UInt8
  evidenceRequirement : Option EvidenceRequirement
  deriving DecidableEq

/-- Source-derived handoff committed by one finalised block. -/
structure SessionHandoff where
  sourceSessionId : Hash32
  sourceHeight : UInt64
  sourceStateRoot : Hash32
  sourceApplicationProfileCommitment : Hash32
  sourceConsensusModuleCommitment : Hash32
  target : HandoffTarget
  expiresAtMs : UInt64
  payload : List UInt8
  authorization : List UInt8
  evidenceRequirement : Option EvidenceRequirement
  deriving DecidableEq

/-- A block of some session, by position and hash. -/
structure HandoffBlockReference where
  sessionId : Hash32
  height : UInt64
  blockHash : Hash32
  deriving DecidableEq

/-- What became of an issued handoff. -/
inductive HandoffTerminal where
  | issued
  | consumed (block : HandoffBlockReference)
  | cancelled (block : HandoffBlockReference)
  | reclaimed (cancelledAt reclaimedAt : HandoffBlockReference)
  /-- Target consumption remains permanent; the source only retires its backing lock. -/
  | retired (consumedAt retiredAt : HandoffBlockReference)
  deriving DecidableEq

/-- Issuing block and outcome of a handoff. -/
structure HandoffLifecycle where
  issuedAt : HandoffBlockReference
  terminal : HandoffTerminal
  deriving DecidableEq

/-- Source-side request about an earlier handoff. -/
inductive HandoffAction where
  | cancel (handoffId : Hash32)
  | reclaim (handoffId : Hash32)
  | retire (handoffId : Hash32) (consumedAt : HandoffBlockReference)
  deriving DecidableEq

/-- Exact original handoff and (for refund) a previously committed cancellation. -/
structure ResolvedHandoffAction where
  action : HandoffAction
  handoff : SessionHandoff
  cancelledAt : Option HandoffBlockReference
  deriving DecidableEq

/-- Durable one-time-consumption state for a handoff. -/
structure StoredHandoff where
  handoff : SessionHandoff
  lifecycle : HandoffLifecycle
  deriving DecidableEq

/-! ## Blocks -/

/-- Durable external side effect emitted by deterministic execution. -/
structure OutboxMessage where
  id : Hash32
  consensusModuleCommitment : Hash32
  topic : String
  payload : List UInt8
  deriving DecidableEq

/-- One finalised, replayable block record. -/
structure FinalisedBlockRecord where
  block : MyelinBlock
  consensusModuleCommitment : Hash32
  proof : FinalityProof
  transactions : List (List UInt8)
  /-- Complete post-state snapshot; stores may elide it from historical records. -/
  stateSnapshot : List UInt8
  outbox : List OutboxMessage
  frame : ExecutionFrame
  frameInput : FrameInput
  successor : Option SuccessorDeclaration
  issuedHandoffs : List SessionHandoff
  consumedHandoffIds : List Hash32
  requestDataCommitments : List Hash32
  resourceSnapshotBytes : UInt64
  handoffActions : List ResolvedHandoffAction
  deriving DecidableEq

/-- Exact source requests supplied to both live execution and deterministic replay. -/
structure ProtocolEffectsContext where
  sourceGenesisCommitment : Hash32
  sourceSessionId : Hash32
  policy : ProtocolEffectsPolicy
  height : UInt64
  timestampMs : UInt64
  preStateRoot : Hash32
  inputRoot : Hash32
  issuedHandoffs : List HandoffIntent
  /-- Empty means no successor; otherwise the encoded successor config. -/
  successorConfig : List UInt8
  deriving DecidableEq

/-- Application-defined actor and object of one authorized effect. -/
structure EffectAuthorizationScope where
  actor : Hash32
  object : Hash32
  objectVersion : UInt64
  nonce : Hash32
  deriving DecidableEq

/-- External effect before the runtime gives it an identity. -/
structure PendingOutboxMessage where
  topic : String
  payload : List UInt8
  deriving DecidableEq

/-- What executing one block produced, beside the new state. -/
structure ExecutionOutcome where
  orderedCellTxCommitments : List Hash32
  dataCommitments : List Hash32
  outbox : List PendingOutboxMessage
  cycles : UInt64
  deriving DecidableEq

/-- Inclusion of a command in a durably committed execution frame. -/
structure CommandReceipt where
  sessionId : Hash32
  command : CommandIdentity
  inputPosition : UInt64
  blockHeight : UInt64
  blockHash : Hash32
  frameCommitment : Hash32
  deriving DecidableEq

/-- Proposal used to prepare one block. -/
structure BlockRequest where
  /-- Canonical encoded transactions in execution order. -/
  transactions : List (List UInt8)
  frameInput : FrameInput
  schedulerCommitment : Hash32
  /-- Additional DA commitments known before execution. -/
  dataCommitments : List Hash32
  timestampMs : UInt64
  /-- Local wall-clock time used only for bounded future-drift validation. -/
  localNowMs : UInt64
  successor : Option SessionConfig
  handoffs : List HandoffIntent
  consumeHandoffs : List Hash32
  handoffActions : List HandoffAction
  deriving DecidableEq

/-- Persisted consensus round state. -/
structure ConsensusWal where
  sessionId : Hash32
  height : UInt64
  consensusModuleCommitment : Hash32
  consensusConfigCommitment : Hash32
  walSchemaHash : Hash32
  revision : UInt64
  payload : List UInt8
  payloadHash : Hash32
  deriving DecidableEq

/-! ## Evidence -/

/-- One ordered evidence stage and the verifier required to accept it. -/
structure EvidenceStage where
  name : String
  verifierCommitment : Hash32
  deriving DecidableEq

/-- Immutable receipt ladder selected for an outbox topic. -/
structure EvidencePipelineDescriptor where
  pipelineName : String
  topic : String
  stages : List EvidenceStage
  deriving DecidableEq

/-- Evidence bytes accepted by the exact verifier assigned to one stage. -/
structure EvidenceReceipt where
  stageIndex : UInt16
  stageName : String
  verifierCommitment : Hash32
  previousReceiptCommitment : Hash32
  evidence : List UInt8
  deriving DecidableEq

/-- Durable monotonic receipt chain for one exact outbox message. -/
structure EvidenceRecord where
  sessionId : Hash32
  messageId : Hash32
  messageCommitment : Hash32
  descriptor : EvidencePipelineDescriptor
  receipts : List EvidenceReceipt
  revision : UInt64
  deriving DecidableEq

/-! ## External libraries -/

/-- `postcard::to_allocvec` at the types the session runtime serialises, and the two readers it
    needs back.  `record` takes the encoded finality proof beside the record. -/
structure Postcard where
  frameInput : FrameInput → List UInt8
  handoffIntent : HandoffIntent → List UInt8
  effectsContext : ProtocolEffectsContext → List UInt8
  /-- Genesis, scope, and the intent without its authorization. -/
  handoffAuthorization : Hash32 → EffectAuthorizationScope → HandoffIntent → List UInt8
  handoffActions : Hash32 → UInt64 → List ResolvedHandoffAction → List UInt8
  sessionConfig : SessionConfig → List UInt8
  sessionGenesis : SessionGenesis → List UInt8
  sessionHead : SessionHead → List UInt8
  stateCheckpoint : StateCheckpoint → List UInt8
  storedHandoff : StoredHandoff → List UInt8
  handoffLifecycle : HandoffLifecycle → List UInt8
  commandReceipt : CommandReceipt → List UInt8
  outboxMessage : OutboxMessage → List UInt8
  consensusWal : ConsensusWal → List UInt8
  evidenceRecord : EvidenceRecord → List UInt8
  record : FinalisedBlockRecord → List UInt8 → List UInt8
  takeSessionConfig : List UInt8 → Except SessionError SessionConfig
  takeRecord : List UInt8 → Except SessionError FinalisedBlockRecord

/-- A codec that writes nothing and reads nothing back, for examples in which no text matters. -/
def Postcard.blank : Postcard :=
  let unread := .codec "nothing is read back"
  ⟨fun _ => [], fun _ => [], fun _ => [], fun _ _ _ => [], fun _ _ _ => [], fun _ => [], fun _ => [],
    fun _ => [], fun _ => [], fun _ => [], fun _ => [], fun _ => [], fun _ => [], fun _ => [],
    fun _ => [], fun _ _ => [], fun _ => .error unread, fun _ => .error unread⟩

/-- The library calls of the session runtime. -/
structure SessionEnv where
  crypto : Crypto
  postcard : Postcard

/-- `blake3::hash`. -/
def SessionEnv.blake3 (env : SessionEnv) (bytes : List UInt8) : Hash32 := env.crypto.blake3 bytes

end Myelin.Session
