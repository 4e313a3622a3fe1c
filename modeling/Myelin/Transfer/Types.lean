/-
  Data of the reference transfer application.

  Accounts hold scarce assets.  An outgoing transfer locks its amount at the source until the
  handoff it became is consumed elsewhere or cancelled.
-/
import Myelin.Lib.SortedMap
import Myelin.Session.Record

namespace Myelin.Transfer

open Lib Consensus Session

/-! ## Errors -/

/-- Why a transfer was refused. -/
inductive TransferError where
  | codec (message : String)
  | policy (message : String)
  | authorization (message : String)
  | state (message : String)
  | bounds (message : String)
  | unsupported (message : String)
  | source (message : String)
  deriving DecidableEq, Repr

/-! ## Transfers -/

/-- Distinct policies and intake schemas: copying never creates a scarce balance. -/
inductive TransferKind where
  | scarce
  | copyableReceipt
  deriving DecidableEq

/-- Namespace is deployment/application-owned, not a ticker or display name. -/
structure AssetId where
  «namespace» : Hash32
  object : Hash32
  deriving DecidableEq

/-- Exact source anchor, retained in the target's genesis-bound policy. -/
structure SourceIdentity where
  sessionId : Hash32
  genesisCommitment : Hash32
  applicationProfileCommitment : Hash32
  consensusModuleCommitment : Hash32
  effectsPolicyHash : Hash32
  deriving DecidableEq

/-- Who may take a transfer in. -/
inductive TransferTarget where
  | session (sessionId genesisCommitment : Hash32)
  | sharedStorePolicy (policyCommitment : Hash32)
  deriving DecidableEq

/-- What a handoff of this application says. -/
structure TransferPayload where
  deploymentId : Hash32
  uniquenessDomain : Hash32
  kind : TransferKind
  intakeSchema : Hash32
  source : SourceIdentity
  asset : AssetId
  owner : Hash32
  recipient : Hash32
  sourceVersion : UInt64
  amount : UInt64
  components : List UInt8
  nonce : Hash32
  target : TransferTarget
  deriving DecidableEq

/-- Owner's signature over the complete intent. -/
structure Authorization where
  scope : EffectAuthorizationScope
  signature : List UInt8
  deriving DecidableEq

/-- Bounds on the state. -/
structure TransferLimits where
  maxAccounts : UInt32
  maxPending : UInt32
  maxReceipts : UInt32
  maxNonces : UInt32
  maxComponentsBytes : UInt32
  deriving DecidableEq

/-- Rules of one session, fixed at genesis. -/
structure TransferPolicy where
  deploymentId : Hash32
  uniquenessDomain : Hash32
  kind : TransferKind
  limits : TransferLimits
  acceptedSources : List SourceIdentity
  deriving DecidableEq

/-- One owner's consent to a continuation. -/
structure ContinuationApproval where
  owner : Hash32
  signature : List UInt8
  deriving DecidableEq

/-- Host command. -/
inductive TransferCommand where
  | issue (transferId : Hash32)
  | intake (handoffId : Hash32)
  | cancel (handoffId : Hash32) (authorization : List UInt8)
  /-- Once owner-authorized cancellation is durable, anyone may trigger the exact return. -/
  | reclaim (handoffId : Hash32)
  /-- Remove an already consumed source lock without crediting any account. -/
  | retire (handoffId : Hash32)
  | «continue» (targetGenesis : Hash32) (approvals : List ContinuationApproval)
  deriving DecidableEq

/-- What a command did. -/
inductive TransferEvent where
  | issued (transferId : Hash32) (kind : TransferKind) (amount : UInt64)
  | received (transferId handoffId : Hash32) (kind : TransferKind) (amount : UInt64)
  | cancelled (transferId handoffId : Hash32)
  | reclaimed (transferId handoffId : Hash32) (amount : UInt64)
  | retired (transferId handoffId : Hash32) (amount : UInt64)
  | continued (targetGenesis : Hash32)
  deriving DecidableEq

/-! ## State -/

/-- One owner's holding of one asset. -/
structure AssetAccount where
  asset : AssetId
  owner : Hash32
  available : UInt64
  locked : UInt64
  version : UInt64
  components : List UInt8
  deriving DecidableEq

/-- A source lock, keyed by the signature-independent transfer id. -/
structure PendingLock where
  transferId : Hash32
  source : SourceIdentity
  asset : AssetId
  owner : Hash32
  recipient : Hash32
  amount : UInt64
  nonce : Hash32
  sourceVersion : UInt64
  componentsHash : Hash32
  deriving DecidableEq

/-- Nullifier of a transfer taken in. -/
structure Receipt where
  transferId : Hash32
  handoffId : Hash32
  source : SourceIdentity
  sourceHeight : UInt64
  sourceStateRoot : Hash32
  asset : AssetId
  recipient : Hash32
  amount : UInt64
  kind : TransferKind
  components : List UInt8
  deriving DecidableEq

/-- State of one session; every vector is sorted by its key. -/
structure TransferState where
  policy : TransferPolicy
  accounts : List AssetAccount
  pending : List PendingLock
  receipts : List Receipt
  usedNonces : List (Hash32 × Hash32)
  deriving DecidableEq

/-- A local capability proving the allowlisted genesis records match this store, and how far away
    the sessions are whose locks a state has inherited. -/
structure SourceBindings where
  policyCommitment : Hash32
  inheritance : Option (Hash32 × SortedMap Hash32 Nat)
  deriving DecidableEq

/-- State and root of a session, bound to its genesis. -/
structure TransferExecutor where
  state : TransferState
  binding : SourceIdentity
  root : Hash32
  sources : SourceBindings
  deriving DecidableEq

/-! ## External libraries -/

/-- The decoder's bound on sequences. -/
def TransferState.WithinBounds (state : TransferState) : Prop :=
  state.policy.acceptedSources.length ≤ maxSequenceItems ∧ state.accounts.length ≤ maxSequenceItems ∧
    state.pending.length ≤ maxSequenceItems ∧ state.receipts.length ≤ maxSequenceItems ∧
    state.usedNonces.length ≤ maxSequenceItems

/-- `postcard` at the types of this application.  A reader returns the value and the bytes left. -/
structure TransferPostcard where
  payload : TransferPayload → List UInt8
  takePayload : List UInt8 → Except String (TransferPayload × List UInt8)
  authorization : Authorization → List UInt8
  takeAuthorization : List UInt8 → Except String (Authorization × List UInt8)
  commands : List TransferCommand → List UInt8
  takeCommands : List UInt8 → Except String (List TransferCommand × List UInt8)
  state : TransferState → List UInt8
  takeState : List UInt8 → Except String (TransferState × List UInt8)
  policy : TransferPolicy → List UInt8
  command : TransferCommand → List UInt8
  event : TransferEvent → List UInt8
  /-- `bounded_vec` stops at the codec's ceiling. -/
  takeCommands_length : ∀ bytes commands rest, takeCommands bytes = .ok (commands, rest) →
    commands.length ≤ maxSequenceItems
  /-- `postcard` reads back what it wrote, within the bounds of the deserialiser. -/
  takeState_state : ∀ value : TransferState, value.WithinBounds →
    (state value).length ≤ maxRecordBytes → takeState (state value) = .ok (value, [])

/-- The library calls of the application. -/
structure TransferEnv where
  session : SessionEnv
  postcard : TransferPostcard

end Myelin.Transfer
