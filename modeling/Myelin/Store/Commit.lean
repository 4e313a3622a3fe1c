/-
  `create_session` and `commit_block`.

  A call is one database transaction: it computes the store after the commit, or an error, and an
  error commits nothing.  Within the transaction block records are read from the snapshot it
  started with (`base`), genesis and handoff entries include its own writes (`work`).  Each loop of
  `commit_block` folds over the ONE key family it writes, so what it leaves alone is definitional.

  The source compares the encoded heads; equal encodings are equal heads.
-/
import Myelin.Store.State

namespace Myelin.Store

open Lib Consensus Session Function

/-- Handoff entries by id. -/
abbrev HandoffTable := Hash32 → Option StoredHandoff

/-! ## Creation -/

/-- A genesis and the head it starts with. -/
def validateGenesis (genesis : SessionGenesis) (head : SessionHead) : Except StoreError Unit := do
  genesis.config.validate.mapError corrupt
  ensure (genesis.config.sessionId = head.sessionId ∧ head.finalisedHeight = none ∧
      head.blockHash = zeroHash ∧ head.stateRoot = genesis.config.initialStateRoot ∧
      head.timestampMs = genesis.config.initialTimestampMs ∧
      head.inputPosition = genesis.config.initialInputPosition ∧
      head.logicalTime = genesis.config.initialLogicalTime ∧ head.sealedBySuccessor = none)
    (.corrupt "invalid genesis head")
  ensure (genesis.stateSnapshot ≠ []) (.corrupt "initial state snapshot must not be empty")

/-- Encoding a head can only fail on its size. -/
def encodeHead (env : StoreEnv) (head : SessionHead) : Except StoreError (List UInt8) :=
  (encodeRecord env.session (env.session.postcard.sessionHead head)).mapError corrupt

/-- Checkpoint of a session before its first block. -/
def genesisCheckpoint (genesis : SessionGenesis) : StateCheckpoint where
  sessionId := genesis.config.sessionId
  finalisedHeight := none
  stateRoot := genesis.config.initialStateRoot
  stateSnapshot := genesis.stateSnapshot

/-- Whether a session id has never been used. -/
def RocksSessionStore.Unused (store : RocksSessionStore) (sessionId : Hash32) : Prop :=
  store.genesis sessionId = none ∧ store.head sessionId = none ∧ store.checkpoint sessionId = none

instance (store : RocksSessionStore) (sessionId : Hash32) : Decidable (store.Unused sessionId) :=
  inferInstanceAs (Decidable (_ ∧ _))

/-- Write genesis, head and checkpoint of a new session. -/
def RocksSessionStore.putSession (store : RocksSessionStore) (genesis : SessionGenesis)
    (head : SessionHead) : RocksSessionStore :=
  { store with
    genesis := update store.genesis genesis.config.sessionId (some genesis)
    head := update store.head genesis.config.sessionId (some head)
    checkpoint :=
      update store.checkpoint genesis.config.sessionId (some (genesisCheckpoint genesis)) }

/-- Create genesis config, initial snapshot, and head iff the id is unused. -/
def createSession (env : StoreEnv) (genesis : SessionGenesis) (head : SessionHead)
    (store : RocksSessionStore) : Except StoreError RocksSessionStore := do
  ensure (genesis.config.predecessor = none)
    (.conflict "a successor genesis can only be created in its predecessor block transaction")
  (genesis.config.commitLimits.snapshot genesis.stateSnapshot).mapError corrupt
  validateGenesis genesis head
  let _ ← (genesis.encode env.session).mapError corrupt
  let _ ← encodeHead env head
  let _ ← ((genesisCheckpoint genesis).encode env.session).mapError corrupt
  ensure (store.Unused genesis.config.sessionId) (.conflict "session id already exists")
  pure (store.putSession genesis head)

/-! ## Checks of a commit -/

variable (env : StoreEnv) (expected new : SessionHead) (record : FinalisedBlockRecord)

/-- A declared successor starts where the block ends, and the block commits to it. -/
def checkSuccessor : Except StoreError Unit :=
  match record.successor with
  | none => .ok ()
  | some successor => do
      successor.validate.mapError corrupt
      ensure (successor.sourceSessionId = expected.sessionId ∧
          successor.sourceHeight = record.block.number ∧
          successor.sourceStateRoot = record.block.stateRootAfter ∧
          successor.targetConfig.initialInputPosition = record.frame.inputEnd ∧
          successor.targetConfig.initialLogicalTime = record.frame.logicalTimeEnd ∧
          successor.targetConfig.initialTimestampMs = record.block.timestampMs ∧
          successor.commitment env.session ∈ record.block.dataCommitments)
        (.corrupt "successor declaration is not committed by its source block")

/-- A record continues `expected` and leads to `new`, and commits to everything it carries. -/
def validateCommit : Except StoreError Unit := do
  ensure (expected.sessionId = new.sessionId ∧ record.block.parentHash = expected.blockHash ∧
      expected.sealedBySuccessor = none ∧ record.block.sessionId = expected.sessionId ∧
      record.block.stateRootBefore = expected.stateRoot)
    (.corrupt "block/head linkage is inconsistent")
  let nextHeight ← expected.nextHeight.mapError corrupt
  ensure (record.block.number = nextHeight ∧ new.finalisedHeight = some record.block.number ∧
      new.blockHash = record.block.hash env.session.crypto ∧
      new.stateRoot = record.block.stateRootAfter ∧ new.timestampMs = record.block.timestampMs ∧
      record.proof.kind = record.block.consensusKind ∧
      record.consensusModuleCommitment ≠ zeroHash ∧
      record.block.executionFrameCommitment = record.frame.commitment env.session ∧
      record.frame.sessionId = expected.sessionId ∧ record.frame.height = record.block.number ∧
      record.frame.stateRootBefore = record.block.stateRootBefore ∧
      record.frame.stateRootAfter = record.block.stateRootAfter ∧
      record.frame.orderedCellTxCommitments = record.block.orderedCellTxCommitments ∧
      record.frame.inputStart = expected.inputPosition ∧
      record.frame.logicalTimeStart = expected.logicalTime ∧
      new.inputPosition = record.frame.inputEnd ∧
      new.logicalTime = record.frame.logicalTimeEnd ∧
      new.sealedBySuccessor = record.successor.map (·.targetConfig.sessionId))
    (.corrupt "block/head linkage is inconsistent")
  ensure (record.transactions.length = record.block.orderedCellTxCommitments.length)
    (.corrupt "transaction payload/commitment count mismatch")
  ensure (record.requestDataCommitments <+: record.block.dataCommitments)
    (.corrupt "request data commitments are not the canonical block prefix")
  ensure (record.stateSnapshot ≠ []) (.corrupt "post-state snapshot must not be empty")
  ensure (∀ message ∈ record.outbox,
      message.consensusModuleCommitment = record.consensusModuleCommitment ∧
      message.commitment env.session ∈ record.block.dataCommitments)
    (.corrupt "outbox message is not committed by the block")
  checkSuccessor env expected record
  -- `any` stops at the first bad or repeated entry; one error covers both
  ensure ((∀ handoff ∈ record.issuedHandoffs, handoff.validate record.block.timestampMs = .ok () ∧
        handoff.sourceSessionId = expected.sessionId ∧
        handoff.sourceHeight = record.block.number ∧
        handoff.sourceStateRoot = record.block.stateRootAfter ∧
        handoff.id env.session ∈ record.block.dataCommitments) ∧
      (record.issuedHandoffs.map (·.id env.session)).Nodup)
    (.corrupt "issued handoff is not committed by its source block")
  ensure (record.consumedHandoffIds.Nodup ∧ ∀ id ∈ record.consumedHandoffIds,
      SessionHandoff.consumptionCommitment env.session expected.sessionId record.block.number id ∈
        record.block.dataCommitments)
    (.corrupt "handoff consumption is not committed by its target block")

/-! ## Parts of a commit -/

/-- Reference to the block being committed. -/
def reference (env : SessionEnv) (record : FinalisedBlockRecord) : HandoffBlockReference :=
  HandoffBlockReference.fromBlock env record.block

section Parts

variable (env : StoreEnv) (base work : RocksSessionStore) (config : SessionConfig)
  (record : FinalisedBlockRecord)

/-- Head of a successor session. -/
def successorHead (target : SessionConfig) : SessionHead where
  sessionId := target.sessionId
  finalisedHeight := none
  blockHash := zeroHash
  stateRoot := target.initialStateRoot
  timestampMs := target.initialTimestampMs
  inputPosition := target.initialInputPosition
  logicalTime := target.initialLogicalTime
  sealedBySuccessor := none

/-- Create the successor session a record declares. -/
def putSuccessor : Except StoreError RocksSessionStore :=
  match record.successor with
  | none => .ok work
  | some successor => do
      (successor.validateSource env.session config (record.frameInput.root env.session)).mapError
        corrupt
      let snapshot ← (successor.targetSnapshot env.session record.stateSnapshot).mapError corrupt
      ensure (work.Unused successor.targetConfig.sessionId)
        (.conflict "successor session id already exists")
      let genesis : SessionGenesis := ⟨successor.targetConfig, snapshot⟩
      validateGenesis genesis (successorHead successor.targetConfig)
      let _ ← (genesis.encode env.session).mapError corrupt
      let _ ← encodeHead env (successorHead successor.targetConfig)
      let _ ← ((genesisCheckpoint genesis).encode env.session).mapError corrupt
      pure (work.putSession genesis (successorHead successor.targetConfig))

/-- Index the commands of a frame, refusing one that is already committed. -/
def putCommands : Nat → List CommandIdentity → (Hash32 × Hash32 → Option CommandReceipt) →
    Except StoreError (Hash32 × Hash32 → Option CommandReceipt)
  | _, [], commands => .ok commands
  | index, command :: rest, commands => do
      ensure (commands (record.block.sessionId, command.id) = none)
        (.conflict "command identity already committed")
      let receipt ← (CommandReceipt.forRecord env.session record index).mapError corrupt
      let _ ← (encodeRecord env.session (env.session.postcard.commandReceipt receipt)).mapError
        corrupt
      putCommands (index + 1) rest
        (update commands (record.block.sessionId, command.id) (some receipt))

/-- Enter one issued handoff. -/
def issueHandoff (handoffs : HandoffTable) (handoff : SessionHandoff) :
    Except StoreError HandoffTable := do
  let id := handoff.id env.session
  ensure (handoffs id = none ∧ work.compactHandoff id = none)
    (.conflict "handoff id already exists")
  let stored : StoredHandoff := ⟨handoff, reference env.session record, .issued⟩
  let _ ← (stored.encode env.session).mapError corrupt
  pure (update handoffs id (some stored))

/-- The evidence a handoff asks for is present and far enough. -/
def checkEvidence (handoff : SessionHandoff) : Except StoreError Unit :=
  match handoff.evidenceRequirement with
  | none => .ok ()
  | some requirement => do
      let evidence ← okOr (work.evidence (handoff.sourceSessionId, requirement.messageId))
        (.conflict "required handoff evidence is absent")
      (evidence.validateIntrinsic env.session).mapError corrupt
      ensure (evidence.descriptor.commitment env.session = requirement.pipelineCommitment ∧
          requirement.minimumStageIndex.toNat < evidence.receipts.length)
        (.conflict "required handoff evidence stage has not been reached")

/-- Consume one handoff. -/
def consumeHandoff (state : HandoffUsage × HandoffTable) (id : Hash32) :
    Except StoreError (HandoffUsage × HandoffTable) := do
  let found ← transactionHandoff env base { work with handoff := state.2 } id fun _ => .ok ()
  let stored ← okOr found (.notFound "consumed handoff")
  let usage ← (state.1.add config.commitLimits stored.handoff.payload.length
    stored.handoff.authorization.length).mapError corrupt
  ensure (stored.handoff.id env.session = id ∧ stored.isAvailable)
    (.conflict "handoff identity mismatch or already consumed")
  ensure (stored.handoff.acceptsTarget config ∧
      record.block.timestampMs ≤ stored.handoff.expiresAtMs)
    (.conflict "handoff target policy mismatch or handoff expired")
  let source ← okOr (work.genesis stored.handoff.sourceSessionId)
    (.notFound "handoff source genesis")
  source.validate.mapError corrupt
  (validateHandoffTrust config source.config).mapError corrupt
  let sourceRecord ← base.readBlock env source.config stored.handoff.sourceSessionId
    stored.handoff.sourceHeight
  (validateHandoffSource env.session source.config sourceRecord stored.handoff).mapError corrupt
  checkEvidence env work stored.handoff
  ensure (stored.lifecycle.issuedAt =
      HandoffBlockReference.fromBlock env.session sourceRecord.block)
    (.corrupt "lifecycle issuer block mismatch")
  let consumed := stored.withTerminal (.consumed (reference env.session record))
  let _ ← (consumed.encode env.session).mapError corrupt
  pure (usage, update state.2 id (some consumed))

/-- A refund names the committed block that cancelled the handoff. -/
def checkCancellation (action : ResolvedHandoffAction) : Except StoreError Unit :=
  match action.cancelledAt with
  | none => .ok ()
  | some block => do
      let genesis ← work.loadGenesis block.sessionId
      let cancelled ← base.readBlock env genesis.config block.sessionId block.height
      ensure (HandoffBlockReference.fromBlock env.session cancelled.block = block ∧
          cancelled.handoffActions.count ⟨.cancel action.action.handoffId, action.handoff, none⟩ = 1)
        (.corrupt "refund cancellation evidence mismatch")

/-- A retirement names the committed block that consumed the handoff. -/
def checkRetirement (action : ResolvedHandoffAction) : Except StoreError Unit :=
  match action.action with
  | .retire id consumedAt => do
      let genesis ← work.loadGenesis consumedAt.sessionId
      let target ← base.readBlock env genesis.config consumedAt.sessionId consumedAt.height
      (validateConsumptionRecord env.session consumedAt id target).mapError corrupt
  | _ => .ok ()

/-- Whether the stored outcome is the one an action expects. -/
def expectedTerminal (terminal : HandoffTerminal) (action : ResolvedHandoffAction) : Bool :=
  match terminal, action.action with
  | .consumed block, .retire _ consumedAt => consumedAt = block
  | .issued, .cancel _ => true
  | .cancelled block, .reclaim _ => action.cancelledAt = some block
  | _, _ => false

/-- Apply one source-side action. -/
def applyHandoffAction (handoffs : HandoffTable) (action : ResolvedHandoffAction) :
    Except StoreError HandoffTable := do
  let _ ← (validateHandoffAction env.session (base.view env) config record.block.number
    action).mapError corrupt
  let found ← transactionHandoff env base { work with handoff := handoffs } action.action.handoffId
    fun _ => .ok ()
  let stored ← okOr found (.notFound "lifecycle handoff")
  ensure (stored.handoff = action.handoff)
    (.corrupt "lifecycle witness differs from stored handoff")
  let source ← work.loadGenesis action.handoff.sourceSessionId
  let sourceRecord ← base.readBlock env source.config action.handoff.sourceSessionId
    action.handoff.sourceHeight
  (validateHandoffSource env.session source.config sourceRecord stored.handoff).mapError corrupt
  ensure (stored.lifecycle.issuedAt =
      HandoffBlockReference.fromBlock env.session sourceRecord.block)
    (.corrupt "lifecycle issuer block mismatch")
  checkCancellation env base work action
  checkRetirement env base work action
  ensure (expectedTerminal stored.lifecycle.terminal action)
    (.conflict "handoff lifecycle changed; reconcile terminal outcome")
  let applied := stored.applyAction env.session action (reference env.session record)
  applied.1.mapError corrupt
  let _ ← (applied.2.encode env.session).mapError corrupt
  pure (update handoffs action.action.handoffId (some applied.2))

/-- Outbox entries and the index of undelivered ones. -/
abbrev OutboxTables := (Hash32 × UInt64 × Hash32 → Option OutboxMessage) ×
  (Hash32 × Hash32 → Option UInt64)

/-- Enqueue one external effect. -/
def putOutbox (tables : OutboxTables) (message : OutboxMessage) : Except StoreError OutboxTables := do
  ensure (tables.2 (record.block.sessionId, message.id) = none)
    (.conflict "duplicate outbox message id")
  let _ ← (message.encode env.session).mapError corrupt
  pure (update tables.1 (record.block.sessionId, record.block.number, message.id) (some message),
    update tables.2 (record.block.sessionId, message.id) (some record.block.number))

/-- Bounds and integrity of a stored round state. -/
def validateWal (wal : ConsensusWal) : Except SessionError Unit := do
  ensure (wal.sessionId ≠ zeroHash ∧ wal.consensusModuleCommitment ≠ zeroHash ∧
      wal.consensusConfigCommitment ≠ zeroHash ∧ wal.walSchemaHash ≠ zeroHash)
    (.codec "consensus WAL identity/schema commitments must not be zero")
  ensure (wal.payload.length ≤ 16 * 1024 * 1024)
    (.codec "consensus WAL payload exceeds 16777216 bytes")
  ensure (env.session.blake3 wal.payload = wal.payloadHash)
    (.codec "consensus WAL payload hash mismatch")

/-- A committed block ends the round its WAL was for. -/
def clearWal (wals : Hash32 → Option ConsensusWal) :
    Except StoreError (Hash32 → Option ConsensusWal) :=
  match wals record.block.sessionId with
  | none => .ok wals
  | some wal => do
      (validateWal env wal).mapError corrupt
      ensure (wal.consensusModuleCommitment = config.consensusModuleCommitment ∧
          wal.consensusConfigCommitment = config.consensusConfigCommitment ∧
          wal.walSchemaHash = config.consensusWalSchemaHash)
        (.corrupt "consensus WAL module/config/schema does not match session genesis")
      ensure (wal.height ≤ record.block.number)
        (.conflict "consensus WAL is ahead of the block being committed")
      pure (update wals record.block.sessionId none)

/-- The record as stored: the snapshot stays only at archival checkpoints. -/
def storedRecord : FinalisedBlockRecord :=
  if record.block.number % env.archivalCheckpointInterval = 0 then record
  else { record with stateSnapshot := [] }

/-- Checkpoint after the block. -/
def blockCheckpoint : StateCheckpoint where
  sessionId := record.block.sessionId
  finalisedHeight := some record.block.number
  stateRoot := record.block.stateRootAfter
  stateSnapshot := record.stateSnapshot

end Parts

/-- Everything `commit_block` checks before it reads the current head. -/
def commitChecks (config : SessionConfig) : Except StoreError (List UInt8) := do
  (record.validateResources env.session config).mapError corrupt
  validateCommit env expected new record
  let _ ← encodeHead env expected
  let _ ← encodeHead env new
  let _ ← ((blockCheckpoint record).encode env.session).mapError corrupt
  let bytes ← ((storedRecord env record).encode env.session).mapError corrupt
  (record.frame.validate env.session config.applicationProfile record.frameInput).mapError corrupt
  ensure (config.consensusKind = record.block.consensusKind ∧
      config.applicationProfile.commitment env.session = record.block.applicationProfileCommitment ∧
      config.consensusModuleCommitment = record.consensusModuleCommitment)
    (.corrupt "block record consensus module does not match session genesis")
  pure bytes

/-- The three handoff loops of `commit_block`. -/
def commitHandoffs (env : StoreEnv) (base work : RocksSessionStore) (config : SessionConfig)
    (record : FinalisedBlockRecord) (usage : HandoffUsage) : Except StoreError HandoffTable := do
  let issued ← record.issuedHandoffs.foldlM (issueHandoff env work record) work.handoff
  let consumed ← record.consumedHandoffIds.foldlM (consumeHandoff env base work config record)
    (usage, issued)
  record.handoffActions.foldlM (applyHandoffAction env base work config record) consumed.2

/-- The writes of a commit, once every part has been computed. -/
def commitWrite (work : RocksSessionStore) (bytes : List UInt8)
    (commands : Hash32 × Hash32 → Option CommandReceipt) (handoffs : HandoffTable)
    (outbox : OutboxTables) (wal : Hash32 → Option ConsensusWal) : RocksSessionStore :=
  let key := (record.block.sessionId, record.block.number)
  { work with
    command := commands
    handoff := handoffs
    block := update work.block key (some bytes)
    archivalCheckpoint :=
      if (storedRecord env record).stateSnapshot = [] then work.archivalCheckpoint
      else update work.archivalCheckpoint key (some (record.block.hash env.session.crypto))
    head := update work.head record.block.sessionId (some new)
    checkpoint :=
      update work.checkpoint record.block.sessionId (some (blockCheckpoint record))
    outbox := outbox.1
    outboxIndex := outbox.2
    wal }

/-- Atomically CAS the head and write block, snapshot, proof, handoffs and outbox.  The checks
    make `record.block.sessionId` the session of `expected`. -/
def commitBlock (store : RocksSessionStore) : Except StoreError RocksSessionStore := do
  let genesis ← store.loadGenesis expected.sessionId
  let bytes ← commitChecks env expected new record genesis.config
  let actual ← okOr (store.head expected.sessionId) (.notFound "session head")
  ensure (actual = expected) (.conflict "session head changed")
  ensure (store.block (expected.sessionId, record.block.number) = none ∧
      store.coldBlock (expected.sessionId, record.block.number) = none)
    (.conflict ("height " ++ toString record.block.number ++ " already exists"))
  let usage ← (genesis.config.commitLimits.handoffs
    (record.issuedHandoffs ++ record.handoffActions.map (·.handoff))).mapError corrupt
  let work ← putSuccessor env store genesis.config record
  let commands ← putCommands env record 0 record.frameInput.commands work.command
  let handoffs ← commitHandoffs env store work genesis.config record usage
  let outbox ← record.outbox.foldlM (putOutbox env record) (work.outbox, work.outboxIndex)
  let wal ← clearWal env genesis.config record work.wal
  pure (commitWrite env new record work bytes commands handoffs outbox wal)

/-! ## What a successful commit has found -/

section Inversion

variable {env expected new record} {store next : RocksSessionStore} {config : SessionConfig}

/-- The facts of `validate_commit` that link a record to the head it extends. -/
lemma validateCommit_ok (h : validateCommit env expected new record = .ok ()) :
    new.sessionId = expected.sessionId ∧ record.block.sessionId = expected.sessionId ∧
      expected.sealedBySuccessor = none ∧
      new.sealedBySuccessor = record.successor.map (·.targetConfig.sessionId) ∧
      (∀ handoff ∈ record.issuedHandoffs, handoff.sourceSessionId = expected.sessionId ∧
        handoff.sourceHeight = record.block.number) ∧
      (record.issuedHandoffs.map (·.id env.session)).Nodup ∧ record.consumedHandoffIds.Nodup := by
  simp only [validateCommit, eq_ok] at h
  obtain ⟨⟨hsession, -, hunsealed, hblock, -⟩, _, -, hlink, -, -, -, -, -, ⟨hissued, hids⟩, hconsumed,
    -⟩ := h
  obtain ⟨-, -, -, -, -, -, -, -, -, -, -, -, -, -, -, -, -, hsealed⟩ := hlink
  refine ⟨hsession.symm, hblock, hunsealed, hsealed, fun handoff hmem => ?_, hids, hconsumed⟩
  obtain ⟨-, hsource, hheight, -, -⟩ := hissued handoff hmem
  exact ⟨hsource, hheight⟩

/-- Actions that passed `checkActions` are well formed, about distinct handoffs, none in `seen`. -/
lemma checkActions_ok {env : SessionEnv} {sessionId : Hash32} {height : UInt64} {seen : List Hash32}
    {actions : List ResolvedHandoffAction}
    (h : checkActions env sessionId height seen actions = .ok ()) :
    (∀ action ∈ actions, action.validateFor env sessionId height = .ok () ∧
        action.action.handoffId ∉ seen) ∧
      (actions.map (·.action.handoffId)).Nodup := by
  induction actions generalizing seen with
  | nil => simp
  | cons action rest ih =>
    simp only [checkActions, eq_ok] at h
    obtain ⟨hvalid, hfresh, hrest⟩ := h
    obtain ⟨hall, hnodup⟩ := ih hrest
    refine ⟨List.forall_mem_cons.mpr ⟨⟨hvalid, hfresh⟩, fun other hother => ?_⟩, ?_⟩
    · exact ⟨(hall other hother).1, fun hseen => (hall other hother).2 (List.mem_cons_of_mem _ hseen)⟩
    · refine List.nodup_cons.mpr ⟨fun hmem => ?_, hnodup⟩
      obtain ⟨other, hother, hid⟩ := List.mem_map.mp hmem
      exact (hall other hother).2 (hid ▸ List.mem_cons_self)

/-- The lifecycle actions of a record that passed `validate_resources`. -/
lemma validateResources_actions {env : SessionEnv}
    (h : record.validateResources env config = .ok ()) :
    (∀ action ∈ record.handoffActions,
        action.validateFor env record.block.sessionId record.block.number = .ok () ∧
        action.action.handoffId ∉ record.consumedHandoffIds) ∧
      (record.handoffActions.map (·.action.handoffId)).Nodup := by
  simp only [FinalisedBlockRecord.validateResources, eq_ok] at h
  obtain ⟨-, -, -, -, -, hactions, -⟩ := h
  unfold FinalisedBlockRecord.validateActions at hactions
  split at hactions
  case isTrue =>
    simp only [eq_ok] at hactions
    obtain ⟨-, hchecked, -⟩ := hactions
    exact checkActions_ok hchecked
  case isFalse hempty =>
    have hnil : record.handoffActions = [] := not_not.mp hempty
    simp [hnil]

/-- A successor leaves the other sessions and all handoffs alone. -/
lemma putSuccessor_ok (h : putSuccessor env store config record = .ok work) :
    (record.successor = none ∧ work = store) ∨ ∃ successor snapshot,
      record.successor = some successor ∧
        successor.targetSnapshot env.session record.stateSnapshot = .ok snapshot ∧
        store.Unused successor.targetConfig.sessionId ∧
        work = store.putSession ⟨successor.targetConfig, snapshot⟩
          (successorHead successor.targetConfig) := by
  unfold putSuccessor at h
  split at h
  case h_1 hnone =>
    cases h
    exact .inl ⟨hnone, rfl⟩
  case h_2 successor hsome =>
    simp only [eq_ok] at h
    obtain ⟨-, snapshot, hsnapshot, hunused, -, _, -, _, -, _, -, rfl⟩ := h
    exact .inr ⟨successor, snapshot, hsome, hsnapshot, hunused, rfl⟩

/-- Everything a successful commit went through, and the store it wrote. -/
lemma commitBlock_ok (h : commitBlock env expected new record store = .ok next) :
    ∃ genesis bytes usage work commands handoffs outbox wal,
      store.loadGenesis expected.sessionId = .ok genesis ∧
      (record.validateResources env.session genesis.config = .ok () ∧
        validateCommit env expected new record = .ok () ∧
        (storedRecord env record).encode env.session = .ok bytes) ∧
      store.head expected.sessionId = some expected ∧
      (store.block (expected.sessionId, record.block.number) = none ∧
        store.coldBlock (expected.sessionId, record.block.number) = none) ∧
      putSuccessor env store genesis.config record = .ok work ∧
      putCommands env record 0 record.frameInput.commands work.command = .ok commands ∧
      commitHandoffs env store work genesis.config record usage = .ok handoffs ∧
      next = commitWrite env new record work bytes commands handoffs outbox wal := by
  simp only [commitBlock, commitChecks, eq_ok] at h
  obtain ⟨genesis, hgenesis, _, ⟨hresources, hcommit, _, -, _, -, _, -, bytes, hencode, -, -, rfl⟩, _,
    hhead, rfl, hfree, usage, -, work, hwork, commands, hcommands, handoffs, hhandoffs, outbox, -, wal,
    -, rfl⟩ := h
  exact ⟨genesis, bytes, usage, work, commands, handoffs, outbox, wal, hgenesis,
    ⟨hresources, hcommit, hencode⟩, hhead, hfree, hwork, hcommands, hhandoffs, rfl⟩

end Inversion

end Myelin.Store
