/-
  Relocating block records to an archive, and compacting terminal handoffs.

  Relocation moves the exact bytes of a block; compaction drops the payload of a handoff that
  nothing can happen to any more, and keeps its lifecycle.

  `check` is the caller's budget callback.  Every refusal aborts the transaction, so a callback that
  changes its mind during one call behaves like one that refuses from the start.
-/
import Myelin.Store.Commit

namespace Myelin.Store

open Lib Consensus Session Function

/-- Explicit local hot-storage requirements. -/
structure RetentionWindow where
  hotFromHeight : UInt64
  /-- Inclusive height ranges that must stay hot. -/
  protectedRanges : List (UInt64 × UInt64)

/-- Whether a height is in a protected range. -/
def RetentionWindow.protects (window : RetentionWindow) (height : UInt64) : Bool :=
  window.protectedRanges.any fun range => range.1 ≤ height ∧ height ≤ range.2

/-- Why a block stays hot. -/
inductive RetentionHold where
  | currentTip
  | recoveryWindow
  | protectedRange
  | pendingDelivery
  | outstandingHandoff
  deriving DecidableEq

/-- Compacted entries and the bytes they freed. -/
structure HandoffCompaction where
  records : Nat
  bytesRemoved : Nat
  deriving DecidableEq

/-- What an offload did. -/
inductive OffloadOutcome where
  | archived (hotRecordBytesRemoved : Nat) (handoffs : HandoffCompaction)
  | alreadyArchived (handoffs : HandoffCompaction)
  /-- The exact same block now pins a different verified archive manifest. -/
  | rebound (previousArchive : Hash32) (handoffs : HandoffCompaction)
  | held (hold : RetentionHold)
  deriving DecidableEq

/-- Arguments of one `offload_block` call. -/
structure OffloadRequest where
  expected : SessionHead
  height : UInt64
  reference : ArchiveReference
  window : RetentionWindow
  /-- `HandoffRetentionPolicy::is_copyable`. -/
  isCopyable : SessionConfig → SessionHandoff → Except SessionError Bool
  check : UInt64 → Except StoreError Unit

/-- Key of the block a request is about. -/
def OffloadRequest.key (request : OffloadRequest) : Hash32 × UInt64 :=
  (request.expected.sessionId, request.height)

/-! ## Compaction -/

/-- Full and compact handoff entries during a compaction. -/
structure HandoffTables where
  full : HandoffTable
  compact : Hash32 → Option HandoffLifecycle
  outcome : HandoffCompaction

section Compaction

variable (env : StoreEnv) (check : UInt64 → Except StoreError Unit) (record : FinalisedBlockRecord)

/-- Compact one handoff of its issuing block, if it is terminal. -/
def compactHandoff (tables : HandoffTables) (handoff : SessionHandoff) :
    Except StoreError HandoffTables := do
  check (recordReservation + UInt64.ofNat maxCompactBytes)
  let id := handoff.id env.session
  match tables.full id, tables.compact id with
  | some stored, none => do
      stored.validateLifecycle.mapError corrupt
      ensure (stored.handoff = handoff ∧ stored.lifecycle.issuedAt = reference env.session record)
        (.corrupt "handoff compaction differs from exact issuing block")
      if isTerminal stored.lifecycle then do
        let compact ← encodeCompact env stored.lifecycle
        let bytes ← (stored.encode env.session).mapError corrupt
        ensure (compact.length ≤ bytes.length) (.corrupt "compact handoff grew")
        pure {
          full := update tables.full id none
          compact := update tables.compact id (some stored.lifecycle)
          outcome := ⟨tables.outcome.records + 1,
            tables.outcome.bytesRemoved + (bytes.length - compact.length)⟩ }
      else
        pure tables
  | none, some lifecycle => do
      let _ ← encodeCompact env lifecycle
      ensure (lifecycle.issuedAt = reference env.session record)
        (.corrupt "compact handoff issuer block mismatch")
      (StoredHandoff.validateLifecycle ⟨handoff, lifecycle⟩).mapError corrupt
      (handoff.validate record.block.timestampMs).mapError corrupt
      pure tables
  | none, none => .error (.corrupt "compaction handoff is absent")
  | some _, some _ => .error (.corrupt "handoff has overlapping full/compact records")

/-- Whether some message of the block is still undelivered. -/
def pendingDelivery (store : RocksSessionStore) : List OutboxMessage → Except StoreError Bool
  | [] => .ok false
  | message :: rest => do
      check recordReservation
      if store.outboxIndex (record.block.sessionId, message.id) ≠ none then pure true
      else pendingDelivery store rest

/-- Compact the terminal handoffs a block issued, unless a hold keeps the block itself hot. -/
def compactIssuedHandoffs (store : RocksSessionStore) (expected : SessionHead)
    (window : RetentionWindow) : Except StoreError HandoffTables := do
  let unchanged : HandoffTables := ⟨store.handoff, store.compactHandoff, ⟨0, 0⟩⟩
  if some record.block.number = expected.finalisedHeight ∨
      window.hotFromHeight ≤ record.block.number ∨ window.protects record.block.number then
    pure unchanged
  else do
    let pending ← pendingDelivery check record store record.outbox
    if pending then pure unchanged
    else record.issuedHandoffs.foldlM (compactHandoff env check record) unchanged

end Compaction

/-! ## Relocation -/

variable (env : StoreEnv) (request : OffloadRequest) (store : RocksSessionStore)

/-- Handoffs a block is evidence for, each once, in key order. -/
def referencedHandoffs (record : FinalisedBlockRecord) : List Hash32 :=
  (record.issuedHandoffs.map (·.id env.session) ++ record.consumedHandoffIds ++
    record.handoffActions.map (·.action.handoffId)).dedup.mergeSort (fun a b => decide (a ≤ b))

/-- Whether some referenced handoff still needs its block hot. -/
def outstandingHandoff : List Hash32 → Except StoreError Bool
  | [] => .ok false
  | id :: rest => do
      let found ← transactionHandoff env store store id request.check
      let stored ← okOr found (.corrupt "archive dependency handoff is absent")
      let closed ← match stored.lifecycle.terminal with
        | .retired _ _ | .reclaimed _ _ => pure true
        | .consumed _ => do
            request.check recordReservation
            let source ← store.loadGenesis stored.handoff.sourceSessionId
            (request.isCopyable source.config stored.handoff).mapError corrupt
        | .issued | .cancelled _ => pure false
      if closed then outstandingHandoff rest else pure true

/-- Pin an already cold block to another manifest with the same bytes. -/
def rebindBlock : Except StoreError (OffloadOutcome × RocksSessionStore) := do
  let old ← okOr (store.coldBlock request.key) (.notFound "block to archive")
  old.validate
  ensure (old.blob = request.reference.blob ∧ old.bytes = request.reference.bytes)
    (.conflict "cold rebinding must preserve the exact block digest and length")
  request.check request.reference.bytes
  let archived ← readArchived env request.reference
  request.check recordReservation
  let genesis ← store.loadGenesis request.expected.sessionId
  let record ← (FinalisedBlockRecord.decodeForConfig env.session archived genesis.config).mapError
    corrupt
  ensure (record.block.number = request.height ∧
      record.block.sessionId = request.expected.sessionId)
    (.corrupt "cold rebind block key mismatch")
  let tables ← compactIssuedHandoffs env request.check record store request.expected request.window
  if old = request.reference ∧ tables.outcome.records = 0 then
    pure (.alreadyArchived tables.outcome, store)
  else do
    request.check 0
    pure (if old = request.reference then .alreadyArchived tables.outcome
        else .rebound old.archive tables.outcome,
      { store with
        coldBlock := update store.coldBlock request.key (some request.reference)
        handoff := tables.full
        compactHandoff := tables.compact })

/-- Move a hot block to the archive once nothing holds it. -/
def relocateBlock (tip : UInt64) (bytes : List UInt8) :
    Except StoreError (OffloadOutcome × RocksSessionStore) := do
  ensure (store.coldBlock request.key = none) (.corrupt "block has overlapping hot/cold entries")
  if request.height = tip then pure (.held .currentTip, store)
  else if request.window.hotFromHeight ≤ request.height then pure (.held .recoveryWindow, store)
  else if request.window.protects request.height then pure (.held .protectedRange, store)
  else do
    request.check recordReservation
    let genesis ← store.loadGenesis request.expected.sessionId
    let record ← (FinalisedBlockRecord.decodeForConfig env.session bytes genesis.config).mapError
      corrupt
    ensure (record.block.number = request.height ∧
        record.block.sessionId = request.expected.sessionId)
      (.corrupt "archival block key mismatch")
    let pending ← pendingDelivery request.check record store record.outbox
    if pending then pure (.held .pendingDelivery, store)
    else do
      let outstanding ← outstandingHandoff env request store (referencedHandoffs env record)
      if outstanding then pure (.held .outstandingHandoff, store)
      else do
        request.check request.reference.bytes
        let archived ← readArchived env request.reference
        ensure (archived = bytes)
          (.corrupt "archive does not contain the exact retained block encoding")
        let tables ← compactIssuedHandoffs env request.check record store request.expected
          request.window
        request.check 0
        pure (.archived bytes.length tables.outcome,
          { store with
            coldBlock := update store.coldBlock request.key (some request.reference)
            block := update store.block request.key none
            handoff := tables.full
            compactHandoff := tables.compact })

/-- Relocate one block only after reading the exact archived bytes. -/
def offloadBlock : Except StoreError (OffloadOutcome × RocksSessionStore) := do
  request.reference.validate
  ensure (request.window.protectedRanges.length ≤ 256 ∧
      request.window.protectedRanges.all fun range => range.1 ≤ range.2)
    (.corrupt "invalid or excessive retention hold ranges")
  request.check recordReservation
  let current ← okOr (store.head request.expected.sessionId) (.notFound "session head")
  let _ ← encodeHead env request.expected
  ensure (current = request.expected) (.conflict "head changed before archival relocation")
  let tip ← okOr request.expected.finalisedHeight (.notFound "session has no blocks to archive")
  ensure (request.height ≤ tip) (.notFound "requested archive height is beyond the head")
  request.check (recordReservation * 2)
  match store.block request.key with
  | none => rebindBlock env request store
  | some bytes => relocateBlock env request store tip bytes

/-! ## What an offload changes -/

variable {env request store} {next : RocksSessionStore} {outcome : OffloadOutcome}

/-- The writes of an offload. -/
def RocksSessionStore.offloaded (store : RocksSessionStore) (request : OffloadRequest)
    (tables : HandoffTables) : RocksSessionStore :=
  { store with
    coldBlock := update store.coldBlock request.key (some request.reference)
    block := update store.block request.key none
    handoff := tables.full
    compactHandoff := tables.compact }

/-- Where the block of an offload was before, under the digest it has after. -/
def RocksSessionStore.Pinned (env : StoreEnv) (store : RocksSessionStore) (request : OffloadRequest) :
    Prop :=
  (store.block request.key = none ∧ ∃ old, store.coldBlock request.key = some old ∧
      old.blob = request.reference.blob ∧ old.bytes = request.reference.bytes) ∨
    ∃ bytes, store.block request.key = some bytes ∧ store.coldBlock request.key = none ∧
      request.reference.blob = env.session.blake3 bytes ∧
        request.reference.bytes.toNat = bytes.length

lemma readArchived_ok {reference : ArchiveReference} {bytes : List UInt8}
    (h : readArchived env reference = .ok bytes) :
    reference.blob = env.session.blake3 bytes ∧ reference.bytes.toNat = bytes.length := by
  simp only [readArchived, eq_ok] at h
  obtain ⟨-, _, -, _, -, ⟨hlength, hdigest⟩, rfl⟩ := h
  exact ⟨hdigest.symm, hlength.symm⟩

/-- What a successful offload may do. -/
def Offloads (env : StoreEnv) (request : OffloadRequest) (store next : RocksSessionStore) : Prop :=
  next = store ∨ store.Pinned env request ∧ ∃ record tables,
    compactIssuedHandoffs env request.check record store request.expected request.window =
      .ok tables ∧ next = store.offloaded request tables

lemma rebindBlock_ok (hhot : store.block request.key = none)
    (h : rebindBlock env request store = .ok (outcome, next)) : Offloads env request store next := by
  simp only [rebindBlock, eq_ok] at h
  obtain ⟨old, hold, -, hsame, -, _, -, -, _, -, record, -, -, tables, htables, hrest⟩ := h
  split at hrest
  · cases hrest
    exact .inl rfl
  · simp only [eq_ok, Prod.mk.injEq] at hrest
    obtain ⟨-, -, rfl⟩ := hrest
    refine .inr ⟨.inl ⟨hhot, old, hold, hsame⟩, record, tables, htables, ?_⟩
    have hblock : update store.block request.key none = store.block := by
      rw [← hhot, update_eq_self]
    rw [RocksSessionStore.offloaded, hblock]

lemma relocateBlock_ok (hhot : store.block request.key = some bytes)
    (h : relocateBlock env request store tip bytes = .ok (outcome, next)) :
    Offloads env request store next := by
  simp only [relocateBlock, eq_ok] at h
  obtain ⟨hcold, hrest⟩ := h
  iterate 3
    split at hrest
    · cases hrest
      exact .inl rfl
  simp only [eq_ok] at hrest
  obtain ⟨-, _, -, record, -, -, pending, -, hrest⟩ := hrest
  split at hrest
  · cases hrest
    exact .inl rfl
  simp only [bind_eq_ok] at hrest
  obtain ⟨outstanding, -, hrest⟩ := hrest
  split at hrest
  · cases hrest
    exact .inl rfl
  simp only [eq_ok, Prod.mk.injEq] at hrest
  obtain ⟨-, _, harchived, rfl, tables, htables, -, -, rfl⟩ := hrest
  exact .inr ⟨.inr ⟨_, hhot, hcold, readArchived_ok harchived⟩, record, tables, htables, rfl⟩

lemma offloadBlock_ok (h : offloadBlock env request store = .ok (outcome, next)) :
    Offloads env request store next := by
  simp only [offloadBlock, eq_ok] at h
  obtain ⟨-, -, -, _, -, _, -, -, tip, -, -, -, hrest⟩ := h
  split at hrest
  case h_1 hhot => exact rebindBlock_ok hhot hrest
  case h_2 bytes hhot => exact relocateBlock_ok hhot hrest

end Myelin.Store
