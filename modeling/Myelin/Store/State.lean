/-
  The session store: its key families, and reading them.

  The database is a key-value store; every key family is one partial map here, holding the decoded
  value.  Block records stay encoded, since cold storage compares their bytes and digests.  What a
  decoder checks beside the format (`SessionGenesis::decode`, `StoredHandoff::decode`, …) is still
  checked on every read.

  A terminal handoff may be stored COMPACT: only its lifecycle stays, and the handoff is read back
  from the block that issued it.
-/
import Myelin.Session.Evidence
import Myelin.Session.Lineage

namespace Myelin.Store

open Lib Consensus Session

/-- Where an archived record is kept, and its digest and length. -/
structure ArchiveReference where
  archive : Hash32
  blob : Hash32
  bytes : UInt64
  deriving DecidableEq

/-- Key families of the store. -/
structure RocksSessionStore where
  genesis : Hash32 → Option SessionGenesis
  head : Hash32 → Option SessionHead
  checkpoint : Hash32 → Option StateCheckpoint
  /-- Hot block records, encoded. -/
  block : Hash32 × UInt64 → Option (List UInt8)
  /-- Archive pins of relocated block records. -/
  coldBlock : Hash32 × UInt64 → Option ArchiveReference
  archivalCheckpoint : Hash32 × UInt64 → Option Hash32
  command : Hash32 × Hash32 → Option CommandReceipt
  handoff : Hash32 → Option StoredHandoff
  compactHandoff : Hash32 → Option HandoffLifecycle
  outbox : Hash32 × UInt64 × Hash32 → Option OutboxMessage
  /-- Height of an undelivered message. -/
  outboxIndex : Hash32 × Hash32 → Option UInt64
  evidence : Hash32 × Hash32 → Option EvidenceRecord
  wal : Hash32 → Option ConsensusWal

/-- A new database. -/
def RocksSessionStore.empty : RocksSessionStore where
  genesis _ := none
  head _ := none
  checkpoint _ := none
  block _ := none
  coldBlock _ := none
  archivalCheckpoint _ := none
  command _ := none
  handoff _ := none
  compactHandoff _ := none
  outbox _ := none
  outboxIndex _ := none
  evidence _ := none
  wal _ := none

/-- `ArchiveRecordSource::read_record`: archive, blob, expected length. -/
abbrev Archive := Hash32 → Hash32 → UInt64 → Except StoreError (List UInt8)

/-- What a store call runs with: the libraries, the configured archive and the snapshot interval. -/
structure StoreEnv where
  session : SessionEnv
  archive : Option Archive
  archivalCheckpointInterval : UInt64

/-- Any failure of the session layer while reading or checking a record. -/
def corrupt (error : SessionError) : StoreError := .corrupt error.display

/-! ## Archived records -/

/-- A usable archive reference. -/
def ArchiveReference.validate (reference : ArchiveReference) : Except StoreError Unit :=
  ensure (reference.archive ≠ zeroHash ∧ reference.blob ≠ zeroHash ∧ reference.bytes ≠ 0 ∧
      reference.bytes.toNat ≤ maxRecordBytes)
    (.corrupt "invalid cold block reference")

variable (env : StoreEnv)

/-- Read an archived record, checking length and digest. -/
def readArchived (reference : ArchiveReference) : Except StoreError (List UInt8) := do
  reference.validate
  let source ← okOr env.archive (.notFound "cold block requires its configured archive source")
  let bytes ← source reference.archive reference.blob reference.bytes
  ensure (bytes.length = reference.bytes.toNat ∧ env.session.blake3 bytes = reference.blob)
    (.corrupt "archived block length/digest mismatch")
  pure bytes

/-- Bytes of a block, wherever they are kept. -/
def resolveBlockBytes (hot : Option (List UInt8)) (cold : Option ArchiveReference)
    (height : UInt64) : Except StoreError (List UInt8) :=
  match hot, cold with
  | some bytes, none => .ok bytes
  | none, some reference => readArchived env reference
  | none, none => .error (.notFound ("session block " ++ toString height))
  | some _, some _ => .error (.corrupt "block has both hot and cold authoritative entries")

namespace RocksSessionStore

variable (store : RocksSessionStore)

/-- Bytes of a committed block. -/
def blockBytes (sessionId : Hash32) (height : UInt64) : Except StoreError (List UInt8) :=
  resolveBlockBytes env (store.block (sessionId, height)) (store.coldBlock (sessionId, height)) height

/-- Genesis of a session. -/
def loadGenesis (sessionId : Hash32) : Except StoreError SessionGenesis := do
  let genesis ← okOr (store.genesis sessionId) (.notFound "session genesis")
  genesis.validate.mapError corrupt
  ensure (genesis.config.sessionId = sessionId) (.corrupt "genesis key/session id mismatch")
  pure genesis

/-- Current head of a session. -/
def loadHead (sessionId : Hash32) : Except StoreError SessionHead := do
  let head ← okOr (store.head sessionId) (.notFound "session head")
  ensure (head.sessionId = sessionId) (.corrupt "head key/session id mismatch")
  pure head

/-- A committed block, decoded and checked under its session's configuration. -/
def readBlock (config : SessionConfig) (sessionId : Hash32) (height : UInt64) :
    Except StoreError FinalisedBlockRecord := do
  let bytes ← store.blockBytes env sessionId height
  (FinalisedBlockRecord.decodeForConfig env.session bytes config).mapError corrupt

/-- One exact finalised block. -/
def loadBlock (sessionId : Hash32) (height : UInt64) : Except StoreError FinalisedBlockRecord := do
  let genesis ← store.loadGenesis sessionId
  let record ← store.readBlock env genesis.config sessionId height
  ensure (record.block.sessionId = sessionId ∧ record.block.number = height ∧
      record.block.consensusKind = genesis.config.consensusKind ∧
      record.block.applicationProfileCommitment =
        genesis.config.applicationProfile.commitment env.session ∧
      record.consensusModuleCommitment = genesis.config.consensusModuleCommitment)
    (.corrupt ("block key/module/profile mismatch at height " ++ toString height))
  pure record

/-- The reads the session layer makes of this store. -/
def view : SessionStore where
  loadGenesis := store.loadGenesis
  loadHead := store.loadHead
  loadBlock := store.loadBlock env

end RocksSessionStore

/-! ## Compact handoffs -/

/-- Largest compact entry. -/
def maxCompactBytes : Nat := 256

/-- Outcomes after which nothing more can happen to a handoff. -/
def isTerminal (lifecycle : HandoffLifecycle) : Bool :=
  match lifecycle.terminal with
  | .retired _ _ | .reclaimed _ _ => true
  | _ => false

variable (id : Hash32)

/-- Compact bytes of a terminal lifecycle. -/
def encodeCompact (lifecycle : HandoffLifecycle) : Except StoreError (List UInt8) := do
  ensure (isTerminal lifecycle) (.corrupt "only retired/reclaimed handoffs may be compacted")
  let bytes := utf8 "MHCP" ++ [1] ++ env.session.postcard.handoffLifecycle lifecycle
  ensure (bytes.length ≤ maxCompactBytes) (.corrupt "compact handoff exceeds fixed metadata bound")
  pure bytes

/-- The one handoff with the given id among those a block issued. -/
def issuedHandoff (source : FinalisedBlockRecord) : Except StoreError SessionHandoff :=
  match source.issuedHandoffs.filter (fun handoff => handoff.id env.session = id) with
  | [] => .error (.corrupt "compact handoff is absent from issuing block")
  | [handoff] => .ok handoff
  | _ :: _ :: _ => .error (.corrupt "duplicate compact handoff issuance")

/-- Rebuild a handoff from its lifecycle and the block that issued it. -/
def expand (lifecycle : HandoffLifecycle) (source : FinalisedBlockRecord) :
    Except StoreError StoredHandoff := do
  ensure (lifecycle.issuedAt = HandoffBlockReference.fromBlock env.session source.block)
    (.corrupt "compact handoff issuer block mismatch")
  let handoff ← issuedHandoff env id source
  (StoredHandoff.validateLifecycle ⟨handoff, lifecycle⟩).mapError corrupt
  (handoff.validate source.block.timestampMs).mapError corrupt
  pure ⟨handoff, lifecycle⟩

/-- The key a handoff is stored under is its id. -/
def checkIdentity (stored : StoredHandoff) : Except StoreError (Option StoredHandoff) := do
  ensure (stored.handoff.id env.session = id) (.corrupt "handoff key/record identity mismatch")
  pure (some stored)

/-- `resolve`: one handoff from its full or compact entry. -/
def resolveHandoff (full : Option StoredHandoff) (compact : Option HandoffLifecycle)
    (source : HandoffBlockReference → Except StoreError FinalisedBlockRecord) :
    Except StoreError (Option StoredHandoff) :=
  match full, compact with
  | some stored, none => do
      stored.validateLifecycle.mapError corrupt
      checkIdentity env id stored
  | none, some lifecycle => do
      let _ ← encodeCompact env lifecycle
      let record ← source lifecycle.issuedAt
      let stored ← expand env id lifecycle record
      checkIdentity env id stored
  | none, none => pure none
  | some _, some _ => .error (.corrupt "handoff has overlapping full/compact records")

/-- Bytes reserved before each record read. -/
def recordReservation : UInt64 := UInt64.ofNat maxRecordBytes

/-- A handoff inside a transaction: its entries as the transaction sees them (`work`), its issuing
    block as of the transaction's snapshot (`base`).  `check` is the caller's budget callback. -/
def transactionHandoff (base work : RocksSessionStore) (id : Hash32)
    (check : UInt64 → Except StoreError Unit) : Except StoreError (Option StoredHandoff) := do
  check (recordReservation + UInt64.ofNat maxCompactBytes)
  resolveHandoff env id (work.handoff id) (work.compactHandoff id) fun issuedAt => do
    check recordReservation
    let genesis ← work.loadGenesis issuedAt.sessionId
    check recordReservation
    base.readBlock env genesis.config issuedAt.sessionId issuedAt.height

lemma loadGenesis_sessionId {store : RocksSessionStore} {sessionId : Hash32}
    {genesis : SessionGenesis} (h : store.loadGenesis sessionId = .ok genesis) :
    genesis.config.sessionId = sessionId := by
  simp only [RocksSessionStore.loadGenesis, eq_ok] at h
  obtain ⟨_, -, -, hid, rfl⟩ := h
  exact hid

/-- A handoff read inside a transaction is its full entry, or the expansion of a terminal one. -/
lemma transactionHandoff_eq_some {env : StoreEnv} {base work : RocksSessionStore} {id : Hash32}
    {stored : StoredHandoff} (h : transactionHandoff env base work id check = .ok (some stored)) :
    stored.handoff.id env.session = id ∧
      ((work.handoff id = some stored ∧ work.compactHandoff id = none) ∨
        (work.handoff id = none ∧ work.compactHandoff id = some stored.lifecycle ∧
          isTerminal stored.lifecycle)) := by
  rw [transactionHandoff, bind_eq_ok] at h
  obtain ⟨-, -, h⟩ := h
  unfold resolveHandoff at h
  split at h
  case h_1 full hfull hcompact =>
    simp only [checkIdentity, eq_ok, Option.some_inj] at h
    obtain ⟨-, hid, rfl⟩ := h
    exact ⟨hid, .inl ⟨hfull, hcompact⟩⟩
  case h_2 lifecycle hfull hcompact =>
    simp only [encodeCompact, expand, checkIdentity, eq_ok, Option.some_inj] at h
    obtain ⟨_, ⟨hterminal, -, -⟩, _, -, _, ⟨-, _, -, -, -, rfl⟩, hid, rfl⟩ := h
    exact ⟨hid, .inr ⟨hfull, hcompact, hterminal⟩⟩
  case h_3 => simp at h
  case h_4 => cases h

end Myelin.Store
