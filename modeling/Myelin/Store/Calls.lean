/-
  The calls of the store, and any interleaving of them.

  Transactions are serializable, so calls of concurrent sessions take effect one after another in
  SOME order: a run is a list of submissions, each with its own archive answers and the database's
  verdict on its commit.  A call that fails at any point has written nothing.

  `World` keeps, beside the store, the log of all committed records.  The log is not stored
  anywhere; `Held` says that the store still pins the bytes of every record in it.
-/
import Myelin.Store.Archive

namespace Myelin.Store

open Lib Consensus Session Function

/-! ## The remaining writers -/

/-- Revision a compare-and-set must write next. -/
def requiredRevision (expectedRevision : Option UInt64) : Option UInt64 :=
  match expectedRevision with
  | none => some 0
  | some revision => if revision.toNat + 1 < 2 ^ 64 then some (revision + 1) else none

/-- Drop a delivered message and its index entry. -/
def acknowledgeOutbox (sessionId messageId : Hash32) (store : RocksSessionStore) :
    Except StoreError RocksSessionStore := do
  let height ← okOr (store.outboxIndex (sessionId, messageId)) (.notFound "outbox message")
  pure { store with
    outbox := update store.outbox (sessionId, height, messageId) none
    outboxIndex := update store.outboxIndex (sessionId, messageId) none }

/-- Write the next revision of the consensus WAL. -/
def compareAndSetConsensusWal (env : StoreEnv) (expectedRevision : Option UInt64) (wal : ConsensusWal)
    (store : RocksSessionStore) : Except StoreError RocksSessionStore := do
  (validateWal env wal).mapError corrupt
  let head ← store.loadHead wal.sessionId
  let genesis ← store.loadGenesis wal.sessionId
  ensure (wal.consensusModuleCommitment = genesis.config.consensusModuleCommitment ∧
      wal.consensusConfigCommitment = genesis.config.consensusConfigCommitment ∧
      wal.walSchemaHash = genesis.config.consensusWalSchemaHash)
    (.conflict "consensus WAL module/config/schema does not match session genesis")
  let expectedHeight ← head.nextHeight.mapError corrupt
  ensure (wal.height = expectedHeight)
    (.conflict ("WAL height " ++ toString wal.height ++ " does not match next height " ++
      toString expectedHeight))
  forResult (fun current => (validateWal env current).mapError corrupt)
    (store.wal wal.sessionId).toList
  ensure ((store.wal wal.sessionId).map (·.revision) = expectedRevision)
    (.conflict "consensus WAL revision changed")
  let required ← okOr (requiredRevision expectedRevision) (.conflict "WAL revision overflow")
  ensure (wal.revision = required) (.conflict ("next WAL revision must be " ++ toString required))
  let _ ← (encodeRecord env.session (env.session.postcard.consensusWal wal)).mapError corrupt
  pure { store with wal := update store.wal wal.sessionId (some wal) }

/-- Append to the evidence of an undelivered message. -/
def compareAndSetEvidence (env : StoreEnv) (expectedRevision : Option UInt64)
    (record : EvidenceRecord) (store : RocksSessionStore) : Except StoreError RocksSessionStore := do
  let key := (record.sessionId, record.messageId)
  let height ← okOr (store.outboxIndex key) (.notFound "outbox message for evidence")
  let message ← okOr (store.outbox (record.sessionId, height, record.messageId))
    (.notFound "outbox message for evidence")
  message.validate.mapError corrupt
  (record.validateFor env.session record.sessionId message record.descriptor).mapError corrupt
  forResult (fun current => (current.validateIntrinsic env.session).mapError corrupt)
    (store.evidence key).toList
  ensure ((store.evidence key).map (·.revision) = expectedRevision)
    (.conflict "evidence revision changed")
  let required ← okOr (requiredRevision expectedRevision) (.conflict "evidence revision overflow")
  ensure (record.revision = required)
    (.conflict ("next evidence revision must be " ++ toString required))
  let _ ← (encodeRecord env.session (env.session.postcard.evidenceRecord record)).mapError corrupt
  pure { store with evidence := update store.evidence key (some record) }

/-! ## Runs -/

/-- A writing call. -/
inductive StoreCall where
  | createSession (genesis : SessionGenesis) (head : SessionHead)
  | commitBlock (expected new : SessionHead) (record : FinalisedBlockRecord)
  | compareAndSetConsensusWal (expectedRevision : Option UInt64) (wal : ConsensusWal)
  | acknowledgeOutbox (sessionId messageId : Hash32)
  | compareAndSetEvidence (expectedRevision : Option UInt64) (record : EvidenceRecord)
  | offloadBlock (request : OffloadRequest)

/-- What a call would write. -/
def StoreCall.exec (env : StoreEnv) (store : RocksSessionStore) :
    StoreCall → Except StoreError RocksSessionStore
  | .createSession genesis head => Store.createSession env genesis head store
  | .commitBlock expected new record => Store.commitBlock env expected new record store
  | .compareAndSetConsensusWal expectedRevision wal =>
      Store.compareAndSetConsensusWal env expectedRevision wal store
  | .acknowledgeOutbox sessionId messageId => Store.acknowledgeOutbox sessionId messageId store
  | .compareAndSetEvidence expectedRevision record =>
      Store.compareAndSetEvidence env expectedRevision record store
  | .offloadBlock request => (Store.offloadBlock env request store).map Prod.snd

/-- What a successful call writes. -/
inductive Wrote (env : StoreEnv) (store : RocksSessionStore) :
    StoreCall → RocksSessionStore → Prop where
  | created {genesis head} :
      createSession env genesis head store = .ok (store.putSession genesis head) →
      Wrote env store (.createSession genesis head) (store.putSession genesis head)
  | committed {expected new record next} : commitBlock env expected new record store = .ok next →
      Wrote env store (.commitBlock expected new record) next
  | logged {expectedRevision wal} (logs) :
      Wrote env store (.compareAndSetConsensusWal expectedRevision wal) { store with wal := logs }
  | acknowledged {sessionId messageId} (outbox outboxIndex) :
      Wrote env store (.acknowledgeOutbox sessionId messageId) { store with outbox, outboxIndex }
  | attested {expectedRevision record evidence} :
      compareAndSetEvidence env expectedRevision record store = .ok { store with evidence } →
      Wrote env store (.compareAndSetEvidence expectedRevision record) { store with evidence }
  | offloaded {request next} : Offloads env request store next →
      Wrote env store (.offloadBlock request) next

lemma StoreCall.wrote (h : call.exec env store = .ok next) : Wrote env store call next := by
  have hexec := h
  cases call with
  | createSession genesis head =>
    simp only [exec, Store.createSession, eq_ok] at h
    obtain ⟨-, -, -, _, -, _, -, _, -, -, rfl⟩ := h
    exact .created hexec
  | commitBlock expected new record => exact .committed h
  | compareAndSetConsensusWal expectedRevision wal =>
    simp only [exec, Store.compareAndSetConsensusWal, eq_ok] at h
    obtain ⟨-, _, -, _, -, -, _, -, -, -, -, _, -, -, _, -, rfl⟩ := h
    exact .logged _
  | acknowledgeOutbox sessionId messageId =>
    simp only [exec, Store.acknowledgeOutbox, eq_ok] at h
    obtain ⟨_, -, rfl⟩ := h
    exact .acknowledged _ _
  | compareAndSetEvidence expectedRevision record =>
    simp only [exec, Store.compareAndSetEvidence, eq_ok] at h
    obtain ⟨_, -, _, -, -, -, -, -, _, -, -, _, -, rfl⟩ := h
    exact .attested hexec
  | offloadBlock request =>
    simp only [exec, map_eq_ok] at h
    obtain ⟨⟨outcome, _⟩, hoffload, rfl⟩ := h
    exact .offloaded (offloadBlock_ok hoffload)

/-- The block a call commits. -/
def StoreCall.records : StoreCall → List FinalisedBlockRecord
  | .commitBlock _ _ record => [record]
  | _ => []

/-- One call, the options it ran with, and the error of its database commit, if any. -/
structure Submission where
  call : StoreCall
  archive : Option Archive
  archivalCheckpointInterval : UInt64
  commitError : Option StoreError

/-- What the call ran with. -/
def Submission.env (submission : Submission) (env : SessionEnv) : StoreEnv :=
  ⟨env, submission.archive, submission.archivalCheckpointInterval⟩

/-- The transaction of a call on one store. -/
def Submission.result (submission : Submission) (env : SessionEnv) (store : RocksSessionStore) :
    Except StoreError RocksSessionStore :=
  match submission.call.exec (submission.env env) store, submission.commitError with
  | .error e, _ => .error e
  | .ok _, some e => .error e
  | .ok next, none => .ok next

/-- A store and everything committed to it so far, oldest first. -/
structure World where
  store : RocksSessionStore
  committed : List FinalisedBlockRecord

/-- A new database. -/
def World.empty : World := ⟨.empty, []⟩

/-- One call takes effect, or nothing does. -/
def World.submit (env : SessionEnv) (world : World) (submission : Submission) : World :=
  match submission.result env world.store with
  | .ok next => ⟨next, world.committed ++ submission.call.records⟩
  | .error _ => world

/-- A run from the empty database. -/
def World.run (env : SessionEnv) (submissions : List Submission) : World :=
  submissions.foldl (World.submit env) .empty

section Run

variable {env : SessionEnv}

lemma World.submit_of_succeeds {world : World} {submission : Submission}
    (h : succeeds (submission.result env world.store)) :
    submission.result env world.store = .ok (world.submit env submission).store := by
  obtain ⟨next, hnext⟩ := succeeds_iff.mp h
  simp [World.submit, hnext]

lemma Submission.exec_of_result {submission : Submission}
    (h : submission.result env store = .ok next) :
    submission.call.exec (submission.env env) store = .ok next := by
  unfold Submission.result at h
  split at h
  · cases h
  · cases h
  · next hexec _ => exact hexec.trans h

/-- What every successful call preserves holds after any run. -/
lemma World.run_invariant {I : World → Prop} (hempty : I .empty)
    (hstep : ∀ (world : World) (submission : Submission) (next : RocksSessionStore), I world →
      submission.call.exec (submission.env env) world.store = .ok next →
        I ⟨next, world.committed ++ submission.call.records⟩)
    (submissions : List Submission) : I (World.run env submissions) := by
  refine List.foldlRecOn submissions _ hempty fun world hworld submission _ => ?_
  unfold World.submit
  split
  · next next hresult => exact hstep world submission next hworld (Submission.exec_of_result hresult)
  · exact hworld

end Run

end Myelin.Store
