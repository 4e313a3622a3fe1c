/-
  Sessions of the transfer application over one store.

  `TransferRun` is any interleaving of store calls in which every session is started and every block
  produced by a `TransferExecutor` with a scarce policy.  `create_chain` and `TransferState::new` start
  a session with no lock but its OWN; `TransferExecutor::new` by itself does not ask for that.  What a
  session holds is read back from the store: `transferState` decodes the checkpoint of an unsealed
  session.  `supply` is what the sessions hold together.
-/
import Mathlib.Data.FinEnum
import Mathlib.Data.Fintype.Vector
import Myelin.Store.Sessions
import Myelin.Transfer.Executor

namespace Myelin.Transfer

open Lib Consensus Session Store

variable (env : TransferEnv) (store : RocksSessionStore)

/-- What an unsealed head and its checkpoint stand for. -/
def stateAt : Option SessionHead → Option StateCheckpoint → Option TransferState
  | some head, some checkpoint =>
      if head.sealedBySuccessor = none then
        (TransferState.decode env checkpoint.stateSnapshot).toOption
      else none
  | _, _ => none

/-- State of an unsealed session. -/
def transferState (sessionId : Hash32) : Option TransferState :=
  stateAt env (store.head sessionId) (store.checkpoint sessionId)

/-! ## Runs -/

/-- A session starts from the snapshot of an executor made for it.  `TransferExecutor::new` takes any
    valid state; `admits` says which ones callers give it. -/
inductive Starts (env : TransferEnv) (admits : SessionConfig → TransferState → Prop)
    (genesis : SessionGenesis) : Prop where
  | new {state : TransferState} {sources : SourceBindings} {executor : TransferExecutor} :
      state.policy.kind = .scarce → admits genesis.config state →
      TransferExecutor.new env genesis.config state sources = .ok executor →
      executor.snapshot env = .ok genesis.stateSnapshot → Starts env admits genesis

/-- A block is produced by executing its frame at the checkpoint of its session.  The reference
    application keeps the default `prepare_successor_state`, which continues the state unchanged. -/
inductive Executes (env : TransferEnv) (store : RocksSessionStore) (sessionId : Hash32)
    (record : FinalisedBlockRecord) : TransferExecutor → TransferExecutor → Prop where
  | block {genesis : SessionGenesis} {checkpoint : StateCheckpoint} {sources : SourceBindings}
      {executor after : TransferExecutor} {context : ProtocolEffectsContext}
      {consumed : List SessionHandoff} {outcome : ExecutionOutcome} :
      store.loadGenesis sessionId = .ok genesis →
      store.checkpoint sessionId = some checkpoint →
      TransferExecutor.restore env genesis.config checkpoint.stateSnapshot sources = .ok executor →
      record.effectsContext env.session genesis.config = .ok context →
      List.Forall₂ (fun id handoff => ∃ stored, store.handoff id = some stored ∧
        stored.handoff = handoff) record.consumedHandoffIds consumed →
      executor.executeTransferActions env context record.handoffActions record.frameInput consumed
        record.transactions = .ok (after, outcome) →
      after.snapshot env = .ok record.stateSnapshot →
      (∀ declaration ∈ record.successor, declaration.transition.state = .continue) →
      Executes env store sessionId record executor after

variable (admits : SessionConfig → TransferState → Prop)

/-- A call that the application may make. -/
def Permitted (submission : Submission) : Prop :=
  match submission.call with
  | .createSession genesis _ => Starts env admits genesis
  | .commitBlock expected _ record =>
      ∃ executor after, Executes env store expected.sessionId record executor after
  | _ => True

/-- Any interleaving of such calls; a call that fails may be anything. -/
inductive TransferRun (env : TransferEnv) (admits : SessionConfig → TransferState → Prop) :
    World → Prop where
  | empty : TransferRun env admits .empty
  | submit {world : World} (submission : Submission) : TransferRun env admits world →
      (∀ next, submission.result env.session world.store = .ok next →
        Permitted env world.store admits submission) →
      TransferRun env admits (world.submit env.session submission)

/-! ## Supply -/

/-- The lock was entered for this handoff. -/
def PendingLock.Backs (lock : PendingLock) (handoff : SessionHandoff) : Prop :=
  ∃ payload, verifyHandoff env handoff = .ok (lock.transferId, payload) ∧
    payload.source.sessionId = handoff.sourceSessionId ∧ lock.MatchesPayload env.session payload

/-- The handoff of a lock is consumed.  A compact entry is never one that still has a lock. -/
def PendingLock.Consumed (lock : PendingLock) : Prop :=
  ∃ id stored, store.handoff id = some stored ∧ lock.Backs env stored.handoff ∧
    stored.consumption ≠ none

open Classical in
/-- What one session holds of an asset: everything available, and every lock that still backs an
    unconsumed handoff. -/
noncomputable def holding (asset : AssetId) (state : TransferState) : Nat :=
  balance asset state.accounts +
    ((state.pending.filter (¬ PendingLock.Consumed env store ·)).map (·.held asset)).sum

instance : Fintype Hash32 := inferInstanceAs (Fintype (List.Vector UInt8 32))

/-- What all unsealed sessions hold of an asset. -/
noncomputable def supply (asset : AssetId) : Nat :=
  ∑ sessionId, ((transferState env store sessionId).map (holding env store asset)).getD 0

end Myelin.Transfer
