/-
  What a call of the store does to sessions.

  A session is used once it has a head, and SEALED once that head names a successor.  No call
  undoes either (`StoreCall.exec_head`); a block moves its own session forward and, when it
  declares a successor, starts that one from the same snapshot (`commitBlock_sessions`).
-/
import Myelin.Store.Outcome

namespace Myelin.Store

open Lib Consensus Session Function

/-- The session has a successor. -/
def RocksSessionStore.Sealed (store : RocksSessionStore) (sessionId : Hash32) : Prop :=
  ∃ head, store.head sessionId = some head ∧ head.sealedBySuccessor ≠ none

section Calls

variable {env : StoreEnv} {store next : RocksSessionStore}

lemma createSession_ok (h : createSession env genesis head store = .ok next) :
    genesis.config.predecessor = none ∧ store.Unused genesis.config.sessionId ∧
      head.sealedBySuccessor = none ∧ next = store.putSession genesis head := by
  simp only [createSession, validateGenesis, eq_ok] at h
  obtain ⟨hroot, -, ⟨-, ⟨-, -, -, -, -, -, -, hunsealed⟩, -⟩, _, -, _, -, _, -, hunused, rfl⟩ := h
  exact ⟨hroot, hunused, hunsealed, rfl⟩

variable {sessionId : Hash32}

/-- A block advances its session, and starts the successor it declares. -/
inductive Progress (env : StoreEnv) (store : RocksSessionStore) (record : FinalisedBlockRecord)
    (sessionId : Hash32) (new : SessionHead) (next : RocksSessionStore) : Prop where
  | advance : record.successor = none → new.sealedBySuccessor = none →
      next.head = update store.head sessionId (some new) →
      next.checkpoint = update store.checkpoint sessionId (some (blockCheckpoint record)) →
      Progress env store record sessionId new next
  | succeed {successor : SuccessorDeclaration} {snapshot : List UInt8} :
      record.successor = some successor →
      successor.targetSnapshot env.session record.stateSnapshot = .ok snapshot →
      store.Unused successor.targetConfig.sessionId →
      new.sealedBySuccessor = some successor.targetConfig.sessionId →
      next.head = update (update store.head successor.targetConfig.sessionId
        (some (successorHead successor.targetConfig))) sessionId (some new) →
      next.checkpoint = update (update store.checkpoint successor.targetConfig.sessionId
        (some (genesisCheckpoint ⟨successor.targetConfig, snapshot⟩))) sessionId
        (some (blockCheckpoint record)) →
      Progress env store record sessionId new next

lemma commitBlock_sessions (h : commitBlock env expected new record store = .ok next) :
    store.head expected.sessionId = some expected ∧ expected.sealedBySuccessor = none ∧
      record.block.sessionId = expected.sessionId ∧
        Progress env store record expected.sessionId new next := by
  obtain ⟨genesis, _, _, work, _, _, _, _, -, ⟨-, hcommit, -⟩, hhead, -, hwork, -, -, rfl⟩ :=
    commitBlock_ok h
  obtain ⟨-, hsession, hunsealed, hsealed, -⟩ := validateCommit_ok hcommit
  refine ⟨hhead, hunsealed, hsession, ?_⟩
  rcases putSuccessor_ok hwork with ⟨hnone, rfl⟩ | ⟨successor, snapshot, hsome, hsnapshot, hunused, rfl⟩
  · refine .advance hnone (by rw [hsealed, hnone]; rfl) ?_ ?_ <;> rw [← hsession] <;> rfl
  · refine .succeed hsome hsnapshot hunused (by rw [hsealed, hsome]; rfl) ?_ ?_ <;>
      rw [← hsession] <;> rfl

variable {call : StoreCall}

section

variable (h : call.exec env store = .ok next)
include h

/-- Every call creates a session, commits a block, or leaves all sessions alone. -/
lemma StoreCall.exec_sessions :
    (∃ genesis head, call = .createSession genesis head ∧
        Store.createSession env genesis head store = .ok next) ∨
      (∃ expected new record, call = .commitBlock expected new record ∧
        Store.commitBlock env expected new record store = .ok next) ∨
      call.records = [] ∧ next.head = store.head ∧ next.checkpoint = store.checkpoint := by
  cases wrote h with
  | created hcreate => exact .inl ⟨_, _, rfl, hcreate⟩
  | committed hcommit => exact .inr (.inl ⟨_, _, _, rfl, hcommit⟩)
  | logged | acknowledged | attested => exact .inr (.inr ⟨rfl, rfl, rfl⟩)
  | offloaded hoffload =>
    rcases hoffload with rfl | ⟨-, _, _, -, rfl⟩ <;> exact .inr (.inr ⟨rfl, rfl, rfl⟩)

/-- A head appears unsealed, and changes only while it is unsealed. -/
lemma StoreCall.exec_head (sessionId : Hash32) :
    next.head sessionId = store.head sessionId ∨
      (store.head sessionId = none ∧ ∃ head, next.head sessionId = some head) ∨
      ∃ old new, store.head sessionId = some old ∧ old.sealedBySuccessor = none ∧
        next.head sessionId = some new := by
  rcases exec_sessions h with ⟨genesis, head, rfl, hcreate⟩ | ⟨expected, new, record, rfl, hcommit⟩ |
    ⟨-, hhead, -⟩
  · obtain ⟨-, ⟨-, hunused, -⟩, -, rfl⟩ := createSession_ok hcreate
    by_cases hid : sessionId = genesis.config.sessionId
    · subst hid
      exact .inr (.inl ⟨hunused, head, by simp [RocksSessionStore.putSession]⟩)
    · exact .inl (by simp [RocksSessionStore.putSession, hid])
  · obtain ⟨hhead, hunsealed, -, hprogress⟩ := commitBlock_sessions hcommit
    by_cases hid : sessionId = expected.sessionId
    · subst hid
      refine .inr (.inr ⟨expected, new, hhead, hunsealed, ?_⟩)
      cases hprogress with
      | advance _ _ hnext _ | succeed _ _ _ _ hnext _ => rw [hnext, update_self]
    · cases hprogress with
      | advance _ _ hnext _ => exact .inl (by rw [hnext, update_of_ne hid])
      | @succeed successor _ _ _ hunused _ hnext _ =>
        rw [hnext, update_of_ne hid]
        by_cases htarget : sessionId = successor.targetConfig.sessionId
        · subst htarget
          exact .inr (.inl ⟨hunused.2.1, _, update_self ..⟩)
        · exact .inl (update_of_ne htarget _ _)
  · exact .inl (by rw [hhead])

/-- A used session stays used. -/
lemma StoreCall.exec_used (hused : store.head sessionId ≠ none) : next.head sessionId ≠ none := by
  rcases exec_head h sessionId with hsame | ⟨hnone, -⟩ | ⟨_, _, -, -, hsome⟩
  · rwa [hsame]
  · exact absurd hnone hused
  · rw [hsome]
    exact nofun

/-- A sealed session stays sealed. -/
lemma StoreCall.exec_sealed (hsealed : store.Sealed sessionId) : next.Sealed sessionId := by
  obtain ⟨head, hhead, hsuccessor⟩ := hsealed
  rcases exec_head h sessionId with hsame | ⟨hnone, -⟩ | ⟨old, _, hold, hunsealed, -⟩
  · exact ⟨head, hsame.trans hhead, hsuccessor⟩
  · exact absurd (hhead.symm.trans hnone) nofun
  · obtain rfl := Option.some_inj.mp (hhead.symm.trans hold)
    exact absurd hunsealed hsuccessor

end

end Calls

end Myelin.Store
