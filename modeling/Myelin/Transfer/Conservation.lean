/-
  Scarce assets are conserved.

  The invariant of a run is `Sustained`: the store represents a ledger for which the sessions are
  `Sound`.  A block is the run of escrow moves of `Transfer/Block`, followed by a renaming when it
  continues the session (`commit_sound`); starting a session is the only call that brings value in.
  What is computed from the store, `supply`, is the value of the escrow (`supply_eq_worth`).
-/
import Myelin.Transfer.Block

namespace Myelin.Transfer

open Lib Consensus Session Store Function
open FixedBytes (fill)

variable {states : Hash32 → Option TransferState} {head new : SessionHead} {state : TransferState}
  {store : RocksSessionStore} {env : TransferEnv} {genesis : SessionGenesis}
  {submission : Submission} {ledger : HandoffTable}

/-- Every unsealed session is counted. -/
def Counted (heads : Hash32 → Option SessionHead) (states : Hash32 → Option TransferState) : Prop :=
  ∀ sessionId head, heads sessionId = some head → head.sealedBySuccessor = none →
    ∃ state, states sessionId = some state

/-- What holds of the store along every run. -/
def Sustained (env : TransferEnv) (store : RocksSessionStore) : Prop :=
  Counted store.head (transferState env store) ∧
    ∃ ledger, Represents store.handoff store.compactHandoff ledger ∧
      Sound env store.head (transferState env store) ledger

/-- A session is put under a name. -/
lemma Counted.update {heads : Hash32 → Option SessionHead} (h : Counted heads states)
    {sessionId : Hash32} {state : Option TransferState}
    (hstate : head.sealedBySuccessor = none → ∃ found, state = some found) :
    Counted (update heads sessionId (some head)) (update states sessionId state) := by
  intro other found hfound hunsealed
  rcases update_eq_some.mp hfound with ⟨rfl, rfl⟩ | ⟨hother, hold⟩
  · rw [update_self]
    exact hstate hunsealed
  · rw [update_of_ne hother]
    exact h other found hold hunsealed

/-! ## What calls do to the states -/

section States

variable {next : RocksSessionStore} {sessionId : Hash32} {checkpoint : StateCheckpoint}

lemma stateAt_unsealed (hunsealed : head.sealedBySuccessor = none)
    (hdecode : TransferState.decode env checkpoint.stateSnapshot = .ok state) :
    stateAt env (some head) (some checkpoint) = some state := by
  simp [stateAt, hunsealed, hdecode, Except.toOption]

/-- The states after a write of one head with its checkpoint. -/
lemma stateAt_update {heads : Hash32 → Option SessionHead} {checkpoints : Hash32 → Option StateCheckpoint}
    {head : Option SessionHead} {checkpoint : Option StateCheckpoint} :
    (fun other => stateAt env (update heads sessionId head other)
        (update checkpoints sessionId checkpoint other)) =
      update (fun other => stateAt env (heads other) (checkpoints other)) sessionId
        (stateAt env head checkpoint) :=
  funext fun _ => apply_update₂ (fun _ => stateAt env) ..

lemma transferState_putSession (hunsealed : head.sealedBySuccessor = none)
    (hdecode : TransferState.decode env genesis.stateSnapshot = .ok state) :
    transferState env (store.putSession genesis head) =
      update (transferState env store) genesis.config.sessionId (some state) := by
  have hstate : stateAt env (some head) (some (genesisCheckpoint genesis)) = some state :=
    stateAt_unsealed hunsealed hdecode
  rw [← hstate]
  exact stateAt_update

/-- A block that declares no successor. -/
lemma transferState_advance (hhead : next.head = update store.head sessionId (some new))
    (hcheckpoint : next.checkpoint = update store.checkpoint sessionId (some checkpoint))
    (hunsealed : new.sealedBySuccessor = none)
    (hdecode : TransferState.decode env checkpoint.stateSnapshot = .ok state) :
    transferState env next = update (transferState env store) sessionId (some state) := by
  unfold transferState
  rw [hhead, hcheckpoint, stateAt_update, stateAt_unsealed hunsealed hdecode]

/-- A block that continues its session as another. -/
lemma transferState_succeed {first : SessionHead} {genesis : StateCheckpoint}
    (hhead : next.head = update (update store.head target (some first)) sessionId
      (some new)) (hcheckpoint : next.checkpoint = update
      (update store.checkpoint target (some genesis)) sessionId (some checkpoint))
    (hsealed : new.sealedBySuccessor ≠ none) (hunsealed : first.sealedBySuccessor = none)
    (hdecode : TransferState.decode env genesis.stateSnapshot = .ok state) :
    transferState env next =
      update (update (transferState env store) target (some state)) sessionId none := by
  have hnone : stateAt env (some new) (some checkpoint) = none := if_neg hsealed
  unfold transferState
  rw [hhead, hcheckpoint, stateAt_update, stateAt_update, stateAt_unsealed hunsealed hdecode, hnone]

end States

/-! ## One call -/

section Calls

variable {next : RocksSessionStore} {storeEnv : StoreEnv}

/-- A new session holds what its genesis says. -/
lemma Starts.genesis_state (h : Starts env admits genesis) :
    ∃ state, TransferState.decode env genesis.stateSnapshot = .ok state ∧ state.Valid ∧
      state.policy.kind = .scarce ∧ admits genesis.config state := by
  cases h with
  | @new state sources executor hkind hadmits hexecutor hsnapshot =>
    have hdecode : TransferState.decode env genesis.stateSnapshot = .ok state :=
      TransferState.decode_encode (TransferExecutor.new_ok hexecutor ▸ hsnapshot)
    exact ⟨state, hdecode, TransferState.valid_of_decode hdecode, hkind, hadmits⟩

section

variable (hcounted : Counted store.head (transferState env store))
  (hrepresents : Represents store.handoff store.compactHandoff ledger)
  (h : Sound env store.head (transferState env store) ledger)
include hcounted hrepresents h

lemma create_sound (hstarts : Starts env OwnLocks genesis)
    (hcreate : createSession storeEnv genesis head store = .ok next) : Sustained env next := by
  obtain ⟨-, ⟨-, hunused, -⟩, hunsealed, rfl⟩ := createSession_ok hcreate
  obtain ⟨state, hdecode, hvalid, hkind, hown⟩ := hstarts.genesis_state
  unfold Sustained
  rw [transferState_putSession hunsealed hdecode]
  exact ⟨hcounted.update fun _ => ⟨state, rfl⟩, ledger, hrepresents,
    start_sound h hunused hunsealed hvalid hkind hown⟩

/-- A block keeps the invariant and what all sessions hold together. -/
lemma commit_sound {expected : SessionHead} {record : FinalisedBlockRecord}
    {executor after : TransferExecutor}
    (hexecutes : Executes env store expected.sessionId record executor after)
    (hcommit : commitBlock (submission.env env.session) expected new record store = .ok next) :
    Counted next.head (transferState env next) ∧
      (∃ ledger', Represents next.handoff next.compactHandoff ledger' ∧
        Sound env next.head (transferState env next) ledger' ∧
        ∀ asset, worth env asset (transferState env next) ledger' =
          worth env asset (transferState env store) ledger) ∧
      transferState env store expected.sessionId = some executor.state ∧
      Evolves executor.state.accounts after.state.accounts := by
  obtain ⟨ledger', hrepresents', hmoves, hrest⟩ := commitBlock_moves hrepresents hcommit
  obtain ⟨hhead, hunsealed, -, hprogress⟩ := commitBlock_sessions hcommit
  obtain ⟨_, _, _, _, _, _, _, _, -, ⟨-, hvalid, -⟩, -⟩ := commitBlock_ok hcommit
  obtain ⟨-, -, -, -, hissued, -⟩ := validateCommit_ok hvalid
  cases hexecutes with
  | @block genesis checkpoint sources _ _ context consumed outcome hgenesis hcheckpoint hrestore
      hcontext hconsumed hexecute hsnapshot hcontinue =>
    obtain ⟨hdecode, hbinding⟩ := TransferExecutor.restore_ok hrestore
    rw [loadGenesis_sessionId hgenesis] at hbinding
    obtain ⟨commands, successor, cursor, hrun, hempty, hstate⟩ :=
      TransferExecutor.executeTransferActions_ok hexecute
    have hbefore : transferState env store expected.sessionId = some executor.state := by
      rw [transferState, hhead, hcheckpoint, stateAt_unsealed hunsealed hdecode]
    have hafter := TransferState.decode_encode hsnapshot
    have hscheduled : Scheduled ledger expected.sessionId
        ⟨record.issuedHandoffs, record.consumedHandoffIds, record.handoffActions⟩
        ⟨executor.state, context.issuedHandoffs, consumed, record.handoffActions, ⟨[], [], [], 0⟩⟩ := by
      refine ⟨?_, hconsumed.imp ?_, rfl, fun handoff hmem => (hissued handoff hmem).1⟩
      · obtain ⟨⟨_, rfl⟩, -⟩ := ProtocolEffectsContext.new_ok hcontext
        rfl
      · rintro id handoff ⟨stored, hstored, rfl⟩
        exact ⟨stored, hrepresents.entry hstored, rfl⟩
    have hdue : Due env.session ledger ledger'
        ((⟨record.issuedHandoffs, record.consumedHandoffIds, record.handoffActions⟩ :
          Agenda).labels env.session (reference env.session record)) :=
      ⟨handoffLabels_nodup hcommit, hmoves⟩
    obtain ⟨hsound, hworth, hevolves⟩ :=
      block_sound h hbefore hbinding hdue hrest hscheduled hrun hempty
    rw [← hstate] at hsound hworth hevolves
    have hexec : (StoreCall.commitBlock expected new record).exec (submission.env env.session) store =
        .ok next := hcommit
    cases hprogress with
    | advance _ hnewUnsealed hnextHead hnextCheckpoint =>
      rw [transferState_advance hnextHead hnextCheckpoint hnewUnsealed hafter]
      refine ⟨?_, ⟨ledger', hrepresents', hsound.rehead (StoreCall.exec_used hexec)
        (StoreCall.exec_sealed hexec) ?_, hworth⟩, hbefore, hevolves⟩
      · rw [hnextHead]
        exact hcounted.update fun _ => ⟨after.state, rfl⟩
      intro id found hfound
      rw [hnextHead]
      by_cases hid : id = expected.sessionId
      · subst hid
        exact ⟨new, update_self .., hnewUnsealed⟩
      · rw [update_of_ne hid] at hfound ⊢
        exact (h.valid hfound).2.2
    | @succeed declaration snapshot hsuccessor htarget hunused hnewSealed hnextHead hnextCheckpoint =>
      have hne : declaration.targetConfig.sessionId ≠ expected.sessionId := by
        intro heq
        exact absurd ((heq ▸ hunused.2.1).symm.trans hhead) nofun
      have hsealed : new.sealedBySuccessor ≠ none := by
        rw [hnewSealed]
        exact nofun
      -- the successor starts from the snapshot the block leaves
      have hsame : snapshot = record.stateSnapshot := by
        simp only [SuccessorDeclaration.targetSnapshot, eq_ok] at htarget
        rw [← htarget.2, SuccessorTransition.targetSnapshot, hcontinue declaration hsuccessor]
      have hstates : transferState env next = update
          (update (update (transferState env store) expected.sessionId
            (some after.state)) declaration.targetConfig.sessionId (some after.state))
          expected.sessionId none := by
        rw [transferState_succeed hnextHead hnextCheckpoint hsealed rfl
          (hsame ▸ hafter), update_comm hne, update_comm hne, update_idem]
      obtain ⟨hmove, hcontinued⟩ := continue_sound hsound (update_self ..)
        (successorHead declaration.targetConfig) new hunused.2.1 rfl hsealed
      have hcounted' : Counted next.head (transferState env next) := by
        rw [transferState_succeed hnextHead hnextCheckpoint hsealed rfl (hsame ▸ hafter), hnextHead]
        exact (hcounted.update fun _ => ⟨after.state, rfl⟩).update fun hnot => absurd hnot hsealed
      refine ⟨hcounted', ⟨ledger', hrepresents', ?_⟩, hbefore, hevolves⟩
      rw [hstates, hnextHead]
      exact ⟨hcontinued, fun asset => (worth_eq hsound (hmove asset)).trans (hworth asset)⟩

end

/-- Every other call leaves the ledger and the sessions alone. -/
lemma other_sound (hrepresents : Represents store.handoff store.compactHandoff ledger)
    {call : StoreCall} (hexec : call.exec storeEnv store = .ok next) (hrecords : call.records = [])
    (hhead : next.head = store.head) (hcheckpoint : next.checkpoint = store.checkpoint) :
    Represents next.handoff next.compactHandoff ledger ∧
      transferState env next = transferState env store := by
  obtain ⟨ledger', htrace, hrepresents'⟩ := StoreCall.exec_ledger hrepresents hexec
  rw [hrecords, List.flatMap_nil] at htrace
  refine ⟨htrace.of_nil ▸ hrepresents', ?_⟩
  unfold transferState
  rw [hhead, hcheckpoint]

end Calls

/-! ## Supply -/

section Supply

/-- A lock is accounted for by the handoff it backs. -/
lemma consumed_iff_spent (hrepresents : Represents store.handoff store.compactHandoff ledger)
    (h : Sound env store.head states ledger) (hstate : states sessionId = some state)
    (hlock : lock ∈ state.pending) (asset : AssetId) :
    lock.Consumed env store ↔ (escrow asset states ledger).Spent (PendingLock.Backs env) lock := by
  have hmem : lock ∈ (escrow asset states ledger).locks sessionId :=
    mem_locksOf.mpr ⟨state, hstate, hlock⟩
  constructor
  · rintro ⟨id, stored, hstored, hbacks, hconsumed⟩
    have hledger := hrepresents.entry hstored
    -- a retired handoff has no lock any more
    have hopen : phase stored.lifecycle.terminal ≠ .closed := fun hclosed =>
      (h.backed asset).released (claim_eq_some.mpr ⟨stored, hledger, rfl, hclosed⟩) hmem hbacks
    have hspent : phase stored.lifecycle.terminal = .spent := by
      unfold StoredHandoff.consumption at hconsumed
      cases hterminal : stored.lifecycle.terminal <;> simp_all [phase]
    exact ⟨id, stored.handoff, claim_eq_some.mpr ⟨stored, hledger, rfl, hspent⟩, hbacks⟩
  · rintro ⟨id, handoff, hclaim, hbacks⟩
    obtain ⟨stored, hledger, rfl, hspent⟩ := claim_eq_some.mp hclaim
    rcases hrepresents id with ⟨hsame, -⟩ | ⟨-, other, hother, -, hterminal⟩
    · refine ⟨id, stored, hsame.trans hledger, hbacks, ?_⟩
      unfold StoredHandoff.consumption
      cases hcase : stored.lifecycle.terminal <;> simp_all [phase]
    · obtain rfl := Option.some_inj.mp (hledger.symm.trans hother)
      unfold isTerminal at hterminal
      cases hcase : stored.lifecycle.terminal <;> simp_all [phase]

lemma supply_eq_worth (hrepresents : Represents store.handoff store.compactHandoff ledger)
    (h : Sound env store.head (transferState env store) ledger) (asset : AssetId) :
    supply env store asset = worth env asset (transferState env store) ledger := by
  classical
  unfold supply worth Escrow.value
  rw [← Finset.sum_add_distrib]
  refine Finset.sum_congr rfl fun sessionId _ => ?_
  cases hstate : transferState env store sessionId with
  | none => simp [escrow, freeOf, locksOf, Escrow.outstanding, hstate]
  | some state =>
    have hnodup : state.pending.Nodup := List.Nodup.of_map _ (h.valid hstate).1.pending.nodup_keys
    have hfilter : (state.pending.toFinset.filter fun lock =>
        ¬ (escrow asset (transferState env store) ledger).Spent (PendingLock.Backs env) lock) =
        (state.pending.filter fun lock => ¬ lock.Consumed env store).toFinset := by
      ext lock
      simp only [Finset.mem_filter, List.mem_toFinset, List.mem_filter, decide_eq_true_eq]
      refine and_congr_right fun hlock => not_congr ?_
      exact (consumed_iff_spent hrepresents h hstate hlock asset).symm
    rw [escrow_free hstate, Escrow.outstanding, escrow_locks hstate, hfilter,
      List.sum_toFinset _ (hnodup.filter _)]
    rfl

end Supply

/-! ## Runs -/

section Run

variable {world : World}

/-- What a permitted call does to the invariant and, unless it creates a session, to the supply. -/
lemma Sustained.step (h : Sustained env store) (hpermitted : Permitted env store OwnLocks submission)
    (hresult : submission.result env.session store = .ok next) :
    Sustained env next ∧ ((∀ genesis head, submission.call ≠ .createSession genesis head) →
      ∀ asset, supply env next asset = supply env store asset) := by
  obtain ⟨hcounted, ledger, hrepresents, hsound⟩ := h
  have hexec := Submission.exec_of_result hresult
  rcases StoreCall.exec_sessions hexec with ⟨genesis, head, hcall, hcreate⟩ |
    ⟨expected, new, record, hcall, hcommit⟩ | ⟨hrecords, hhead, hcheckpoint⟩
  · rw [Permitted, hcall] at hpermitted
    refine ⟨create_sound hcounted hrepresents hsound hpermitted hcreate, fun hno => ?_⟩
    exact absurd hcall (hno genesis head)
  · rw [Permitted, hcall] at hpermitted
    obtain ⟨executor, after, hexecutes⟩ := hpermitted
    obtain ⟨hcounted', ⟨ledger', hrepresents', hsound', hworth⟩, -⟩ :=
      commit_sound hcounted hrepresents hsound hexecutes hcommit
    refine ⟨⟨hcounted', ledger', hrepresents', hsound'⟩, fun _ asset => ?_⟩
    rw [supply_eq_worth hrepresents' hsound', supply_eq_worth hrepresents hsound, hworth]
  · obtain ⟨hrepresents', hstates⟩ : Represents next.handoff next.compactHandoff ledger ∧
        transferState env next = transferState env store :=
      other_sound hrepresents hexec hrecords hhead hcheckpoint
    have hsound' : Sound env next.head (transferState env next) ledger := by
      rwa [hhead, hstates]
    refine ⟨⟨by rwa [hhead, hstates], ledger, hrepresents', hsound'⟩, fun _ asset => ?_⟩
    rw [supply_eq_worth hrepresents' hsound', supply_eq_worth hrepresents hsound, hstates]

lemma sustained_empty : Sustained env RocksSessionStore.empty := by
  have hnone : ∀ sessionId, transferState env RocksSessionStore.empty sessionId = none := fun _ => rfl
  refine ⟨nofun, fun _ => none, fun _ => .inl ⟨rfl, rfl⟩, ?_, ?_, nofun, fun asset => ⟨?_, ?_, ?_, ?_⟩⟩
  · intro sessionId state hstate
    rw [hnone] at hstate
    cases hstate
  · intro sessionId state lock hstate
    rw [hnone] at hstate
    cases hstate
  all_goals intros; simp_all [escrow]

lemma TransferRun.sustained (h : TransferRun env OwnLocks world) : Sustained env world.store := by
  induction h with
  | empty => exact sustained_empty
  | @submit world submission _ hpermitted ih =>
    unfold World.submit
    split
    · next hresult => exact (ih.step (hpermitted _ hresult) hresult).1
    · exact ih

/-- Both ways there are of making an executor for a new session give it no lock of another. -/
lemma Starts.of_callers (hroot : genesis.config.predecessor = none) (hkind : state.policy.kind = .scarce)
    (hmade : createExecutor env genesis.config state view = .ok executor ∨
      (∃ accounts, TransferState.new env.session state.policy accounts = .ok state) ∧
        TransferExecutor.new env genesis.config state sources = .ok executor)
    (hsnapshot : executor.snapshot env = .ok genesis.stateSnapshot) : Starts env OwnLocks genesis := by
  rcases hmade with hcreate | ⟨⟨accounts, hnew⟩, hexecutor⟩
  · obtain ⟨hown, sources, hexecutor⟩ := createExecutor_own hroot hcreate
    exact .new hkind hown hexecutor hsnapshot
  · simp only [TransferState.new, eq_ok] at hnew
    have hnone : state.pending = [] := hnew.2 ▸ rfl
    exact .new hkind (fun _ hmem => by simp [hnone] at hmem) hexecutor hsnapshot

/-- Along every run whose sessions start with no lock of another session, as those do that are made by
    `create_chain` or from a new state: each unsealed session has a state whose accounts account for
    their locks in exact arithmetic; no call but the creation of a session changes what the unsealed
    sessions hold together; and the block of a session leaves no account changed without a strictly
    greater version. -/
theorem scarce_supply_conserved (hrun : TransferRun env OwnLocks world) :
    (∀ genesis state sources view executor, genesis.config.predecessor = none →
      state.policy.kind = .scarce →
      (createExecutor env genesis.config state view = .ok executor ∨
        (∃ accounts, TransferState.new env.session state.policy accounts = .ok state) ∧
          TransferExecutor.new env genesis.config state sources = .ok executor) →
      executor.snapshot env = .ok genesis.stateSnapshot → Starts env OwnLocks genesis) ∧
    (∀ sessionId head, world.store.head sessionId = some head → head.sealedBySuccessor = none →
      ∃ state, transferState env world.store sessionId = some state ∧
        ∀ account ∈ state.accounts, account.locked.toNat =
            ((state.pending.filter (·.account = account.key)).map (·.amount.toNat)).sum ∧
          account.available.toNat + account.locked.toNat < 2 ^ 64) ∧
    (∀ (submission : Submission) next, submission.result env.session world.store = .ok next →
      Permitted env world.store OwnLocks submission →
      (∀ genesis head, submission.call ≠ .createSession genesis head) →
      ∀ asset, supply env next asset = supply env world.store asset) ∧
    ∀ (submission : Submission) next expected new record executor after,
      submission.result env.session world.store = .ok next →
      submission.call = .commitBlock expected new record →
      Executes env world.store expected.sessionId record executor after →
      transferState env world.store expected.sessionId = some executor.state ∧
        Evolves executor.state.accounts after.state.accounts := by
  obtain ⟨hcounted, ledger, hrepresents, hsound⟩ := hrun.sustained
  refine ⟨fun _ _ _ _ _ => Starts.of_callers, ?_, ?_, ?_⟩
  · intro sessionId head hhead hunsealed
    obtain ⟨state, hstate⟩ := hcounted sessionId head hhead hunsealed
    have hvalid := (hsound.valid hstate).1
    exact ⟨state, hstate, fun account hmem => ⟨hvalid.locked account hmem, hvalid.total account hmem⟩⟩
  · intro submission next hresult hpermitted hcall
    exact (hrun.sustained.step hpermitted hresult).2 hcall
  · intro submission next expected new record executor after hresult hcall hexecutes
    have hexec := Submission.exec_of_result hresult
    rw [hcall] at hexec
    exact (commit_sound hcounted hrepresents hsound hexecutes hexec).2.2

end Run

/-! ## A crossing of value

The crossing of `Store/Outcome`, with the transfers its texts stand for.  Session 1 has five units and
sends three.  Session 2 starts with nothing, or with a lock for the same transfer, as if it had entered
that lock itself. -/

def crossSource : SourceIdentity := ⟨fill 32 1, crossHash, crossHash, crossHash, crossHash⟩

def crossAsset : AssetId := ⟨crossHash, crossHash⟩

def crossPayload : TransferPayload :=
  ⟨crossHash, crossHash, .scarce, crossHash, crossSource, crossAsset, crossHash, crossHash, 0, 3, [],
    crossHash, .session (fill 32 2) crossHash⟩

def crossLock : PendingLock :=
  ⟨crossHash, crossSource, crossAsset, crossHash, crossHash, 3, crossHash, 0, crossHash⟩

def crossReceipt : Receipt :=
  ⟨crossHash, crossHash, crossSource, 0, crossHash, crossAsset, crossHash, 3, .scarce, []⟩

def crossAccount (available locked version : UInt64) : AssetAccount :=
  ⟨crossAsset, crossHash, available, locked, version, []⟩

def crossPolicy : TransferPolicy :=
  ⟨crossHash, crossHash, .scarce, ⟨1, 1, 1, 1, 0⟩, [crossSource]⟩

/-- The state a snapshot stands for. -/
def crossState : UInt8 → TransferState
  | 0 => ⟨crossPolicy, [crossAccount 5 0 0], [], [], []⟩
  | 1 => ⟨crossPolicy, [crossAccount 2 3 1], [crossLock], [], [(crossHash, crossHash)]⟩
  | 3 => ⟨crossPolicy, [], [], [], []⟩
  | 4 => ⟨crossPolicy, [crossAccount 3 0 0], [], [crossReceipt], []⟩
  | 5 => ⟨crossPolicy, [crossAccount 0 3 1], [crossLock], [], [(crossHash, crossHash)]⟩
  | _ => ⟨crossPolicy, [crossAccount 3 3 2], [crossLock], [crossReceipt], [(crossHash, crossHash)]⟩

/-- A state that has no number is over the limit. -/
def crossEncode (state : TransferState) : List UInt8 :=
  match [0, 1, 3, 4, 5, 6].find? (crossState · = state) with
  | some number => [number]
  | none => List.replicate (maxRecordBytes + 1) 0

def crossPostcard : TransferPostcard where
  payload _ := []
  takePayload _ := .ok (crossPayload, [])
  authorization _ := []
  takeAuthorization _ := .ok (⟨crossPayload.scope crossEnv, List.replicate 64 0⟩, [])
  commands commands := [if commands = [.issue crossHash] then 0 else 1]
  takeCommands bytes := .ok ([if bytes = [0] then .issue crossHash else .intake crossHash], [])
  state := crossEncode
  takeState bytes := .ok (crossState (bytes.headD 0), [])
  policy _ := []
  command _ := []
  event _ := []
  takeCommands_length _ _ _ h := by
    cases h
    simp [maxSequenceItems]
  takeState_state state _ h := by
    unfold crossEncode at h ⊢
    split
    · next number hfind => simpa using List.find?_some hfind
    · next hfind =>
      rw [hfind, List.length_replicate] at h
      omega

def crossTransfer : TransferEnv := ⟨crossEnv, crossPostcard⟩

/-- The calls, in which session 2 starts with the lock or without it. -/
def crossCalls (foreign : Bool) : List Submission :=
  if foreign then crossing 5 6 else crossing 3 4

def crossWorld (foreign : Bool) (n : Nat) : World :=
  World.run crossEnv ((crossCalls foreign).take n)

lemma crossWorld_succ (h : (crossCalls foreign)[n]? = some submission) :
    crossWorld foreign (n + 1) = (crossWorld foreign n).submit crossEnv submission := by
  rw [crossWorld, List.take_add_one, h, World.run, List.foldl_append]
  rfl

def crossExecutor (sessionId : Hash32) (state : TransferState) : TransferExecutor :=
  ⟨state, { crossSource with sessionId }, crossHash, ⟨crossHash, none⟩⟩

/-- The first block of a session takes it from one state to another. -/
def Crosses (store : RocksSessionStore) (record : FinalisedBlockRecord) (first last : UInt8)
    (consumed : List SessionHandoff) : Prop :=
  let sessionId := record.block.sessionId
  let context : ProtocolEffectsContext := ⟨crossHash, sessionId, .application crossHash, 0, 0, crossHash,
    crossHash, record.issuedHandoffs.map intentFromHandoff, []⟩
  store.loadGenesis sessionId = .ok ⟨crossConfig sessionId, crossText "MTRS" [first]⟩ ∧
    store.checkpoint sessionId = some ⟨sessionId, none, crossHash, crossText "MTRS" [first]⟩ ∧
    TransferExecutor.restore crossTransfer (crossConfig sessionId) (crossText "MTRS" [first])
      ⟨crossHash, none⟩ = .ok (crossExecutor sessionId (crossState first)) ∧
    record.effectsContext crossEnv (crossConfig sessionId) = .ok context ∧
    ((crossExecutor sessionId (crossState first)).executeTransferActions crossTransfer context
      record.handoffActions record.frameInput consumed record.transactions).map Prod.fst =
        .ok (crossExecutor sessionId (crossState last)) ∧
    (crossExecutor sessionId (crossState last)).snapshot crossTransfer = .ok record.stateSnapshot

instance : Decidable (Crosses store record first last consumed) :=
  inferInstanceAs (Decidable (_ ∧ _))

lemma crossHead_sessionId : (crossHead sessionId n).sessionId = sessionId := by
  unfold crossHead
  split <;> rfl

lemma Crosses.permitted (h : Crosses store record first last consumed)
    (hconsumed : List.Forall₂ (fun id handoff => ∃ stored, store.handoff id = some stored ∧
      stored.handoff = handoff) record.consumedHandoffIds consumed)
    (hsuccessor : record.successor = none) :
    Permitted crossTransfer store admits (committing record) := by
  change ∃ executor after, Executes crossTransfer store (crossHead ..).sessionId record executor after
  rw [crossHead_sessionId]
  obtain ⟨hgenesis, hcheckpoint, hrestore, hcontext, hexecute, hsnapshot⟩ := h
  obtain ⟨⟨after, outcome⟩, hexecute, rfl⟩ := map_eq_ok.mp hexecute
  exact ⟨_, _, .block hgenesis hcheckpoint hrestore hcontext hconsumed hexecute hsnapshot
    (by simp [hsuccessor])⟩

lemma cross_issues : ∀ foreign, Crosses (crossWorld foreign 2).store issuing 0 1 [] := by decide +kernel

lemma cross_takes : ∀ foreign, Crosses (crossWorld foreign 3).store (taking (if foreign then 6 else 4))
    (if foreign then 5 else 3) (if foreign then 6 else 4) [crossHandoff] := by decide +kernel

lemma cross_starts (hadmits : admits (crossConfig sessionId) (crossState number))
    (hmade : TransferExecutor.new crossTransfer (crossConfig sessionId) (crossState number)
      ⟨crossHash, none⟩ = .ok (crossExecutor sessionId (crossState number)) ∧
        (crossState number).policy.kind = .scarce ∧ (crossExecutor sessionId (crossState number)).snapshot
          crossTransfer = .ok (crossText "MTRS" [number])) :
    Starts crossTransfer admits ⟨crossConfig sessionId, crossText "MTRS" [number]⟩ :=
  .new hmade.2.1 hadmits hmade.1 hmade.2.2

/-- The first three calls. -/
lemma cross_run (foreign : Bool) (hfirst : admits (crossConfig (fill 32 1)) (crossState 0))
    (hsecond : admits (crossConfig (fill 32 2)) (crossState (if foreign then 5 else 3))) :
    TransferRun crossTransfer admits (crossWorld foreign 3) := by
  have hthird : (crossCalls foreign)[2]? = some (committing issuing) := by cases foreign <;> rfl
  have hcreates : (crossCalls foreign)[1]? = some (creating (fill 32 2) (if foreign then 5 else 3)) := by
    cases foreign <;> rfl
  have hroot : (crossCalls foreign)[0]? = some (creating (fill 32 1) 0) := by cases foreign <;> rfl
  rw [crossWorld_succ hthird, crossWorld_succ hcreates, crossWorld_succ hroot]
  refine .submit _ (.submit _ (.submit _ .empty fun _ _ => ?_) fun _ _ => ?_) fun _ _ => ?_
  · exact cross_starts hfirst (by decide +kernel)
  · exact cross_starts hsecond (by cases foreign <;> decide +kernel)
  · rw [← crossWorld_succ hroot, ← crossWorld_succ hcreates]
    exact (cross_issues foreign).permitted .nil rfl

lemma cross_takes_permitted (foreign : Bool) :
    Permitted crossTransfer (crossWorld foreign 3).store admits
      (committing (taking (if foreign then 6 else 4))) := by
  have hstored : (crossWorld foreign 3).store.handoff crossHash =
      some ⟨crossHandoff, ⟨fill 32 1, 0, crossHash⟩, .issued⟩ := by
    cases foreign <;> decide +kernel
  exact (cross_takes foreign).permitted (.cons ⟨_, hstored, rfl⟩ .nil) rfl

lemma cross_takes_result (foreign : Bool) :
    (committing (taking (if foreign then 6 else 4))).result crossEnv (crossWorld foreign 3).store =
      .ok (crossWorld foreign 4).store := by
  have hfourth : (crossCalls foreign)[3]? = some (committing (taking (if foreign then 6 else 4))) := by
    cases foreign <;> rfl
  have hdone : ∀ foreign, succeeds ((committing (taking (if foreign then 6 else 4))).result crossEnv
    (crossWorld foreign 3).store) := by decide +kernel
  rw [crossWorld_succ hfourth]
  exact World.submit_of_succeeds (hdone foreign)

/-- Session 1 sends three units, session 2 takes them in, and together they hold what they held. -/
theorem scarce_supply_conserved_crossing :
    (crossWorld false 4).store.handoff crossHash = some ⟨crossHandoff, ⟨fill 32 1, 0, crossHash⟩,
        .consumed ⟨fill 32 2, 0, crossHash⟩⟩ ∧
      ∀ asset, supply crossTransfer (crossWorld false 4).store asset =
        supply crossTransfer (crossWorld false 3).store asset := by
  refine ⟨by decide +kernel, ?_⟩
  have hrun : TransferRun crossTransfer OwnLocks (crossWorld false 3) :=
    cross_run false (fun _ hmem => by cases hmem) (fun _ hmem => by cases hmem)
  exact (scarce_supply_conserved hrun).2.2.1 _ _ (cross_takes_result false)
    (cross_takes_permitted false) (by simp [committing])

/-- A call that neither starts a session nor appends to it leaves its head alone. -/
lemma submit_head_of_ne (hcreate : ∀ genesis head, submission.call = .createSession genesis head →
      other ≠ genesis.config.sessionId)
    (hcommit : ∀ expected new record, submission.call = .commitBlock expected new record →
      other ≠ expected.sessionId ∧ record.successor = none) :
    (World.submit session world submission).store.head other = world.store.head other := by
  unfold World.submit
  split
  · next hresult =>
    rcases StoreCall.exec_sessions (Submission.exec_of_result hresult) with ⟨_, _, hcall, hdone⟩ |
      ⟨_, _, _, hcall, hdone⟩ | ⟨-, hhead, -⟩
    · obtain ⟨-, -, -, rfl⟩ := createSession_ok hdone
      exact update_of_ne (hcreate _ _ hcall) _ _
    · obtain ⟨hother, hnone⟩ := hcommit _ _ _ hcall
      cases (commitBlock_sessions hdone).2.2.2 with
      | advance _ _ hnext _ => rw [hnext, update_of_ne hother]
      | succeed hsome => cases hnone.symm.trans hsome
    · rw [hhead]
  · rfl

/-- No third session takes part. -/
lemma cross_other (hone : other ≠ fill 32 1) (htwo : other ≠ fill 32 2) :
    transferState crossTransfer (crossWorld true n).store other = none := by
  have hcreating : ∀ sessionId state (world : World), other ≠ sessionId →
      (world.submit crossEnv (creating sessionId state)).store.head other = world.store.head other :=
    fun _ _ _ hother => submit_head_of_ne (by rintro _ _ ⟨⟩; exact hother) (by simp [creating])
  have hcommitting : ∀ record (world : World), other ≠ record.block.sessionId → record.successor = none →
      (world.submit crossEnv (committing record)).store.head other = world.store.head other :=
    fun _ _ hother hnone => submit_head_of_ne (by simp [committing])
      (by rintro _ _ _ ⟨⟩; exact ⟨crossHead_sessionId ▸ hother, hnone⟩)
  have hhead : (crossWorld true n).store.head other = none := by
    refine List.foldlRecOn (motive := fun world : World => world.store.head other = none) _ _ rfl ?_
    intro world hnone submission hmem
    rw [← hnone]
    have hmem : submission ∈ crossing 5 6 := List.mem_of_mem_take hmem
    simp only [crossing, List.mem_cons, List.not_mem_nil, or_false] at hmem
    rcases hmem with rfl | rfl | rfl | rfl | rfl
    · exact hcreating _ _ _ hone
    · exact hcreating _ _ _ htwo
    · exact hcommitting _ _ hone rfl
    · exact hcommitting _ _ htwo rfl
    · exact hcommitting _ _ hone rfl
  rw [transferState, hhead]
  rfl

open Classical in
lemma holding_crossLock (hpending : state.pending = [crossLock]) :
    holding env store crossAsset state = balance crossAsset state.accounts +
      if crossLock.Consumed env store then 0 else 3 := by
  have hheld : crossLock.held crossAsset = 3 := by decide
  by_cases hconsumed : crossLock.Consumed env store <;> simp [holding, hpending, hconsumed, hheld]

/-- `TransferExecutor::new` gives session 2 the lock of session 1's transfer as well.  Session 2 then
    takes the transfer in, which spends both locks at once. -/
theorem foreign_lock_not_conserved :
    TransferRun crossTransfer (fun _ _ => True) (crossWorld true 3) ∧
      Permitted crossTransfer (crossWorld true 3).store (fun _ _ => True) (committing (taking 6)) ∧
      (committing (taking 6)).result crossEnv (crossWorld true 3).store =
        .ok (crossWorld true 4).store ∧
      supply crossTransfer (crossWorld true 4).store crossAsset ≠
        supply crossTransfer (crossWorld true 3).store crossAsset := by
  classical
  refine ⟨cross_run true trivial trivial, cross_takes_permitted true, cross_takes_result true, ?_⟩
  have hsupply : ∀ n, n = 3 ∨ n = 4 → supply crossTransfer (crossWorld true n).store crossAsset =
      2 + (if crossLock.Consumed crossTransfer (crossWorld true n).store then 0 else 3) +
        ((if n = 3 then 0 else 3) +
          if crossLock.Consumed crossTransfer (crossWorld true n).store then 0 else 3) := by
    intro n hn
    have hfirst : transferState crossTransfer (crossWorld true n).store (fill 32 1) =
        some (crossState 1) := by
      rcases hn with rfl | rfl <;> decide +kernel
    have hsecond : transferState crossTransfer (crossWorld true n).store (fill 32 2) =
        some (crossState (if n = 3 then 5 else 6)) := by
      rcases hn with rfl | rfl <;> decide +kernel
    rw [supply, Fintype.sum_eq_add (fill 32 1) (fill 32 2) (by decide)
      fun other hother => by rw [cross_other hother.1 hother.2]; rfl, hfirst, hsecond]
    simp only [Option.map_some, Option.getD_some]
    rw [holding_crossLock rfl, holding_crossLock (by rcases hn with rfl | rfl <;> rfl)]
    rcases hn with rfl | rfl <;> rfl
  rw [hsupply 3 (.inl rfl), hsupply 4 (.inr rfl)]
  -- both locks count alike, so what is held becomes odd
  split_ifs <;> omega

end Myelin.Transfer
