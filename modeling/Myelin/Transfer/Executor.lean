/-
  The executor: one block of host commands.

  Every command takes the next entry of ONE of three queues, the handoffs the block issues, consumes
  and acts on; at the end all three must be empty.  So commands and protocol effects are in
  correspondence, whatever the order of the commands (`Advances`).
-/
import Myelin.Transfer.Effects

namespace Myelin.Transfer

open Lib Consensus Session

variable {env : TransferEnv} {config : SessionConfig} {state : TransferState}
  {executor : TransferExecutor} {event : TransferEvent} {command : TransferCommand}

namespace TransferExecutor

variable (env config state executor)

/-! ## Construction -/

/-- Bind a state to the genesis it runs under. -/
def bind (sources : SourceBindings) : Except TransferError TransferExecutor := do
  config.validate.mapError policyError
  let commitment ← state.policy.commitment env
  let effectPolicy ← state.policy.effectPolicy env
  let intakePolicy ← state.policy.intakePolicy env
  ensure (sources.policyCommitment = commitment ∧
      (∀ inherited ∈ sources.inheritance, inherited.1 = config.commitment env.session) ∧
      config.protocolEffects = effectPolicy ∧
      config.applicationProfile.inputSchemaHash = inputSchema env.session ∧
      config.applicationProfile.commandIdentityRequired ∧
      config.applicationProfile.stateCodecHash = stateCodec env.session ∧
      config.applicationProfile.handoffPolicyHash = intakePolicy)
    (.policy "executor policy, source bindings or profile differs from genesis")
  let root ← state.root env
  let binding ← SourceIdentity.fromConfig env.session config
  pure ⟨state, binding, root, sources⟩

/-- The executor of a new session. -/
def new (sources : SourceBindings) : Except TransferError TransferExecutor := do
  let executor ← bind env config state sources
  ensure (executor.root = config.initialStateRoot)
    (.state "initial state root differs from genesis")
  pure executor

/-- The executor of a session at a snapshot. -/
def restore (bytes : List UInt8) (sources : SourceBindings) :
    Except TransferError TransferExecutor := do
  let state ← TransferState.decode env bytes
  bind env config state sources

/-- Snapshot of the current state. -/
def snapshot : Except TransferError (List UInt8) :=
  executor.state.encode env

/-! ## Continuation -/

/-- An inherited lock is not too far from its origin for one more continuation. -/
def checkDepth (lock : PendingLock) : Except TransferError Unit := do
  let depth ← okOr (if lock.source.sessionId = executor.binding.sessionId then some 0
      else executor.sources.inheritance.bind fun inherited => inherited.2.get? lock.source.sessionId)
    (.unsupported "continuation needs canonical inherited-lock lineage")
  ensure (depth < maxHandoffOwnerDepth)
    (.bounds "reconcile inherited handoffs before another continuation")

/-- Every owner has approved this exact continuation. -/
def approveContinuation (successor : Option SessionConfig) (targetGenesis : Hash32)
    (approvals : List ContinuationApproval) : Except TransferError Unit := do
  let target ← okOr successor (.policy "continuation has no successor config")
  let effectPolicy ← executor.state.policy.effectPolicy env
  ensure (targetGenesis = target.commitment env.session ∧ target.initialStateRoot = executor.root ∧
      target.applicationProfile.commitment env.session =
        executor.binding.applicationProfileCommitment ∧
      target.protocolEffects = effectPolicy)
    (.unsupported "reference transfer continuation preserves the complete application and state")
  forResult executor.checkDepth executor.state.pending
  ensure (executor.state.owners ≠ [] ∧ approvals.map (·.owner) = executor.state.owners)
    (.authorization "continuation requires every owner exactly once in sorted order")
  let digest ← continuationDigest env.session executor.binding.genesisCommitment executor.root
    targetGenesis
  forResult (fun approval => verifyOwner env.session approval.owner digest approval.signature
    "continuation owner signature is invalid") approvals

/-! ## Commands -/

/-- Loop variables of `execute_transfer_actions`. -/
structure Cursor where
  state : TransferState
  issued : List HandoffIntent
  incoming : List SessionHandoff
  lifecycle : List ResolvedHandoffAction
  outcome : ExecutionOutcome

/-- `Iterator::next`, with an error at the end. -/
def takeNext {α : Type} (list : List α) (error : TransferError) : Except TransferError (α × List α) :=
  match list with
  | [] => .error error
  | a :: rest => .ok (a, rest)

/-- A command about an earlier handoff. -/
def lifecycleCommand (cursor : Cursor) (missing wrong : String) (expected : HandoffAction → Bool)
    (authorization : Option (List UInt8)) : Except TransferError (Cursor × TransferEvent) := do
  let (action, rest) ← takeNext cursor.lifecycle (.policy missing)
  ensure (expected action.action) (.policy wrong)
  let (state, event) ← cursor.state.lifecycle env executor.binding action authorization
  pure ({ cursor with state, lifecycle := rest }, event)

/-- Whether an action retires the given handoff. -/
def isRetirement (handoffId : Hash32) : HandoffAction → Bool
  | .retire id _ => id = handoffId
  | _ => false

/-- One command. -/
def dispatch (context : ProtocolEffectsContext) (successor : Option SessionConfig)
    (cursor : Cursor) : TransferCommand → Except TransferError (Cursor × TransferEvent)
  | .issue transferId => do
      let (intent, rest) ← takeNext cursor.issued (.policy "missing issued handoff")
      let (state, event) ← cursor.state.issue env executor.binding intent transferId
      pure ({ cursor with state, issued := rest }, event)
  | .cancel handoffId authorization =>
      lifecycleCommand env executor cursor "missing cancellation witness" "wrong cancellation action"
        (fun action => action = .cancel handoffId) (some authorization)
  | .reclaim handoffId =>
      lifecycleCommand env executor cursor "missing refund witness" "wrong refund action"
        (fun action => action = .reclaim handoffId) none
  | .retire handoffId =>
      lifecycleCommand env executor cursor "missing retirement witness" "wrong retirement action"
        (isRetirement handoffId) none
  | .intake handoffId => do
      let (handoff, rest) ← takeNext cursor.incoming (.policy "missing consumed handoff")
      let (state, event) ← cursor.state.intake env executor.binding handoff handoffId
        context.timestampMs
      pure ({ cursor with state, incoming := rest }, event)
  | .continue targetGenesis approvals => do
      executor.approveContinuation env successor targetGenesis approvals
      pure (cursor, .continued targetGenesis)

/-- One pass of the loop: run the command, check the state, record the event. -/
def executeCommand (context : ProtocolEffectsContext) (successor : Option SessionConfig)
    (cursor : Cursor) (command : TransferCommand) : Except TransferError Cursor := do
  let (cursor, event) ← dispatch env executor context successor cursor command
  cursor.state.validate env.session
  let commitment ← Codec.hash env.session "myelin:reference-transfer-event:v2"
    (env.postcard.event event)
  let payload ← Codec.encode env.session "MTRF" (env.postcard.event event) 1024
  pure { cursor with outcome := { cursor.outcome with
    dataCommitments := cursor.outcome.dataCommitments ++ [commitment]
    outbox := cursor.outcome.outbox ++ [⟨"myelin/reference-transfer/v2", payload⟩] } }

/-- `matches!(commands, [TransferCommand::Continue { .. }])`. -/
def isContinuation : List TransferCommand → Bool
  | [.continue _ _] => true
  | _ => false

/-- Execute one block. -/
def executeTransferActions (context : ProtocolEffectsContext) (actions : List ResolvedHandoffAction)
    (input : FrameInput) (consumed : List SessionHandoff) (txs : List (List UInt8)) :
    Except TransferError (TransferExecutor × ExecutionOutcome) := do
  (context.validate env.session).mapError policyError
  forResult (fun action => (ResolvedHandoffAction.validateFor env.session action
    context.sourceSessionId context.height).mapError policyError) actions
  let effectPolicy ← executor.state.policy.effectPolicy env
  ensure (context.sourceGenesisCommitment = executor.binding.genesisCommitment ∧
      context.sourceSessionId = executor.binding.sessionId ∧ context.policy = effectPolicy ∧
      context.preStateRoot = executor.root ∧ context.inputRoot = input.root env.session)
    (.policy "execution context differs from bound genesis/state/input")
  ensure (txs = [])
    (.unsupported "reference transfer policy takes canonical host commands, not CellTx")
  let commands ← Codec.decode env.session "MTRD" env.postcard.commands env.postcard.takeCommands
    input.payload maxCommandBytes
  let successor ← (context.successor env.session).mapError policyError
  ensure (successor = none ∨ isContinuation commands)
    (.authorization "continuation requires its own owner-authorized command")
  ensure (checkedSub input.endPosition input.startPosition = some (UInt64.ofNat commands.length) ∧
      checkedSub input.logicalTimeEnd input.logicalTimeStart = some (UInt64.ofNat commands.length))
    (.authorization "command identities/ranges do not match canonical commands")
  let identities ← mapResult (fun command => command.identity env executor.binding.genesisCommitment)
    commands
  ensure (identities = input.commands)
    (.authorization "command identities/ranges do not match canonical commands")
  ensure (input.commands.map (·.id)).Nodup (.authorization "duplicate command identity")
  let cursor ← commands.foldlM (executor.executeCommand env context successor)
    ⟨executor.state, context.issuedHandoffs, consumed, actions, ⟨[], [], [], 0⟩⟩
  ensure (cursor.issued = [] ∧ cursor.incoming = [] ∧ cursor.lifecycle = [])
    (.policy "unmatched protocol effect in request")
  let root ← cursor.state.root env
  pure ({ executor with state := cursor.state, root }, cursor.outcome)

/-! ## What a block has done -/

/-- One command takes one entry of one queue. -/
inductive Advances (cursor next : Cursor) : Prop where
  | issue {intent : HandoffIntent} {transferId : Hash32} {event : TransferEvent} :
      cursor.issued = intent :: next.issued → next.incoming = cursor.incoming →
      next.lifecycle = cursor.lifecycle →
      cursor.state.issue env executor.binding intent transferId = .ok (next.state, event) →
      Advances cursor next
  | intake {handoff : SessionHandoff} {handoffId : Hash32} {timestampMs : UInt64}
      {event : TransferEvent} : cursor.incoming = handoff :: next.incoming →
      next.issued = cursor.issued → next.lifecycle = cursor.lifecycle →
      cursor.state.intake env executor.binding handoff handoffId timestampMs = .ok (next.state, event) →
      Advances cursor next
  | lifecycle {action : ResolvedHandoffAction} {authorization : Option (List UInt8)}
      {event : TransferEvent} : cursor.lifecycle = action :: next.lifecycle →
      next.issued = cursor.issued → next.incoming = cursor.incoming →
      cursor.state.lifecycle env executor.binding action authorization = .ok (next.state, event) →
      Advances cursor next
  | continued : next.state = cursor.state → next.issued = cursor.issued →
      next.incoming = cursor.incoming → next.lifecycle = cursor.lifecycle →
      Advances cursor next

variable {env config state executor}

section Construction

variable {sources : SourceBindings}

/-- An executor is bound to the state and the session it was given. -/
lemma bind_ok (h : bind env config state sources = .ok executor) :
    executor.state = state ∧ executor.binding.sessionId = config.sessionId := by
  simp only [bind, eq_ok] at h
  obtain ⟨-, _, -, _, -, _, -, -, _, -, binding, hbinding, rfl⟩ := h
  simp only [SourceIdentity.fromConfig, eq_ok] at hbinding
  obtain ⟨-, _, -, rfl⟩ := hbinding
  exact ⟨rfl, rfl⟩

lemma new_ok (h : new env config state sources = .ok executor) : executor.state = state := by
  simp only [new, eq_ok] at h
  obtain ⟨_, hbind, -, rfl⟩ := h
  exact (bind_ok hbind).1

lemma restore_ok (h : restore env config bytes sources = .ok executor) :
    TransferState.decode env bytes = .ok executor.state ∧
      executor.binding.sessionId = config.sessionId := by
  simp only [restore, bind_eq_ok] at h
  obtain ⟨state, hdecode, hbind⟩ := h
  obtain ⟨hstate, hbinding⟩ := bind_ok hbind
  exact ⟨hstate ▸ hdecode, hbinding⟩

end Construction

section Inversion

variable {after : TransferExecutor} {context : ProtocolEffectsContext}
  {successor : Option SessionConfig} {cursor next : Cursor}

lemma takeNext_eq_ok {α : Type} {list rest : List α} {a : α} :
    takeNext list error = .ok (a, rest) ↔ list = a :: rest := by
  cases list <;> simp [takeNext]

lemma lifecycleCommand_advances
    (h : lifecycleCommand env executor cursor missing wrong expected authorization = .ok (next, event)) :
    Advances env executor cursor next := by
  simp only [lifecycleCommand, eq_ok, Prod.mk.injEq] at h
  obtain ⟨⟨action, rest⟩, htake, -, ⟨state, other⟩, hstep, rfl, -⟩ := h
  exact .lifecycle (takeNext_eq_ok.mp htake) rfl rfl hstep

lemma dispatch_advances
    (h : dispatch env executor context successor cursor command = .ok (next, event)) :
    Advances env executor cursor next := by
  cases command with
  | issue transferId =>
    simp only [dispatch, eq_ok, Prod.mk.injEq] at h
    obtain ⟨⟨intent, rest⟩, htake, ⟨state, other⟩, hstep, rfl, -⟩ := h
    exact .issue (takeNext_eq_ok.mp htake) rfl rfl hstep
  | intake handoffId =>
    simp only [dispatch, eq_ok, Prod.mk.injEq] at h
    obtain ⟨⟨handoff, rest⟩, htake, ⟨state, other⟩, hstep, rfl, -⟩ := h
    exact .intake (takeNext_eq_ok.mp htake) rfl rfl hstep
  | cancel handoffId authorization | reclaim handoffId | retire handoffId =>
    rw [dispatch] at h
    exact lifecycleCommand_advances h
  | «continue» targetGenesis approvals =>
    simp only [dispatch, eq_ok, Prod.mk.injEq] at h
    obtain ⟨-, rfl, -⟩ := h
    exact .continued rfl rfl rfl rfl

lemma executeCommand_ok
    (h : executor.executeCommand env context successor cursor command = .ok next) :
    Advances env executor cursor next ∧ next.state.Valid := by
  simp only [executeCommand, eq_ok] at h
  obtain ⟨⟨middle, event⟩, hdispatch, hvalid, _, -, _, -, rfl⟩ := h
  refine ⟨?_, TransferState.valid_of_validate hvalid⟩
  cases dispatch_advances hdispatch with
  | issue h₁ h₂ h₃ h₄ => exact .issue h₁ h₂ h₃ h₄
  | intake h₁ h₂ h₃ h₄ => exact .intake h₁ h₂ h₃ h₄
  | lifecycle h₁ h₂ h₃ h₄ => exact .lifecycle h₁ h₂ h₃ h₄
  | continued h₁ h₂ h₃ h₄ => exact .continued h₁ h₂ h₃ h₄

/-- A successful block has run commands one after another, and used up all that was announced. -/
lemma executeTransferActions_ok
    (h : executor.executeTransferActions env context actions input consumed txs = .ok (after, outcome)) :
    ∃ commands successor cursor, List.foldlM (executor.executeCommand env context successor)
        ⟨executor.state, context.issuedHandoffs, consumed, actions, ⟨[], [], [], 0⟩⟩ commands =
          .ok cursor ∧
      (cursor.issued = [] ∧ cursor.incoming = [] ∧ cursor.lifecycle = []) ∧
      after.state = cursor.state := by
  simp only [executeTransferActions, eq_ok, Prod.mk.injEq] at h
  obtain ⟨-, -, _, -, -, -, commands, -, successor, -, -, -, _, -, -, -, cursor, hrun, hempty, _, -, rfl,
    -⟩ := h
  exact ⟨commands, successor, cursor, hrun, hempty, rfl⟩

end Inversion

end TransferExecutor

/-- The executor `create_chain` starts a session with. -/
def createExecutor (env : TransferEnv) (config : SessionConfig) (state : TransferState)
    (store : SessionStore) : Except TransferError TransferExecutor := do
  let sources ← SourceBindings.forState env config state store
  TransferExecutor.new env config state sources

/-- Every lock was entered by the session itself. -/
def OwnLocks (config : SessionConfig) (state : TransferState) : Prop :=
  ∀ lock ∈ state.pending, lock.source.sessionId = config.sessionId

/-- Nobody but a successor starts with locks of another session. -/
lemma createExecutor_own (hroot : config.predecessor = none)
    (h : createExecutor env config state store = .ok executor) :
    OwnLocks config state ∧ ∃ sources, TransferExecutor.new env config state sources = .ok executor := by
  simp only [createExecutor, SourceBindings.forState, eq_ok] at h
  obtain ⟨_, ⟨_, -, depths, hfold, -⟩, hnew⟩ := h
  refine ⟨?_, _, hnew⟩
  -- no depth is ever recorded, since that takes a lineage
  refine (foldlM_invariant (f := SourceBindings.lockDepth env config store)
    (I := fun depths => depths = SortedMap.empty)
    (Q := fun lock => lock.source.sessionId = config.sessionId) ?_ rfl hfold).2
  rintro depths lock next rfl hstep
  unfold SourceBindings.lockDepth at hstep
  split at hstep
  case isTrue hown =>
    simp only [eq_ok] at hstep
    obtain ⟨_, -, -, rfl⟩ := hstep
    exact ⟨rfl, hown⟩
  case isFalse hforeign =>
    simp only [eq_ok] at hstep
    obtain ⟨_, -, _, -, -, hstep⟩ := hstep
    rw [if_neg (by simp)] at hstep
    simp only [eq_ok] at hstep
    obtain ⟨lineage, hlineage, -⟩ := hstep
    exact absurd (continuationLineage_root hroot hlineage).symm hforeign

end Myelin.Transfer
