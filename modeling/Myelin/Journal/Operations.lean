/-
  The operations of the command journal, as functions on its state.

  Each is the closure the source hands to `update`: it computes a result and a next state, or fails.
  What `update` then does with the next state is in `Journal.Host`.

  `submit` is two operations.  Its first half is `beginCommit`; the second, `answerCommit`, runs
  when the committer has answered with an error.
-/
import Myelin.Journal.State

namespace Myelin.Journal

open Lib Consensus Session Myelin.Authority Producer

variable (env : JournalEnv)

/-- `interpret`: the application's reading of a committed command. -/
abbrev Interpreter :=
  FinalisedBlockRecord → CommandReceipt → Except String (Option BusinessOutcome)

/-- `build`: the application's work for one command at one head. -/
abbrev Builder := OriginalCommand → SessionHead → BuildDecision

/-- Give the entry of a command another status. -/
def setStatus (id : Hash32) (status : EntryStatus) : List JournalEntry → List JournalEntry
  | [] => []
  | entry :: rest =>
      if entry.id = id then entry.withStatus status :: rest
      else entry :: setStatus id status rest

/-- Give every entry of a reservation another status. -/
def releaseEntries (token : UInt64) (status : EntryStatus) (entries : List JournalEntry) :
    List JournalEntry :=
  entries.map fun entry => if entry.HeldBy token then entry.withStatus status else entry

/-- Move an entry's reservation to another phase. -/
def JournalEntry.rephase (entry : JournalEntry) (phase : ReservationPhase) : JournalEntry :=
  match entry.status with
  | .reserved token _ => entry.withStatus (.reserved token phase)
  | _ => entry

/-- Move the reservation and its entries to another phase. -/
def setPhase (state : State) (phase : ReservationPhase) : State :=
  match state.reservation with
  | none => state
  | some reservation =>
      { state with
        reservation := some { reservation with phase }
        entries := state.entries.map (·.rephase phase) }

/-! ## Queueing -/

/-- Append a command, or find it already there. -/
def enqueue (command : OriginalCommand) (auth : Authenticator) (state : State) :
    Except JournalError (JournalEntry × State) := do
  validateCommand state command
  (auth command).mapError .authentication
  match state.entries.find? (·.id = command.identity.id) with
  | some existing => do
      ensure (existing.original.SameIntent command) .identityConflict
      -- The originally admitted authorization stays, even if a valid retry carries another.
      pure (existing, state)
  | none => do
      ensure (state.entries.length < state.limits.maxEntries)
        (.invalid "journal entry capacity reached; retention must be explicit")
      let entry : JournalEntry := {
        sequence := UInt64.ofNat state.entries.length
        original := command
        authorizationDigest := command.authorizationDigest env.authority.session
        status := .queued }
      pure (entry, { state with entries := state.entries ++ [entry] })

/-- Put a stale command back in the queue. -/
def retryStale (id : Hash32) (state : State) : Except JournalError (Unit × State) := do
  let entry ← findEntry state.entries id
  match entry.status with
  | .stale _ => pure ((), { state with entries := setStatus id .queued state.entries })
  | _ => .error (.conflict "only stale, unsubmitted work may be rebuilt")

/-! ## Reserving -/

/-- Accumulators of `reserve`. -/
structure Selection where
  bytes : Nat
  commandIds : List Hash32
  work : List (List UInt8)

section Reserve

variable (auth : Authenticator) (build : Builder) (head : SessionHead) (limits : JournalLimits)
  (token : UInt64) (maxCommands maxWorkBytes : Nat)

/-- What the application makes of one queued entry. -/
def buildEntry (entry : JournalEntry) : BuildDecision :=
  match auth entry.original with
  | .ok () => build entry.original head
  | .error error => .rejected error

/-- Walk the entries in order; the first that cannot be reserved ends the walk. -/
def reserveEntries : Selection → List JournalEntry → List JournalEntry × Selection
  | selection, [] => ([], selection)
  | selection, entry :: rest =>
      match entry.status with
      | .stale _ => (entry :: rest, selection)
      | .queued =>
          match buildEntry auth build head entry with
          | .stale reason => (entry.withStatus (.stale reason) :: rest, selection)
          | .rejected reason => (entry.withStatus (.rejected reason) :: rest, selection)
          | .ready work =>
              if work = [] ∨ limits.maxCommandBytes < work.length then
                (entry.withStatus (.rejected "empty or oversized reconstructed work") :: rest,
                  selection)
              else
                match (checkedAddSize selection.bytes work.length).filter (· ≤ maxWorkBytes) with
                | none => (entry :: rest, selection)
                | some total =>
                    let selection : Selection := {
                      bytes := total
                      commandIds := selection.commandIds ++ [entry.id]
                      work := selection.work ++ [work] }
                    let entry := entry.withStatus (.reserved token .held)
                    if selection.commandIds.length = maxCommands then (entry :: rest, selection)
                    else
                      let (rest, selection) := reserveEntries selection rest
                      (entry :: rest, selection)
      | .rejected _ | .reserved _ _ | .committed _ _ _ | .identityConflict _ =>
          let (rest, selection) := reserveEntries selection rest
          (entry :: rest, selection)

/-- Reserve queued commands for one candidate on `head`. -/
def reserve (state : State) : Except JournalError (Option Reservation × State) := do
  ensure (head.sessionId = state.scope.sessionId ∧ head.sealedBySuccessor = none ∧
      maxCommands ≠ 0 ∧ maxWorkBytes ≠ 0)
    (.invalid "wrong/sealed construction head or empty reservation limit")
  ensure (state.reservation = none)
    (.conflict "reconcile or release the existing reservation first")
  let constructionHead ← (head.encode env.authority.session).mapError
    fun error => JournalError.invalid error.display
  let (entries, selection) := reserveEntries auth build head state.limits state.nextToken
    maxCommands maxWorkBytes ⟨0, [], []⟩ state.entries
  if selection.commandIds = [] then
    pure (none, { state with entries })
  else do
    let nextToken ← okOr (checkedAdd state.nextToken 1) (.invalid "reservation token overflow")
    let reservation : Reservation := {
      token := state.nextToken
      constructionHead
      commandIds := selection.commandIds
      work := selection.work
      phase := .held
      fencedSubmission := none }
    pure (some reservation, { state with entries, nextToken, reservation := some reservation })

end Reserve

variable (token : UInt64)

/-! ## Submitting -/

/-- Call before the external commit.  Persistence failure means do not submit. -/
def beginCommit (current : SessionHead) (state : State) : Except JournalError (Unit × State) := do
  ensure (state.fencingPolicy = none)
    (.conflict "fenced journal requires a persisted signed authority submission")
  let reservation ← findReservation state token
  reservation.validateBase env current
  ensure (reservation.phase = .held) (.conflict "commit was already started; reconcile")
  pure ((), setPhase state .submitting)

/-- The commit may have happened. -/
def markUnknown (state : State) : Except JournalError (Unit × State) := do
  let reservation ← findReservation state token
  ensure (reservation.phase ≠ .held) (.conflict "commit has not started")
  pure ((), setPhase state .unknown)

/-- The committer's explicit result, separate from journal inclusion. -/
inductive Submission where
  | committed (receipt : ProductionReceipt)
  | stale
  | rejected (reason : String)
  | unknown (message : String)

/-- Second half of `submit`, when the committer reports an error. -/
def answerCommit (error : CommitError) (state : State) : Except JournalError (Submission × State) :=
  match error with
  | .outcomeUnknown message => do
      let (_, state) ← markUnknown token state
      pure (.unknown message, state)
  | .staleCandidate => do
      let _ ← findReservation state token
      pure (.stale, { state with
        entries := releaseEntries token .queued state.entries, reservation := none })
  | .rejected reason => do
      let _ ← findReservation state token
      pure (.rejected reason, { state with
        entries := releaseEntries token (.rejected reason) state.entries, reservation := none })

/-- Only work which has never crossed `begin_commit` can be released. -/
def releaseUnsubmitted (state : State) : Except JournalError (Unit × State) := do
  let reservation ← findReservation state token
  ensure (reservation.phase = .held)
    (.conflict "commit may have happened; Missing does not permit release")
  pure ((), { state with
    entries := releaseEntries token .queued state.entries, reservation := none })

/-! ## Reconciling -/

/-- Status of a committed command, as the application reads it. -/
def interpretReceipt (limit : Nat) (interpret : Interpreter) (record : FinalisedBlockRecord)
    (receipt : CommandReceipt) : Except JournalError EntryStatus := do
  let outcome ← (interpret record receipt).mapError .reconciliation
  ensure (∀ value ∈ outcome, value.len ≤ limit) (.invalid "business result exceeds journal limit")
  pure (.committed receipt outcome false)

/-- A committed command's outcome, or an identity conflict: nothing changes it any more. -/
def EntryStatus.Settled : EntryStatus → Prop
  | .committed _ (some _) _ | .identityConflict _ => True
  | _ => False

instance (status : EntryStatus) : Decidable status.Settled :=
  match status with
  | .committed _ (some _) _ | .identityConflict _ => instDecidableTrue
  | .queued | .stale _ | .rejected _ | .reserved _ _ | .committed _ none _ => instDecidableFalse

/-- What the chain says of an entry that is not settled. -/
def resolveEntry (chain : CommandView) (interpret : Interpreter) (limit : Nat)
    (entry : JournalEntry) : Except JournalError (JournalEntry × Bool) := do
  match ← (chain.commandStatus env.authority.session entry.original.identity).mapError
      chainFailure with
  | .missing => pure (entry, false)
  | .identityConflict receipt => pure (entry.withStatus (.identityConflict receipt), true)
  | .committed receipt => do
      let found ← (chain.commandRecord env.authority.session entry.original.identity).mapError
        chainFailure
      let record ← okOr found (.reconciliation "committed command disappeared")
      let status ← interpretReceipt limit interpret record receipt
      pure (entry.withStatus status, true)

/-- One pass of `reconcile`: the entry, and whether it changed. -/
def reconcileEntry (chain : CommandView) (interpret : Interpreter) (limit : Nat)
    (entry : JournalEntry) : Except JournalError (JournalEntry × Bool) :=
  if entry.status.Settled then .ok (entry, false)
  else resolveEntry env chain interpret limit entry

/-- Whether a command is held by a reservation. -/
def EntryStatus.Held : EntryStatus → Prop
  | .reserved _ _ => True
  | _ => False

instance (status : EntryStatus) : Decidable status.Held := by
  unfold EntryStatus.Held
  split <;> infer_instance

/-- Ask the chain about every entry that is not settled.  Missing commands retain their
    reservation even across restart. -/
def reconcile (chain : CommandView) (interpret : Interpreter) (state : State) :
    Except JournalError (List JournalEntry × State) := do
  ensure (state.fencingPolicy = none)
    (.conflict "fenced journal requires canonical signed observations, not a replica receipt")
  ensure (state.scope = .fromConfig env.authority.session chain.config)
    (.invalid "reconciliation genesis/profile differs")
  let results ← mapResult (reconcileEntry env chain interpret state.limits.maxResultBytes)
    state.entries
  let entries := results.map Prod.fst
  pure ((results.filter Prod.snd).map Prod.fst, { state with
    entries
    reservation := if ∃ entry ∈ entries, entry.status.Held then state.reservation else none })

/-- ACK is local durable response bookkeeping. -/
def acknowledge (id : Hash32) (state : State) : Except JournalError (BusinessOutcome × State) := do
  let entry ← findEntry state.entries id
  match entry.status with
  | .committed receipt (some outcome) _ =>
      pure (outcome, { state with
        entries := setStatus id (.committed receipt (some outcome) true) state.entries })
  | _ => .error (.conflict "no interpreted committed business outcome to acknowledge")

/-! ## Fenced submission -/

/-- Pin the trust policy of a journal that has done nothing yet. -/
def pinPolicy (policy : FencingPolicy) (state : State) : Except JournalError (Unit × State) :=
  match state.fencingPolicy with
  | some existing => do
      ensure (existing = policy) (.invalid "journal fencing policy cannot be replaced")
      pure ((), state)
  | none => do
      ensure (state.entries = [] ∧ state.reservation = none ∧ state.reconciliations = [])
        (.conflict "existing unfenced work requires explicit adoption; no implicit epoch upgrade")
      pure ((), { state with fencingPolicy := some policy })

/-- Persist the exact authenticated request before allowing submission. -/
def beginFencedCommit (policy : FencingPolicy) (grant : WriterGrant)
    (authorization : CommitAuthorization) (request : BlockRequest) (state : State) :
    Except JournalError (FencedSubmission × State) := do
  let reservation ← findReservation state token
  ensure (reservation.phase = .held ∧ reservation.constructionHead = authorization.baseHead)
    (.conflict "fenced commit requires an unsubmitted reservation at the signed head")
  let binding : FencedSubmission :=
    { policy, grant, authorization, commands := request.frameInput.commands }
  binding.validate env state reservation.commandIds
  (authorization.verifyCandidate env.authority policy grant request).mapError reconciliationFailure
  let submitting := setPhase state .submitting
  pure (binding, { submitting with
    reservation := submitting.reservation.map fun r => { r with fencedSubmission := some binding } })

/-- The submission a certificate for this token is about. -/
def fencedBinding (state : State) : Except JournalError FencedSubmission :=
  match state.reservation with
  | some reservation => do
      ensure (reservation.token = token)
        (.conflict "reservation advanced; old evidence cannot release newer work")
      okOr reservation.fencedSubmission (.conflict "submission has no durable epoch binding")
  | none => do
      let recovery ← okOr (state.reconciliations.reverse.find? (·.reservationToken = token))
        (.conflict "unknown fenced reservation")
      pure recovery.submission

/-- Status an observation gives an entry, if it changes it. -/
def observedStatus (canRequeue : Bool) (limit : Nat) (interpret : Interpreter)
    (status : EntryStatus) : VerifiedObservation → Except JournalError (Option EntryStatus)
  | .missing _ =>
      match status with
      | .reserved t _ => .ok (if canRequeue = true ∧ t = token then some .queued else none)
      | _ => .ok none
  | .committed receipt record =>
      match status with
      | .identityConflict _ =>
          .error (.invalid "canonical evidence contradicts retained identity conflict")
      | .committed previous (some _) _ => do
          ensure (previous = receipt) (.invalid "canonical receipt changed")
          pure none
      | .committed previous none _ => do
          ensure (previous = receipt) (.invalid "canonical receipt changed")
          (interpretReceipt limit interpret record receipt).map some
      | .queued | .stale _ | .rejected _ | .reserved _ _ =>
          (interpretReceipt limit interpret record receipt).map some
  | .identityConflict receipt =>
      match status with
      | .committed _ _ _ =>
          .error (.invalid "canonical conflict contradicts retained receipt")
      | _ => .ok (some (.identityConflict receipt))

/-- A committed record must be of the journal's application. -/
def checkProfile (profile : Hash32) : VerifiedObservation → Except JournalError Unit
  | .committed _ record =>
      ensure (record.block.applicationProfileCommitment = profile)
        (.invalid "canonical business record uses a different application profile")
  | .missing _ | .identityConflict _ => .ok ()

/-- One pass of `reconcile_fenced`. -/
def applyObservation (canRequeue : Bool) (profile : Hash32) (limit : Nat) (interpret : Interpreter)
    (entries : List JournalEntry) (observed : VerifiedObservation) :
    Except JournalError (List JournalEntry) := do
  checkProfile profile observed
  let entry ← findEntry entries observed.id
  let status ← observedStatus token canRequeue limit interpret entry.status observed
  pure (match status with
    | some status => setStatus observed.id status entries
    | none => entries)

/-- Whether this certificate is already retained for this reservation. -/
def Retained (recoveries : List FencedRecovery) (token : UInt64) (digest : Hash32) : Prop :=
  ∃ recovery ∈ recoveries, recovery.reservationToken = token ∧
    (recovery.certificate.digest env.authority).toOption = some digest

instance (recoveries : List FencedRecovery) (token : UInt64) (digest : Hash32) :
    Decidable (Retained env recoveries token digest) := by
  unfold Retained
  infer_instance

/-- Keep a certificate that is not retained yet. -/
def retain (limits : JournalLimits) (recovery : FencedRecovery) (digest : Hash32)
    (recoveries : List FencedRecovery) : Except JournalError (List FencedRecovery) :=
  if Retained env recoveries recovery.reservationToken digest then .ok recoveries
  else do
    ensure (recoveries.length < limits.maxEntries)
      (.invalid "fenced recovery evidence retention capacity reached")
    pure (recoveries ++ [recovery])

/-- Apply signed canonical observations, never a caller's `missing` flag. -/
def reconcileFenced (certificate : CommandReconciliation) (interpret : Interpreter)
    (state : State) : Except JournalError (List JournalEntry × State) := do
  let binding ← fencedBinding token state
  let verified ← (certificate.verify env.authority binding.policy binding.authorization
    binding.commands).mapError reconciliationFailure
  let canRequeue := decide (binding.authorization.epoch < certificate.observedEpoch)
  let entries ← verified.foldlM
    (applyObservation token canRequeue state.scope.applicationProfile state.limits.maxResultBytes
      interpret)
    state.entries
  let digest ← (certificate.digest env.authority).mapError reconciliationFailure
  let reconciliations ← retain env state.limits ⟨token, binding, certificate⟩ digest
    state.reconciliations
  -- Every command of the binding has an entry, so the source's `unwrap` finds one for each.
  pure (binding.commands.filterMap fun command => entries.find? (·.id = command.id), { state with
    entries
    reservation := if ∃ entry ∈ entries, entry.HeldBy token then state.reservation else none
    reconciliations })

/-! ## All of them -/

/-- The calls that may change the state. -/
inductive Operation where
  | enqueue (command : OriginalCommand) (auth : Authenticator)
  | retryStale (id : Hash32)
  | reserve (head : SessionHead) (maxCommands maxWorkBytes : Nat) (auth : Authenticator)
      (build : Builder)
  | beginCommit (token : UInt64) (current : SessionHead)
  | markUnknown (token : UInt64)
  | releaseUnsubmitted (token : UInt64)
  | reconcile (chain : CommandView) (interpret : Interpreter)
  | acknowledge (id : Hash32)
  | beginFencedCommit (token : UInt64) (policy : FencingPolicy) (grant : WriterGrant)
      (authorization : CommitAuthorization) (request : BlockRequest)
  | reconcileFenced (token : UInt64) (certificate : CommandReconciliation) (interpret : Interpreter)

/-- The next state a call asks for. -/
def Operation.apply (env : JournalEnv) (operation : Operation) (state : State) :
    Except JournalError State :=
  match operation with
  | .enqueue command auth => (Journal.enqueue env command auth state).map Prod.snd
  | .retryStale id => (Journal.retryStale id state).map Prod.snd
  | .reserve head maxCommands maxWorkBytes auth build =>
      (Journal.reserve env auth build head maxCommands maxWorkBytes state).map Prod.snd
  | .beginCommit token current => (Journal.beginCommit env token current state).map Prod.snd
  | .markUnknown token => (Journal.markUnknown token state).map Prod.snd
  | .releaseUnsubmitted token => (Journal.releaseUnsubmitted token state).map Prod.snd
  | .reconcile chain interpret => (Journal.reconcile env chain interpret state).map Prod.snd
  | .acknowledge id => (Journal.acknowledge id state).map Prod.snd
  | .beginFencedCommit token policy grant authorization request =>
      (Journal.beginFencedCommit env token policy grant authorization request state).map Prod.snd
  | .reconcileFenced token certificate interpret =>
      (Journal.reconcileFenced env token certificate interpret state).map Prod.snd

/-- What asks for a next state: a call, or the committer's answer to a `submit` call. -/
inductive Request where
  | call (operation : Operation)
  | answer (token : UInt64) (error : CommitError)

/-- The next state a request asks for. -/
def Request.apply (env : JournalEnv) (request : Request) (state : State) :
    Except JournalError State :=
  match request with
  | .call operation => operation.apply env state
  | .answer token error => (answerCommit token error state).map Prod.snd

end Myelin.Journal
