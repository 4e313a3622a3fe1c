/-
  Durability of the command journal.

  While a journal is healthy, what it holds in memory is what stands on disk; everything ever
  written can be read back; and nothing happens to a journal whose last write failed.  All three
  rest on `update` being the only writer and on `validate_of_update`: a state that was validated
  against a valid one is valid by itself.
-/
import Myelin.Journal.Host
import Myelin.Journal.Moves

namespace Myelin.Journal

open Lib Consensus Session Myelin.Authority Producer
open CommandJournal hiding state db

variable {α : Type} {f : State → Except JournalError (α × State)} {write : WriteOutcome}
  {message : String} {error : JournalError} {bytes : List UInt8} {host : Host}
  {result : Except JournalError CommandJournal × Database}

/-! ## Only a write reports a storage error -/

/-- Whether an error is the storage's. -/
def JournalError.IsStorage : JournalError → Prop
  | .storage _ => True
  | _ => False

/-- Whatever fails, it is not the storage. -/
abbrev NoStorage {α : Type} (x : Except JournalError α) : Prop := Avoids JournalError.IsStorage x

section Avoids

variable (env : JournalEnv) (state : State)

lemma validateStatus_avoids (entry : JournalEntry) : NoStorage (validateStatus state entry) := by
  unfold validateStatus
  split
  · exact .need id fun _ => avoids_ensure id
  · exact avoids_ensure id
  · exact avoids_ensure id
  all_goals exact avoids_ok ()

lemma validateEntries_avoids (index : Nat) (ids : List Hash32) (entries : List JournalEntry) :
    NoStorage (validateEntries env state index ids entries) := by
  induction entries generalizing index ids with
  | nil => exact avoids_ok ()
  | cons entry rest ih =>
    refine .check id <| .check id ?_
    exact (validateStatus_avoids state entry).bind fun _ => ih _ _

lemma FencedSubmission.validateStructure_avoids (submission : FencedSubmission)
    (ids : List Hash32) : NoStorage (submission.validateStructure state ids) :=
  .check id <| avoids_ensure id

lemma FencedSubmission.validate_avoids (submission : FencedSubmission) (ids : List Hash32) :
    NoStorage (submission.validate env state ids) :=
  (submission.validateStructure_avoids state ids).bind fun _ => avoids_mapError fun _ => id

lemma validateReservation_avoids (reservation : Reservation) :
    NoStorage (validateReservation env state reservation) := by
  refine (avoids_mapError fun _ => id).bind fun _ => .check id ?_
  split
  · exact avoids_pure ()
  · next binding _ => exact (binding.validate_avoids env state _).bind fun _ => avoids_ensure id

lemma validateRecovery_avoids (previous : Option State) (index : Nat)
    (bindings : UInt64 → Option Hash32) (recovery : FencedRecovery) :
    NoStorage (validateRecovery env state previous index bindings recovery) := by
  have hevidence : NoStorage (checkEvidence env state previous index recovery) := by
    unfold checkEvidence
    split
    · exact avoids_ok ()
    · exact (avoids_mapError fun _ => id).bind fun _ => (avoids_mapError fun _ => id).bind fun _ =>
        avoids_pure ()
  refine .check id ?_
  refine (recovery.submission.validateStructure_avoids state _).bind fun _ => hevidence.bind fun _ => ?_
  exact (avoids_mapError fun _ => id).bind fun _ => .check id <| avoids_pure _

lemma validateRecoveryList_avoids (previous : Option State) (index : Nat)
    (bindings : UInt64 → Option Hash32) (recoveries : List FencedRecovery) :
    NoStorage (validateRecoveryList env state previous index bindings recoveries) := by
  induction recoveries generalizing index bindings with
  | nil => exact avoids_ok ()
  | cons recovery rest ih =>
    exact (validateRecovery_avoids env state previous index bindings recovery).bind fun _ => ih _ _

lemma validateUpdate_avoids (previous : Option State) :
    NoStorage (validateUpdate env state previous) := by
  have hbody : NoStorage (validateBody env state) := by
    refine .check id <| .check id ?_
    refine (validateEntries_avoids env state 0 [] state.entries).bind fun _ => ?_
    split
    · exact avoids_pure ()
    · exact validateReservation_avoids env state _
  refine hbody.bind fun _ => .check id <| .check id ?_
  exact validateRecoveryList_avoids env state previous 0 _ _

lemma journalBytes_avoids : NoStorage (journalBytes env state) :=
  (avoids_mapError fun _ => id).bind fun _ => .check id <| avoids_pure _

lemma markUnknown_avoids (token : UInt64) : NoStorage (markUnknown token state) :=
  .need id fun _ => .check id <| avoids_pure _

lemma beginCommit_avoids (token : UInt64) (current : SessionHead) :
    NoStorage (beginCommit env token current state) := by
  refine .check id <| .need id fun reservation => ?_
  refine Avoids.bind ?_ fun _ => .check id <| avoids_pure _
  exact (avoids_mapError fun _ => id).bind fun _ => avoids_ensure id

lemma answerCommit_avoids (token : UInt64) (error : CommitError) :
    NoStorage (answerCommit token error state) := by
  cases error with
  | outcomeUnknown => exact (markUnknown_avoids state token).bind fun _ => avoids_pure _
  | staleCandidate | rejected => exact .need id fun _ => avoids_pure _

lemma interpretReceipt_avoids (limit : Nat) (interpret : Interpreter)
    (record : FinalisedBlockRecord) (receipt : CommandReceipt) :
    NoStorage (interpretReceipt limit interpret record receipt) :=
  (avoids_mapError fun _ => id).bind fun _ => .check id <| avoids_pure _

lemma reconcileEntry_avoids (chain : CommandView) (interpret : Interpreter) (limit : Nat)
    (entry : JournalEntry) : NoStorage (reconcileEntry env chain interpret limit entry) := by
  unfold reconcileEntry
  split
  · exact avoids_ok _
  · refine (avoids_mapError fun _ => id).bind fun status => ?_
    cases status with
    | missing | identityConflict => exact avoids_pure _
    | committed receipt =>
      refine (avoids_mapError fun _ => id).bind fun _ => .need id fun record => ?_
      exact (interpretReceipt_avoids limit interpret record receipt).bind fun _ => avoids_pure _

lemma observedStatus_avoids (token : UInt64) (canRequeue : Bool) (limit : Nat)
    (interpret : Interpreter) (status : EntryStatus) (observed : VerifiedObservation) :
    NoStorage (observedStatus token canRequeue limit interpret status observed) := by
  have hinterpret : ∀ record receipt, NoStorage
      ((interpretReceipt limit interpret record receipt).map some) :=
    fun record receipt => (interpretReceipt_avoids limit interpret record receipt).map some
  unfold observedStatus
  split
  · split <;> exact avoids_ok _
  · split
    · exact avoids_error id
    · exact .check id <| avoids_pure _
    · exact .check id <| hinterpret _ _
    all_goals exact hinterpret _ _
  · split
    · exact avoids_error id
    · exact avoids_ok _

lemma applyObservation_avoids (token : UInt64) (canRequeue : Bool) (profile : Hash32)
    (limit : Nat) (interpret : Interpreter) (entries : List JournalEntry)
    (observed : VerifiedObservation) :
    NoStorage (applyObservation token canRequeue profile limit interpret entries observed) := by
  refine Avoids.bind ?_ fun _ => .need id fun entry => ?_
  · cases observed with
    | committed => exact avoids_ensure id
    | missing | identityConflict => exact avoids_ok ()
  · exact (observedStatus_avoids token canRequeue limit interpret _ observed).bind fun _ =>
      avoids_pure _

lemma reconcileFenced_avoids (token : UInt64) (certificate : CommandReconciliation)
    (interpret : Interpreter) :
    NoStorage (reconcileFenced env token certificate interpret state) := by
  have hbinding : NoStorage (fencedBinding token state) := by
    unfold fencedBinding
    split
    · exact .check id <| avoids_okOr id
    · exact .need id fun _ => avoids_pure _
  have hretain : ∀ recovery digest,
      NoStorage (retain env state.limits recovery digest state.reconciliations) := by
    intro recovery digest
    unfold retain
    split
    · exact avoids_ok _
    · exact .check id <| avoids_pure _
  refine hbinding.bind fun binding => (avoids_mapError fun _ => id).bind fun verified => ?_
  refine (avoids_foldlM (applyObservation_avoids _ _ _ _ _) _ _).bind fun entries => ?_
  exact (avoids_mapError fun _ => id).bind fun _ => (hretain _ _).bind fun _ => avoids_pure _

/-- No operation fails with a storage error of its own. -/
lemma Operation.apply_avoids (operation : Operation) : NoStorage (operation.apply env state) := by
  cases operation with
  | enqueue command auth =>
    refine Avoids.map ?_ _
    refine .check id <| (avoids_mapError fun _ => id).bind fun _ => ?_
    split
    · exact .check id <| avoids_pure _
    · exact .check id <| avoids_pure _
  | retryStale id' =>
    refine Avoids.map (.need id fun entry => ?_) _
    split
    · exact avoids_pure _
    · exact avoids_error id
  | reserve head maxCommands maxWorkBytes auth build =>
    refine Avoids.map ?_ _
    refine .check id <| .check id ?_
    refine (avoids_mapError fun _ => id).bind fun _ => ?_
    dsimp only
    split
    · exact avoids_pure _
    · exact .need id fun _ => avoids_pure _
  | beginCommit token current => exact (beginCommit_avoids env state token current).map _
  | markUnknown token => exact (markUnknown_avoids state token).map _
  | releaseUnsubmitted token =>
    refine Avoids.map ?_ _
    exact .need id fun _ => .check id <| avoids_pure _
  | reconcile chain interpret =>
    refine Avoids.map ?_ _
    refine .check id <| .check id ?_
    exact (avoids_mapResult (reconcileEntry_avoids env chain interpret _) _).bind fun _ =>
      avoids_pure _
  | acknowledge id' =>
    refine Avoids.map (.need id fun entry => ?_) _
    split
    · exact avoids_pure _
    · exact avoids_error id
  | beginFencedCommit token policy grant authorization request =>
    refine Avoids.map ?_ _
    refine .need id fun reservation => .check id ?_
    refine (FencedSubmission.validate_avoids env state _ _).bind fun _ => ?_
    exact (avoids_mapError fun _ => id).bind fun _ => avoids_pure _
  | reconcileFenced token certificate interpret =>
    exact (reconcileFenced_avoids env state token certificate interpret).map _

lemma Request.apply_avoids (request : Request) : NoStorage (request.apply env state) := by
  cases request with
  | call operation => exact operation.apply_avoids env state
  | answer token error => exact (answerCommit_avoids state token error).map _

end Avoids

/-! ## What one update does -/

namespace CommandJournal

lemma locked_eq_ok {journal : CommandJournal} {state : State} :
    journal.locked = .ok state ↔ journal.Healthy ∧ state = journal.state := by
  simp only [locked, Healthy, eq_ok, and_assoc]
  constructor
  · rintro ⟨hpoison, hwrite, hstate⟩
    exact ⟨hwrite, hpoison, hstate.symm⟩
  · rintro ⟨hwrite, hpoison, hstate⟩
    exact ⟨hpoison, hwrite, hstate.symm⟩

/-- The ways an update can end. -/
inductive Updated {α : Type} (env : JournalEnv) (f : State → Except JournalError (α × State))
    (journal : CommandJournal) : WriteOutcome → Except JournalError α × CommandJournal → Prop where
  /-- The journal was not healthy. -/
  | blocked {write : WriteOutcome} {error : JournalError} (hill : ¬journal.Healthy) :
      Updated env f journal write (.error error, journal)
  /-- The operation, or the validation of its result, failed. -/
  | refused {write : WriteOutcome} {error : JournalError} (h : f journal.state = .error error ∨
        ∃ next, encodeUpdate env journal.state next = .error error) :
      Updated env f journal write (.error error, journal)
  /-- There was nothing to write. -/
  | unchanged {write : WriteOutcome} {result : α} (hhealthy : journal.Healthy)
      (h : f journal.state = .ok (result, journal.state)) :
      Updated env f journal write (.ok result, journal)
  | stored {result : α} {next : State} {bytes : List UInt8} (hhealthy : journal.Healthy)
      (h : f journal.state = .ok (result, next))
      (hbytes : encodeUpdate env journal.state next = .ok bytes) :
      Updated env f journal .done
        (.ok result, { journal with db := journal.db.persist .done bytes, state := next })
  /-- The write failed, with or without effect. -/
  | uncertain {result : α} {next : State} {bytes : List UInt8} {message : String} {effect : Bool}
      (hhealthy : journal.Healthy) (h : f journal.state = .ok (result, next))
      (hbytes : encodeUpdate env journal.state next = .ok bytes) :
      Updated env f journal (.failed message effect) (.error (.storage message),
        { journal with
          db := journal.db.persist (.failed message effect) bytes, recoveryRequired := true })

lemma updated (env : JournalEnv) (write : WriteOutcome)
    (f : State → Except JournalError (α × State)) (journal : CommandJournal) :
    Updated env f journal write (journal.update env write f) := by
  unfold update
  cases hlocked : journal.locked with
  | error error =>
    refine .blocked fun hhealthy => ?_
    rw [locked_eq_ok.mpr ⟨hhealthy, rfl⟩] at hlocked
    cases hlocked
  | ok state =>
    obtain ⟨hhealthy, rfl⟩ := locked_eq_ok.mp hlocked
    rw [show Except.ok journal.state >>= f = f journal.state from rfl]
    cases hf : f journal.state with
    | error error => exact .refused (.inl hf)
    | ok pair =>
      obtain ⟨result, next⟩ := pair
      dsimp only
      split
      · next hsame =>
        subst hsame
        exact .unchanged hhealthy hf
      · cases hbytes : encodeUpdate env journal.state next with
        | error error => exact .refused (.inr ⟨next, hbytes⟩)
        | ok bytes =>
          cases write with
          | done => exact .stored hhealthy hf hbytes
          | failed message effect => exact .uncertain hhealthy hf hbytes

end CommandJournal

/-- Either nothing was written, or the record of attempted writes shows it. -/
def Database.Grows (db next : Database) : Prop :=
  next = db ∨ db.record.written.length < next.record.written.length

lemma Database.Grows.trans {db middle : Database} (h₁ : db.Grows middle)
    (h₂ : middle.Grows next) : db.Grows next := by
  rcases h₁ with rfl | h₁
  · exact h₂
  · rcases h₂ with rfl | h₂
    · exact .inr h₁
    · exact .inr (Nat.lt_trans h₁ h₂)

lemma Database.Grows.eq {db next : Database} (h : db.Grows next)
    (hwritten : next.record.written = db.record.written) : next = db := by
  rcases h with rfl | h
  · rfl
  · rw [hwritten] at h
    exact absurd h (Nat.lt_irrefl _)

lemma Database.grows_persist (db : Database) (write : WriteOutcome) (bytes : List UInt8) :
    db.Grows (db.persist write bytes) :=
  .inr (Nat.lt_succ_self _)

namespace CommandJournal.Updated

variable {env : JournalEnv} {journal : CommandJournal}
  {result : Except JournalError α × CommandJournal}

section

variable (h : Updated env f journal write result)
include h

/-- An ill journal refuses every request. -/
lemma of_ill (hill : ¬journal.Healthy) : ∃ error, result = (.error error, journal) := by
  cases h with
  | blocked | refused => exact ⟨_, rfl⟩
  | unchanged hhealthy | stored hhealthy | uncertain hhealthy => exact absurd hhealthy hill

/-- A storage error is reported by an ill journal, or leaves an ill one behind. -/
lemma ill (hf : NoStorage (f journal.state))
    (hstorage : result.1 = .error (.storage message)) : ¬result.2.Healthy := by
  cases h with
  | blocked hill => exact hill
  | refused hrefused =>
    cases hstorage
    rcases hrefused with hrequest | ⟨state, hencode⟩
    · exact absurd trivial (hf _ hrequest)
    · have havoids : NoStorage (encodeUpdate env journal.state state) :=
        (validateUpdate_avoids env state _).bind fun _ => journalBytes_avoids env state
      exact absurd trivial (havoids _ hencode)
  | unchanged | stored => cases hstorage
  | uncertain => exact fun hhealthy => Bool.noConfusion (show true = false from hhealthy.1)

lemma grows : journal.db.Grows result.2.db := by
  cases h with
  | blocked | refused | unchanged => exact .inl rfl
  | stored | uncertain => exact Database.grows_persist _ _ _

/-- An update that fails without a write leaves the journal as it was. -/
lemma quiet (hfailed : result.1 = .error error)
    (hwritten : result.2.db.record.written = journal.db.record.written) : result.2 = journal := by
  cases h with
  | blocked | refused | unchanged => rfl
  | stored => cases hfailed
  | uncertain => exact absurd hwritten (List.cons_ne_self _ _)

end

end CommandJournal.Updated

lemma Query.run_of_ill {journal : CommandJournal} (hill : ¬journal.Healthy) (query : Query) :
    ∃ error, query.run journal = .error error := by
  cases hok : query.run journal with
  | error error => exact ⟨error, rfl⟩
  | ok answer =>
    refine absurd ?_ hill
    cases query <;>
      simp only [Query.run, CommandJournal.entry, CommandJournal.entries,
        CommandJournal.activeReservation, CommandJournal.fencedRecoveries, map_eq_ok, eq_ok,
        locked_eq_ok] at hok
    case entry => exact hok.choose_spec.1.choose_spec.1.1
    case entries => exact hok.choose_spec.1.2.choose_spec.1.1
    case activeReservation => exact hok.choose_spec.1.choose_spec.1.1
    case fencedRecoveries => exact hok.choose_spec.1.2.choose_spec.1.1

lemma Query.ill_of_storage {journal : CommandJournal} {query : Query}
    (h : query.run journal = .error (.storage message)) : ¬journal.Healthy := by
  intro hhealthy
  have hlocked := locked_eq_ok.mpr ⟨hhealthy, rfl⟩
  have havoids : NoStorage (query.run journal) := by
    cases query with
    | entry id =>
      simp only [Query.run, CommandJournal.entry, hlocked]
      exact Avoids.map (avoids_ok _) _
    | entries startSequence limit =>
      simp only [Query.run, CommandJournal.entries, hlocked]
      refine Avoids.map ?_ _
      exact .check id <| avoids_ok _
    | activeReservation =>
      simp only [Query.run, CommandJournal.activeReservation, hlocked]
      exact Avoids.map (avoids_ok _) _
    | fencedRecoveries start limit =>
      simp only [Query.run, CommandJournal.fencedRecoveries, hlocked]
      refine Avoids.map ?_ _
      exact .check id <| avoids_ok _
  exact havoids _ h trivial

/-! ## What is on disk -/

section Sound

variable (env : JournalEnv) (config : SessionConfig) (limits : JournalLimits)

/-- The record of a valid state of this session's journal. -/
structure Accepted (bytes : List UInt8) (state : State) : Prop where
  checked : checkOpen config limits = .ok ()
  encoded : journalBytes env state = .ok bytes
  valid : validate env state = .ok ()
  scope : state.scope = .fromConfig env.authority.session config
  limits : state.limits = limits

/-- Everything ever written is acceptable, and nothing else is on disk. -/
def Database.Sound (db : Database) : Prop :=
  db.record.Sourced ∧ ∀ bytes ∈ db.record.written, ∃ state, Accepted env config limits bytes state

/-- Unless a write failed, memory is what is on disk. -/
structure CommandJournal.Sound (journal : CommandJournal) : Prop where
  database : journal.db.Sound env config limits
  synced : journal.recoveryRequired = false → ∃ bytes, journal.db.record.value = some bytes ∧
      Accepted env config limits bytes journal.state

/-- Soundness of a host, open or closed. -/
def Host.Sound : Host → Prop
  | .closed db => db.Sound env config limits
  | .running journal _ => journal.Sound env config limits

variable {env config limits} {db : Database} {journal : CommandJournal}

lemma Database.Sound.persist (h : db.Sound env config limits)
    (hnew : Accepted env config limits bytes state) (write : WriteOutcome) :
    (db.persist write bytes).Sound env config limits :=
  ⟨h.1.put write bytes, List.forall_mem_cons.mpr ⟨⟨state, hnew⟩, h.2⟩⟩

/-- An operation keeps the scope and the limits of a valid state. -/
def Keeps {α : Type} (env : JournalEnv) (f : State → Except JournalError (α × State)) : Prop :=
  ∀ state a next, validate env state = .ok () → f state = .ok (a, next) →
    next.scope = state.scope ∧ next.limits = state.limits

/-- What an update writes is acceptable. -/
lemma Accepted.next {state next : State} (h : Accepted env config limits old state)
    (hbytes : encodeUpdate env state next = .ok bytes)
    (hkept : next.scope = state.scope ∧ next.limits = state.limits) :
    Accepted env config limits bytes next := by
  simp only [encodeUpdate, eq_ok] at hbytes
  exact ⟨h.checked, hbytes.2, validate_of_update h.valid hbytes.1, hkept.1.trans h.scope,
    hkept.2.trans h.limits⟩

lemma CommandJournal.Sound.updated {result : Except JournalError α × CommandJournal}
    (h : journal.Sound env config limits) (hf : Keeps env f)
    (hresult : Updated env f journal write result) : result.2.Sound env config limits := by
  cases hresult with
  | blocked | refused | unchanged => exact h
  | stored hhealthy hnext hbytes =>
    obtain ⟨old, -, hold⟩ := h.synced hhealthy.1
    have hnew := hold.next hbytes (hf _ _ _ hold.valid hnext)
    exact ⟨h.database.persist hnew .done, fun _ => ⟨_, rfl, hnew⟩⟩
  | uncertain hhealthy hnext hbytes =>
    obtain ⟨old, -, hold⟩ := h.synced hhealthy.1
    have hnew := hold.next hbytes (hf _ _ _ hold.valid hnext)
    exact ⟨h.database.persist hnew _, nofun⟩

lemma keeps_request (request : Request) :
    Keeps env fun state => (request.apply env state).map fun next => ((), next) := by
  intro state _ next hvalid h
  obtain ⟨_, happly, hpair⟩ := map_eq_ok.mp h
  cases hpair
  have hchange := request.change hvalid happly
  exact ⟨hchange.scope, hchange.limits⟩

lemma keeps_pinPolicy (policy : FencingPolicy) : Keeps env (pinPolicy policy) := by
  intro state _ next _ h
  unfold pinPolicy at h
  split at h <;> simp only [eq_ok, Prod.mk.injEq, true_and] at h<;>
    obtain ⟨-, rfl⟩ := h <;> exact ⟨rfl, rfl⟩

lemma Host.Sound.database (h : host.Sound env config limits) : host.db.Sound env config limits := by
  cases host with
  | closed db => exact h
  | running journal calls => exact Sound.database h

/-! ## Opening -/

lemma Accepted.read (hjson : env.RoundTrips) (h : Accepted env config limits bytes state) :
    readRecord env config limits bytes = .ok state := by
  simp only [readRecord, eq_ok]
  exact ⟨state, decode_journalBytes hjson h.encoded h.valid, ⟨h.scope, h.limits⟩, rfl⟩

/-- Reopening accepts an acceptable record. -/
lemma Accepted.open (hjson : env.RoundTrips) (h : Accepted env config limits bytes state)
    (hvalue : db.record.value = some bytes) (write : WriteOutcome) :
    CommandJournal.open env config limits write db = (.ok ⟨db, state, false, false⟩, db) := by
  simp only [CommandJournal.open, h.checked, hvalue, h.read hjson]

variable (env config limits db) in
/-- The ways an opening can end. -/
inductive Opened : Except JournalError CommandJournal × Database → Prop where
  | refused (error : JournalError) : Opened (.error error, db)
  | found {bytes : List UInt8} {state : State} (hvalue : db.record.value = some bytes)
      (hread : readRecord env config limits bytes = .ok state) :
      Opened (.ok ⟨db, state, false, false⟩, db)
  | created {bytes : List UInt8} (hempty : db.record.value = none)
      (hnew : Accepted env config limits bytes
        (.initial (.fromConfig env.authority.session config) limits)) :
      Opened (.ok ⟨db.persist .done bytes,
        .initial (.fromConfig env.authority.session config) limits, false, false⟩,
        db.persist .done bytes)
  /-- The first write failed, with or without effect. -/
  | uncertain {bytes : List UInt8} {message : String} {effect : Bool}
      (hempty : db.record.value = none)
      (hnew : Accepted env config limits bytes
        (.initial (.fromConfig env.authority.session config) limits)) :
      Opened (.error (.storage message), db.persist (.failed message effect) bytes)

lemma CommandJournal.opened (write : WriteOutcome) (db : Database) :
    Opened env config limits db (CommandJournal.open env config limits write db) := by
  unfold CommandJournal.open
  cases hchecked : checkOpen config limits with
  | error error => exact .refused error
  | ok =>
    dsimp only
    cases hvalue : db.record.value with
    | some bytes =>
      cases hread : readRecord env config limits bytes with
      | error error => simpa only [hread] using .refused error
      | ok state => simpa only [hread] using .found hvalue hread
    | none =>
      cases hcreate : createRecord env config limits db with
      | error error => exact .refused error
      | ok bytes =>
        simp only [createRecord, eq_ok] at hcreate
        have hnew : Accepted env config limits bytes
            (.initial (.fromConfig env.authority.session config) limits) :=
          ⟨hchecked, hcreate.2.2, hcreate.2.1, rfl, rfl⟩
        cases write with
        | done => exact .created hvalue hnew
        | failed message effect => exact .uncertain hvalue hnew

lemma Opened.db_eq (h : Opened env config limits db (.ok journal, next)) : journal.db = next := by
  cases h <;> rfl

lemma Opened.sound_db (h : Opened env config limits db result)
    (hdb : db.Sound env config limits) : result.2.Sound env config limits := by
  cases h with
  | refused | found => exact hdb
  | created _ hnew => exact hdb.persist hnew .done
  | uncertain _ hnew => exact hdb.persist hnew _

lemma Opened.sound (h : Opened env config limits db (.ok journal, next)) (hjson : env.RoundTrips)
    (hdb : db.Sound env config limits) : journal.Sound env config limits := by
  cases h with
  | @found bytes _ hvalue hread =>
    obtain ⟨state, haccepted⟩ := hdb.2 bytes (hdb.1 bytes hvalue)
    cases (haccepted.read hjson).symm.trans hread
    exact ⟨hdb, fun _ => ⟨bytes, hvalue, haccepted⟩⟩
  | @created bytes _ hnew => exact ⟨hdb.persist hnew .done, fun _ => ⟨bytes, rfl, hnew⟩⟩

variable (env config limits db) in
/-- The ways a start can end: no journal is open, or one runs, with its policy pinned if one was
    given. -/
inductive Host.Started : Except JournalError Unit × Host → Prop where
  | refused {error : JournalError} {next : Database}
      (h : Opened env config limits db (.error error, next)) :
      Host.Started (.error error, .closed next)
  | opened {journal : CommandJournal} (h : Opened env config limits db (.ok journal, journal.db)) :
      Host.Started (.ok (), .running journal [])
  | unpinned {journal next : CommandJournal} {policy : FencingPolicy} {pin : WriteOutcome}
      {error : JournalError} (h : Opened env config limits db (.ok journal, journal.db))
      (hpin : CommandJournal.Updated env (pinPolicy policy) journal pin (.error error, next)) :
      Host.Started (.error error, .closed next.db)
  | pinned {journal next : CommandJournal} {policy : FencingPolicy} {pin : WriteOutcome}
      (h : Opened env config limits db (.ok journal, journal.db))
      (hpin : CommandJournal.Updated env (pinPolicy policy) journal pin (.ok (), next)) :
      Host.Started (.ok (), .running next [])

lemma Host.started (policy : Option FencingPolicy) (create pin : WriteOutcome) (db : Database) :
    Host.Started env config limits db (Host.start env config limits policy create pin db) := by
  have hopen : Opened env config limits db (CommandJournal.open env config limits create db) :=
    opened create db
  unfold Host.start openFenced
  generalize CommandJournal.open env config limits create db = opened at hopen ⊢
  obtain ⟨error | journal, middle⟩ := opened
  · cases policy with
    | none => exact .refused hopen
    | some policy =>
      dsimp only [ensure]
      split_ifs
      · exact .refused hopen
      · exact .refused (.refused _)
  · obtain rfl := hopen.db_eq
    cases policy with
    | none => exact .opened hopen
    | some policy =>
      have hpin := updated env pin (pinPolicy policy) journal
      dsimp only [ensure]
      generalize journal.update env pin (pinPolicy policy) = updated at hpin ⊢
      split_ifs
      · obtain ⟨error | ⟨⟩, next⟩ := updated
        · exact .unpinned hopen hpin
        · exact .pinned hopen hpin
      · exact .refused (.refused _)

lemma Host.Started.sound {result : Except JournalError Unit × Host}
    (h : Host.Started env config limits db result) (hjson : env.RoundTrips)
    (hdb : db.Sound env config limits) : result.2.Sound env config limits := by
  cases h with
  | refused h => exact h.sound_db hdb
  | opened h => exact h.sound hjson hdb
  | @unpinned _ _ policy _ _ h hpin =>
    exact ((h.sound hjson hdb).updated (keeps_pinPolicy policy) hpin).database
  | @pinned _ _ policy _ h hpin =>
    exact (h.sound hjson hdb).updated (keeps_pinPolicy policy) hpin

/-! ## Whole runs -/

/-- Whether an event opens the journal. -/
def Event.IsOpen : Event → Prop
  | .open _ _ _ => True
  | _ => False

/-- Whether an event is a call that needs the journal.  A `submit` call whose commit succeeded only
    returns the receipt. -/
def Event.IsCall : Event → Prop
  | .read _ | .operate _ _ | .submit _ _ _ | .answer _ (.error _) _ => True
  | .open _ _ _ | .close | .panic | .answer _ (.ok _) _ => False

/-- The request an event makes of an open journal. -/
inductive Event.Asks (calls : List UInt64) : Event → Request → Prop where
  | operate (operation : Operation) (write : WriteOutcome) :
      Asks calls (.operate operation write) (.call operation)
  | submit (token : UInt64) (current : SessionHead) (write : WriteOutcome) :
      Asks calls (.submit token current write) (.call (.beginCommit token current))
  | answer (token : UInt64) (error : CommitError) (write : WriteOutcome) (h : token ∈ calls) :
      Asks calls (.answer token (.error error) write) (.answer token error)

variable (env config limits) in
/-- What an event does to a host. -/
inductive Host.Stepped (event : Event) : Host → Except JournalError Unit × Host → Prop where
  | started {db : Database} {result : Except JournalError Unit × Host} (hopen : event.IsOpen)
      (hcall : ¬event.IsCall) (h : Host.Started env config limits db result) :
      Host.Stepped event (.closed db) result
  | down {db : Database} {error : JournalError} (hopen : ¬event.IsOpen) :
      Host.Stepped event (.closed db) (.error error, .closed db)
  | closed {journal : CommandJournal} {calls : List UInt64} (hcall : ¬event.IsCall) :
      Host.Stepped event (.running journal calls) (.ok (), .closed journal.db)
  | panicked {journal : CommandJournal} {calls : List UInt64} (hcall : ¬event.IsCall) :
      Host.Stepped event (.running journal calls)
        (.ok (), .running { journal with poisoned := true } calls)
  /-- Nothing is asked of the state; a query is answered by a healthy journal only. -/
  | kept {journal : CommandJournal} {calls after : List UInt64} {result : Except JournalError Unit}
      (hcall : event.IsCall → (¬journal.Healthy → ∃ error, result = .error error) ∧
        ∀ message, result = .error (.storage message) → ¬journal.Healthy) :
      Host.Stepped event (.running journal calls) (result, .running journal after)
  | asked {journal : CommandJournal} {calls after : List UInt64} {request : Request}
      {write : WriteOutcome} {result : Except JournalError Unit × CommandJournal}
      (hasks : event.Asks calls request)
      (h : CommandJournal.Updated env
        (fun state => (request.apply env state).map fun next => ((), next)) journal write result) :
      Host.Stepped event (.running journal calls) (result.1, .running result.2 after)

lemma Host.stepped (event : Event) (host : Host) :
    Host.Stepped env config limits event host (host.step env config limits event) := by
  cases host with
  | closed db =>
    cases event with
    | «open» policy create pin => exact .started trivial id (Host.started policy create pin db)
    | _ => exact .down id
  | running journal calls =>
    cases event with
    | «open» => exact .kept nofun
    | close => exact .closed id
    | panic => exact .panicked id
    | read query =>
      exact .kept fun _ => ⟨fun hill => query.run_of_ill hill, fun _ => Query.ill_of_storage⟩
    | operate operation write =>
      exact .asked (.operate operation write) (updated env write _ journal)
    | submit token current write =>
      exact .asked (.submit token current write) (updated env write _ journal)
    | answer token result write =>
      cases result with
      | ok =>
        simp only [Host.step, Host.call]
        split <;> exact .kept nofun
      | error error =>
        simp only [Host.step, Host.call]
        split
        · next hflight =>
          exact .asked (.answer token error write hflight) (updated env write _ journal)
        · exact .kept fun _ => ⟨fun _ => ⟨_, rfl⟩, nofun⟩

lemma Host.Stepped.sound {result : Except JournalError Unit × Host}
    (h : Host.Stepped env config limits event host result) (hjson : env.RoundTrips)
    (hhost : host.Sound env config limits) : result.2.Sound env config limits := by
  cases h with
  | started _ _ hstarted => exact hstarted.sound hjson hhost
  | down | kept => exact hhost
  | closed => exact Sound.database hhost
  | panicked => exact ⟨hhost.database, hhost.synced⟩
  | @asked _ _ _ request _ _ _ hupdated =>
    exact Sound.updated hhost (keeps_request request) hupdated

/-- Soundness holds along every run. -/
lemma Host.run_sound (hjson : env.RoundTrips) (h : host.Sound env config limits)
    (events : List Event) : (host.run env config limits events).Sound env config limits :=
  List.foldlRecOn events _ h fun _ hhost event _ => (Host.stepped event _).sound hjson hhost

/-- A directory in which no journal was ever opened. -/
lemma Database.sound_fresh (otherKeys : Bool) :
    Database.Sound env config limits ⟨.empty, otherKeys⟩ :=
  ⟨Slot.sourced_empty, nofun⟩

end Sound

/-! ## After a storage error -/

/-- The open journal of a host. -/
def Host.journal : Host → Option CommandJournal
  | .closed _ => none
  | .running journal _ => some journal

lemma Host.Sound.synced (h : host.Sound env config limits) {journal : CommandJournal}
    (hjournal : journal ∈ host.journal) (hhealthy : journal.Healthy) :
    ∃ bytes, host.db.record.value = some bytes ∧
      Accepted env config limits bytes journal.state := by
  cases host with
  | closed db => cases hjournal
  | running running calls =>
    cases hjournal
    exact Sound.synced h hhealthy.1

/-- No healthy journal is open. -/
def Host.Ill (host : Host) : Prop := ∀ journal ∈ host.journal, ¬journal.Healthy

section Ill

variable {env : JournalEnv} {config : SessionConfig} {limits : JournalLimits}
  {journal : CommandJournal}

lemma Host.ill_running {calls : List UInt64} :
    (Host.running journal calls).Ill ↔ ¬journal.Healthy := by
  simp [Host.Ill, Host.journal]

lemma Host.ill_closed (db : Database) : (Host.closed db).Ill := nofun

variable {event : Event} {result : Except JournalError Unit × Host}
  (h : Host.Stepped env config limits event host result)
include h

/-- Only opening makes an ill host well again. -/
lemma Host.Stepped.ill (hill : host.Ill) (hevent : ¬event.IsOpen) : result.2.Ill := by
  cases h with
  | started hopen => exact absurd hopen hevent
  | down | kept => exact hill
  | closed => exact Host.ill_closed _
  | panicked =>
    exact Host.ill_running.mpr fun hhealthy => Bool.noConfusion (show true = false from hhealthy.2)
  | asked _ hupdated =>
    obtain ⟨error, rfl⟩ := hupdated.of_ill (Host.ill_running.mp hill)
    exact hill

/-- Every call on an ill host fails. -/
lemma Host.Stepped.fails (hill : host.Ill) (hevent : event.IsCall) :
    ∃ error, result.1 = .error error := by
  cases h with
  | started _ hcall | closed hcall | panicked hcall => exact absurd hevent hcall
  | down => exact ⟨_, rfl⟩
  | kept hcall => exact (hcall hevent).1 (Host.ill_running.mp hill)
  | asked _ hupdated =>
    obtain ⟨error, rfl⟩ := hupdated.of_ill (Host.ill_running.mp hill)
    exact ⟨error, rfl⟩

/-- A call that reports a storage error leaves an ill host. -/
lemma Host.Stepped.ill_of_storage (hevent : event.IsCall)
    (hstorage : result.1 = .error (.storage message)) : result.2.Ill := by
  cases h with
  | started _ hcall | closed hcall | panicked hcall => exact absurd hevent hcall
  | down => exact Host.ill_closed _
  | kept hcall => exact Host.ill_running.mpr ((hcall hevent).2 message hstorage)
  | @asked journal _ _ request _ _ _ hupdated =>
    have havoids := (request.apply_avoids env journal.state).map fun next => ((), next)
    exact Host.ill_running.mpr (hupdated.ill havoids hstorage)

end Ill

/-! ## Failing before anything is written -/

section Quiet

variable {env : JournalEnv} {config : SessionConfig} {limits : JournalLimits}

lemma Opened.grows (h : Opened env config limits db result) : db.Grows result.2 := by
  cases h with
  | refused | found => exact .inl rfl
  | created | uncertain => exact Database.grows_persist _ _ _

/-- An event that fails without a write changes neither memory nor disk. -/
lemma Host.Stepped.quiet {result : Except JournalError Unit × Host}
    (h : Host.Stepped env config limits event host result) (hfailed : result.1 = .error error)
    (hwritten : result.2.db.record.written = host.db.record.written) :
    result.2.journal = host.journal ∧ result.2.db = host.db := by
  cases h with
  | started _ _ hstarted =>
    cases hstarted with
    | refused hopen => exact ⟨rfl, hopen.grows.eq hwritten⟩
    | opened | pinned => cases hfailed
    | unpinned hopen hpin => exact ⟨rfl, (hopen.grows.trans hpin.grows).eq hwritten⟩
  | down | kept => exact ⟨rfl, rfl⟩
  | closed | panicked => cases hfailed
  | asked _ hupdated =>
    have hsame := hupdated.quiet hfailed hwritten
    exact ⟨congrArg some hsame, congrArg CommandJournal.db hsame⟩

end Quiet

/-! ## Durability -/

/-- Reopening a fenced journal under its own policy accepts it too, and writes nothing. -/
lemma Accepted.openFenced {env : JournalEnv} (hjson : env.RoundTrips) {config : SessionConfig}
    {limits : JournalLimits} {state : State} {db : Database}
    (h : Accepted env config limits bytes state) (hvalue : db.record.value = some bytes)
    {policy : FencingPolicy} (hpolicy : state.fencingPolicy = some policy)
    (create pin : WriteOutcome) :
    openFenced env config limits policy create pin db = (.ok ⟨db, state, false, false⟩, db) := by
  have hscope : policy.sessionId = config.sessionId ∧
      policy.genesisCommitment = config.commitment env.authority.session := by
    have hvalid := h.valid
    simp only [validate, validateUpdate, validateRecoveries, eq_ok] at hvalid
    have hnamed := hvalid.2.1 policy hpolicy
    rw [h.scope] at hnamed
    exact hnamed
  have hpin : pinPolicy policy state = .ok ((), state) := by
    simp only [pinPolicy, hpolicy, bind_eq_ok, exists_unit, ensure_eq_ok]
    exact ⟨trivial, rfl⟩
  have hupdate : CommandJournal.update env pin (pinPolicy policy) ⟨db, state, false, false⟩ =
      (.ok (), ⟨db, state, false, false⟩) := by
    have hlocked : (CommandJournal.mk db state false false).locked >>= pinPolicy policy =
        .ok ((), state) := by
      rw [locked_eq_ok.mpr ⟨⟨rfl, rfl⟩, rfl⟩]
      exact hpin
    simp only [CommandJournal.update, hlocked, if_true]
  simp only [CommandJournal.openFenced, ensure, if_pos hscope, h.open hjson hvalue, hupdate]

/-- Once no healthy journal is open, calls fail until one is opened. -/
lemma Host.Ill.run (h : host.Ill) (events : List Event)
    (hevents : ∀ event ∈ events, ¬event.IsOpen) : (host.run env config limits events).Ill :=
  List.foldlRecOn events _ h fun _ hhost event hmem =>
    (Host.stepped event _).ill hhost (hevents event hmem)

/-- Whatever happens to a journal: while it is healthy, memory is what is on disk; a call that fails
    without a write changes neither; after a storage error every call fails until the journal is
    reopened; and whatever was ever written, also by a write that failed, is accepted again. -/
theorem journal_durability (env : JournalEnv) (hjson : env.RoundTrips) (config : SessionConfig)
    (limits : JournalLimits) (otherKeys : Bool) (events : List Event) :
    let host := Host.run env config limits events (.closed ⟨.empty, otherKeys⟩)
    (∀ journal ∈ host.journal, journal.Healthy →
      ∃ bytes, host.db.record.value = some bytes ∧ decode env bytes = .ok journal.state) ∧
    (∀ event error, (host.step env config limits event).1 = .error error →
      (host.step env config limits event).2.db.record.written = host.db.record.written →
      (host.step env config limits event).2.journal = host.journal ∧
        (host.step env config limits event).2.db = host.db) ∧
    (∀ event message, event.IsCall →
      (host.step env config limits event).1 = .error (.storage message) →
      ∀ later : List Event, (∀ next ∈ later, ¬next.IsOpen) → ∀ call : Event, call.IsCall →
        ∃ error, (((host.step env config limits event).2.run env config limits later).step
          env config limits call).1 = .error error) ∧
    (∀ bytes ∈ host.db.record.written, ∃ state, decode env bytes = .ok state ∧
      ∀ (db : Database) (create pin : WriteOutcome), db.record.value = some bytes →
        CommandJournal.open env config limits create db = (.ok ⟨db, state, false, false⟩, db) ∧
        ∀ policy, state.fencingPolicy = some policy →
          openFenced env config limits policy create pin db =
            (.ok ⟨db, state, false, false⟩, db)) := by
  intro host
  have hfresh : Host.Sound env config limits (.closed ⟨.empty, otherKeys⟩) :=
    Database.sound_fresh otherKeys
  have hsound : host.Sound env config limits := Host.run_sound hjson hfresh events
  refine ⟨?_, ?_, ?_, ?_⟩
  · intro journal hjournal hhealthy
    obtain ⟨bytes, hvalue, haccepted⟩ := Host.Sound.synced hsound hjournal hhealthy
    exact ⟨bytes, hvalue, decode_journalBytes hjson haccepted.encoded haccepted.valid⟩
  · intro event error hfailed hwritten
    exact (Host.stepped event host).quiet hfailed hwritten
  · intro event message hevent hstorage later hlater call hcall
    have hill := (Host.stepped event host).ill_of_storage hevent hstorage
    exact (Host.stepped call _).fails (hill.run later hlater) hcall
  · intro bytes hbytes
    obtain ⟨state, haccepted⟩ := (Host.Sound.database hsound).2 bytes hbytes
    refine ⟨state, decode_journalBytes hjson haccepted.encoded haccepted.valid, ?_⟩
    intro db create pin hvalue
    refine ⟨haccepted.open hjson hvalue create, fun policy hpolicy => ?_⟩
    exact haccepted.openFenced hjson hvalue hpolicy create pin

/-! A journal whose first command meets a full disk. -/

def sampleHash : Hash32 := FixedBytes.fill 32 7

def sampleHead : SessionHead := ⟨sampleHash, none, sampleHash, sampleHash, 0, 0, 0, none⟩

/-- Every hash is the same, and there is one head. -/
def sampleAuthority : AuthorityEnv :=
  ⟨⟨.accepting fun _ => sampleHash, .blank⟩, fun _ => .ok sampleHead, fun _ _ _ _ => [],
    fun _ _ _ _ _ => [], fun _ => [], fun _ _ _ _ _ _ _ => [], "malformed", "incorrect"⟩

/-- An encoder that knows the states of a table, each by as many bytes as its place. -/
def tableEnv (table : List State) : JournalEnv where
  authority := sampleAuthority
  toVec state :=
    if state ∈ table then .ok (List.replicate (table.idxOf state) 0) else .error "not in the table"
  fromSlice bytes := okOr table[bytes.length]? "not in the table"

lemma tableEnv_roundTrips (table : List State) : (tableEnv table).RoundTrips := by
  intro state bytes hbytes _
  by_cases hmem : state ∈ table
  · have hread : bytes = List.replicate (table.idxOf state) 0 := by
      simpa [tableEnv, hmem] using hbytes.symm
    have hplace : table[table.idxOf state]? = some state := by
      exact List.getElem?_idxOf hmem
    simp [tableEnv, hread, hplace]
  · simp [tableEnv, hmem] at hbytes

def sampleConfig : SessionConfig := .uniform sampleHash sampleHash .disabled

def sampleScope : CommandScope := ⟨sampleHash, sampleHash, sampleHash⟩

def sampleCommand : OriginalCommand :=
  ⟨sampleScope, ⟨sampleHash, sampleHash⟩, .userCommand, [1], [], []⟩

def sampleEntry (status : EntryStatus) : JournalEntry := ⟨0, sampleCommand, sampleHash, status⟩

/-- The new journal. -/
def sampleFresh : State := .initial sampleScope .default

/-- The journal with one command in the queue. -/
def sampleQueued : State := { sampleFresh with entries := [sampleEntry .queued] }

def sampleEnv : JournalEnv := tableEnv [sampleFresh, sampleQueued]

/-- The write of the command is reported as failed, but reaches the disk. -/
def sampleFailure : Event :=
  .operate (.enqueue sampleCommand fun _ => .ok ()) (.failed "disk full" true)

def sampleOpen : Event := .open none .done .done

def sampleHost (events : List Event) : Host :=
  Host.run sampleEnv sampleConfig .default events (.closed ⟨.empty, false⟩)

/-- After the failure no call is answered; after reopening the command is there. -/
theorem journal_durability_sample :
    (∀ call : Event, call.IsCall → ∃ error, ((sampleHost [sampleOpen, sampleFailure]).step
      sampleEnv sampleConfig .default call).1 = .error error) ∧
    ∃ bytes, (sampleHost [sampleOpen, sampleFailure, .close, sampleOpen]).db.record.value =
      some bytes ∧ decode sampleEnv bytes = .ok sampleQueued := by
  have hjson : sampleEnv.RoundTrips := tableEnv_roundTrips _
  obtain ⟨-, -, hfails, -⟩ :=
    journal_durability sampleEnv hjson sampleConfig .default false [sampleOpen]
  obtain ⟨hsynced, -, -, -⟩ := journal_durability sampleEnv hjson sampleConfig .default false
    [sampleOpen, sampleFailure, .close, sampleOpen]
  constructor
  · intro call hcall
    exact hfails sampleFailure "disk full" trivial rfl [] (List.forall_mem_nil _) call hcall
  · have hopened : (sampleHost [sampleOpen, sampleFailure, .close, sampleOpen]).journal.map
        (fun journal => (journal.state, journal.recoveryRequired, journal.poisoned)) =
          some (sampleQueued, false, false) := rfl
    obtain ⟨journal, hjournal, hfields⟩ := Option.map_eq_some_iff.mp hopened
    simp only [Prod.mk.injEq] at hfields
    obtain ⟨bytes, hvalue, hdecoded⟩ := hsynced journal hjournal hfields.2
    exact ⟨bytes, hvalue, hfields.1 ▸ hdecoded⟩

end Myelin.Journal
