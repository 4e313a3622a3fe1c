/-
  The journal as a process: one database, opened and closed, with callers in between.

  `update` is the only way the state changes: it works on a copy, validates it, writes it and only
  then replaces the copy in memory.  A write that fails leaves the journal DISTRUSTED until it is
  reopened, because nobody can tell which of the two states is on disk.

  A `submit` call is in flight between its two halves; any other call may run in that time.  Calls
  in flight die with the process.  An answer that never comes is a call whose committer never
  returned, or which found no reservation left to commit.
-/
import Myelin.Journal.Operations
import Myelin.Lib.Durable

namespace Myelin.Journal

open Lib Consensus Session Myelin.Authority Producer

/-! ## The open journal -/

/-- The journal's database: the record under its key, and whether other keys exist. -/
structure Database where
  record : Slot (List UInt8)
  otherKeys : Bool

/-- Write the encoded state. -/
def Database.persist (db : Database) (write : WriteOutcome) (bytes : List UInt8) : Database :=
  { db with record := db.record.put write bytes }

/-- An open journal. -/
structure CommandJournal where
  db : Database
  state : State
  /-- A write failed; the record on disk is unknown. -/
  recoveryRequired : Bool
  /-- A caller's closure panicked while it held the lock. -/
  poisoned : Bool

namespace CommandJournal

variable (env : JournalEnv) (config : SessionConfig) (limits : JournalLimits)

/-- Nothing has gone wrong since the journal was opened. -/
def Healthy (journal : CommandJournal) : Prop :=
  journal.recoveryRequired = false ∧ journal.poisoned = false

instance (journal : CommandJournal) : Decidable journal.Healthy :=
  inferInstanceAs (Decidable (_ ∧ _))

/-- What every call does first: take the lock, and `ensure_healthy`. -/
def locked (journal : CommandJournal) : Except JournalError State := do
  ensure (journal.poisoned = false) (.storage "journal mutex poisoned")
  ensure (journal.recoveryRequired = false)
    (.storage "journal write outcome is uncertain; close and reopen before further operations")
  pure journal.state

/-- The bytes of a next state that passes validation. -/
def encodeUpdate (current next : State) : Except JournalError (List UInt8) := do
  validateUpdate env next (some current)
  journalBytes env next

/-- Replace the state by what `f` makes of it. -/
def update {α : Type} (write : WriteOutcome) (f : State → Except JournalError (α × State))
    (journal : CommandJournal) : Except JournalError α × CommandJournal :=
  match journal.locked >>= f with
  | .error error => (.error error, journal)
  | .ok (result, next) =>
      if next = journal.state then (.ok result, journal)
      else
        match encodeUpdate env journal.state next with
        | .error error => (.error error, journal)
        | .ok bytes =>
            match write with
            | .done => (.ok result,
                { journal with db := journal.db.persist .done bytes, state := next })
            | .failed message effect => (.error (.storage message),
                { journal with
                  db := journal.db.persist (.failed message effect) bytes
                  recoveryRequired := true })

/-- What is checked before the database is touched. -/
def checkOpen : Except JournalError Unit := do
  config.validate.mapError fun error => JournalError.invalid error.display
  limits.validate
  ensure (config.applicationProfile.commandIdentityRequired = true)
    (.invalid "journal requires an explicit command-identity application profile")

/-- An existing record, read back. -/
def readRecord (bytes : List UInt8) : Except JournalError State := do
  let state ← decode env bytes
  ensure (state.scope = .fromConfig env.authority.session config ∧ state.limits = limits)
    (.invalid "journal genesis/profile/limits mismatch")
  pure state

/-- The first record of a database. -/
def createRecord (db : Database) : Except JournalError (List UInt8) := do
  ensure (db.otherKeys = false) (.invalid "nonempty database has no command-journal record")
  let state := State.initial (.fromConfig env.authority.session config) limits
  validate env state
  journalBytes env state

/-- Open a journal, or create it.  The database may have been written even if this fails. -/
def «open» (write : WriteOutcome) (db : Database) :
    Except JournalError CommandJournal × Database :=
  match checkOpen config limits with
  | .error error => (.error error, db)
  | .ok () =>
      match db.record.value with
      | some bytes =>
          match readRecord env config limits bytes with
          | .error error => (.error error, db)
          | .ok state => (.ok ⟨db, state, false, false⟩, db)
      | none =>
          match createRecord env config limits db with
          | .error error => (.error error, db)
          | .ok bytes =>
              let db := db.persist write bytes
              match write with
              | .failed message _ => (.error (.storage message), db)
              | .done => (.ok ⟨db, .initial (.fromConfig env.authority.session config) limits,
                  false, false⟩, db)

/-- Open a journal and pin its fencing policy. -/
def openFenced (policy : FencingPolicy) (create pin : WriteOutcome) (db : Database) :
    Except JournalError CommandJournal × Database :=
  match (ensure (policy.sessionId = config.sessionId ∧
      policy.genesisCommitment = config.commitment env.authority.session)
      (.invalid "fencing policy does not name this genesis") : Except JournalError Unit) with
  | .error error => (.error error, db)
  | .ok () =>
      match «open» env config limits create db with
      | (.error error, db) => (.error error, db)
      | (.ok journal, _) =>
          match journal.update env pin (pinPolicy policy) with
          | (.error error, journal) => (.error error, journal.db)
          | (.ok (), journal) => (.ok journal, journal.db)

/-! ## Queries -/

/-- The entry of a command, if there is one. -/
def entry (id : Hash32) (journal : CommandJournal) : Except JournalError (Option JournalEntry) := do
  let state ← journal.locked
  pure (state.entries.find? (·.id = id))

/-- A page of entries. -/
def entries (startSequence : UInt64) (limit : Nat) (journal : CommandJournal) :
    Except JournalError (List JournalEntry) := do
  ensure (limit ≤ 256) (.invalid "journal page limit exceeds 256")
  let state ← journal.locked
  pure ((state.entries.filter (startSequence ≤ ·.sequence)).take limit)

/-- The reservation, if there is one. -/
def activeReservation (journal : CommandJournal) : Except JournalError (Option Reservation) := do
  let state ← journal.locked
  pure state.reservation

/-- A page of retained recovery decisions. -/
def fencedRecoveries (start limit : Nat) (journal : CommandJournal) :
    Except JournalError (List FencedRecovery) := do
  ensure (limit ≤ 256) (.invalid "recovery evidence page exceeds 256")
  let state ← journal.locked
  pure ((state.reconciliations.drop start).take limit)

end CommandJournal

/-! ## Calls -/

/-- The calls that only read. -/
inductive Query where
  | entry (id : Hash32)
  | entries (startSequence : UInt64) (limit : Nat)
  | activeReservation
  | fencedRecoveries (start limit : Nat)

/-- Whether a query is answered. -/
def Query.run (query : Query) (journal : CommandJournal) : Except JournalError Unit :=
  match query with
  | .entry id => (journal.entry id).map fun _ => ()
  | .entries startSequence limit => (journal.entries startSequence limit).map fun _ => ()
  | .activeReservation => journal.activeReservation.map fun _ => ()
  | .fencedRecoveries start limit => (journal.fencedRecoveries start limit).map fun _ => ()

/-! ## The process -/

/-- What happens to a journal. -/
inductive Event where
  /-- Open the journal, pinning a policy if one is given. -/
  | «open» (policy : Option FencingPolicy) (create pin : WriteOutcome)
  /-- The process ends, by itself or by a crash. -/
  | close
  /-- A caller's closure panics while it holds the lock. -/
  | panic
  | read (query : Query)
  | operate (operation : Operation) (write : WriteOutcome)
  /-- First half of a `submit` call. -/
  | submit (token : UInt64) (current : SessionHead) (write : WriteOutcome)
  /-- The committer's answer to a `submit` call in flight. -/
  | answer (token : UInt64) (result : Except CommitError ProductionReceipt) (write : WriteOutcome)

/-- The journal's directory, with the process that has it open and its `submit` calls in flight. -/
inductive Host where
  | closed (db : Database)
  | running (journal : CommandJournal) (calls : List UInt64)

namespace Host

variable (env : JournalEnv) (config : SessionConfig) (limits : JournalLimits)

/-- The database of a host. -/
def db : Host → Database
  | .closed db => db
  | .running journal _ => journal.db

/-- `submit` calls in flight, by token. -/
def calls : Host → List UInt64
  | .closed _ => []
  | .running _ calls => calls

/-- Open the journal of a closed host. -/
def start (policy : Option FencingPolicy) (create pin : WriteOutcome) (db : Database) :
    Except JournalError Unit × Host :=
  match (match policy with
      | none => CommandJournal.open env config limits create db
      | some policy => CommandJournal.openFenced env config limits policy create pin db) with
  | (.error error, db) => (.error error, .closed db)
  | (.ok journal, _) => (.ok (), .running journal [])

/-- Carry out a request. -/
def perform (request : Request) (write : WriteOutcome) (journal : CommandJournal) :
    Except JournalError Unit × CommandJournal :=
  journal.update env write fun state => (request.apply env state).map fun next => ((), next)

/-- A call on an open journal. -/
def call (event : Event) (journal : CommandJournal) (calls : List UInt64) :
    Except JournalError Unit × Host :=
  match event with
  | .open _ _ _ => (.error (.storage "the directory is locked"), .running journal calls)
  | .close => (.ok (), .closed journal.db)
  | .panic => (.ok (), .running { journal with poisoned := true } calls)
  | .read query => (query.run journal, .running journal calls)
  | .operate operation write =>
      let (result, journal) := perform env (.call operation) write journal
      (result, .running journal calls)
  | .submit token current write =>
      let (result, journal) := perform env (.call (.beginCommit token current)) write journal
      (result, .running journal (if succeeds result then token :: calls else calls))
  | .answer token (.ok _) _ =>
      if token ∈ calls then (.ok (), .running journal (calls.erase token))
      else (.error (.conflict "no such call in flight"), .running journal calls)
  | .answer token (.error error) write =>
      if token ∈ calls then
        let (result, journal) := perform env (.answer token error) write journal
        (result, .running journal (calls.erase token))
      else (.error (.conflict "no such call in flight"), .running journal calls)

/-- One event. -/
def step (event : Event) : Host → Except JournalError Unit × Host
  | .running journal calls => call env event journal calls
  | .closed db =>
      match event with
      | .open policy create pin => start env config limits policy create pin db
      | _ => (.error (.storage "the journal is closed"), .closed db)

/-- A sequence of events. -/
def run (events : List Event) (host : Host) : Host :=
  events.foldl (fun host event => (host.step env config limits event).2) host

lemma run_append (first second : List Event) (host : Host) :
    host.run env config limits (first ++ second) =
      (host.run env config limits first).run env config limits second :=
  List.foldl_append

end Host

end Myelin.Journal
