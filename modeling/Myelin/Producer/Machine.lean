/-
  The block producer as a machine.

  The source runs one `async` loop per trigger.  Between two `await`s it only looks at its own
  variables, so a run is a sequence of resumptions: each control state below is one `await`, each
  event what that `await` returned.  Submissions are events too and fit between any two others.

  Where the source awaits twice in a row without looking at the queue in between (the head, then
  the reservation; a failed reservation, then its release; the commit, then the acknowledgement),
  one event does both: a submission between the two has the same effect before or after them.

  The `Ledger` is not in the source.  It records what was submitted, committed and acknowledged.
-/
import Myelin.Producer.Queue

namespace Myelin.Producer

open Lib Consensus Session

/-! ## Configuration and ports -/

/-- Automatic policy used to close candidate transaction windows; times are in nanoseconds. -/
inductive ProductionTrigger where
  | instant
  | interval (blockTime : Nat) (produceEmpty : Bool)
  | openFor (period : Nat)
  | never
  deriving DecidableEq, Repr

/-- Validated producer configuration. -/
structure ProducerConfig where
  trigger : ProductionTrigger
  limits : BatchLimits
  deriving DecidableEq, Repr

def validateTrigger (trigger : ProductionTrigger) : Except ProducerError ProductionTrigger :=
  match trigger with
  | .interval 0 _ => .error (.invalidConfig "interval block_time must be greater than zero")
  | .openFor 0 => .error (.invalidConfig "open period must be greater than zero")
  | _ => .ok trigger

def BatchLimits.validate (limits : BatchLimits) : Except ProducerError BatchLimits := do
  ensure (limits.maxTransactions ≠ 0) (.invalidConfig "max_transactions must be greater than zero")
  ensure (limits.maxBytes ≠ 0) (.invalidConfig "max_bytes must be greater than zero")
  pure limits

/-- Validate non-zero limits and policy periods. -/
def ProducerConfig.validate (config : ProducerConfig) : Except ProducerError ProducerConfig := do
  let _ ← config.limits.validate
  let _ ← validateTrigger config.trigger
  pure config

/-- Reason that closed one candidate window. -/
inductive ProductionCause where
  | instant
  | interval
  | openWindow
  | manual
  deriving DecidableEq, Repr

/-- Fixed transaction batch handed to the session-owned commit boundary. -/
structure ProductionCandidate (τ : Type) where
  baseHead : SessionHead
  transactions : List τ
  timestampMs : UInt64
  cause : ProductionCause

/-- Durable identity of a committed candidate. -/
structure ProductionReceipt where
  blockHeight : UInt64
  blockHash : Hash32

/-- Commit failure classification controls whether reservations can be released. -/
inductive CommitError where
  | staleCandidate
  | rejected (message : String)
  | outcomeUnknown (message : String)
  deriving DecidableEq, Repr

def CommitError.display : CommitError → String
  | .staleCandidate =>
      "candidate construction snapshot is stale; rebuild from the current head"
  | .rejected message => message
  | .outcomeUnknown message =>
      "commit outcome unknown; reconcile durable command receipts before retry: " ++ message

/-- What an operator can ask for; the replies are not modelled. -/
inductive ProducerCommand (τ : Type) where
  | produceFromSource (blocks : Nat)
  | produceTransactions (baseHead : SessionHead) (transactions : List τ)
  | shutdown

/-! ## Control -/

/-- The parts of a candidate, and the reservations its transactions are held by. -/
structure Batch (τ : Type) where
  baseHead : SessionHead
  transactions : List τ
  reservations : List Nat

/-- The batch one selection makes. -/
def TransactionSelection.batch {τ : Type} (selection : TransactionSelection τ) : Batch τ where
  baseHead := selection.baseHead
  transactions := selection.transactions
  reservations := selection.reservation.toList

/-- Whose work a reservation or a commit is: the loop's own, or a command's with so many blocks
    left to produce after the present one. -/
inductive Task where
  | automatic
  | manual (more : Nat)

/-- Where the producer waits. -/
inductive Control (τ : Type) where
  /-- Under the full limits, for the committer's head and then for the source. -/
  | reserving (task : Task)
  /-- In the `select!` of the loop, nothing held. -/
  | waiting
  /-- In an open window, for the committer's head and then for the source. -/
  | extending (batch : Batch τ) (totalBytes : UInt64)
  /-- In the `select!` of an open window. -/
  | lingering (batch : Batch τ) (totalBytes : UInt64)
  /-- For the committer's answer. -/
  | committing (batch : Batch τ) (cause : ProductionCause) (task : Task)
  | stopped (result : Except ProducerError Unit)

/-- The reservations the producer holds. -/
def Control.reservations {τ : Type} : Control τ → List Nat
  | .extending batch _ | .lingering batch _ | .committing batch _ _ => batch.reservations
  | .reserving _ | .waiting | .stopped _ => []

section Steps

variable {τ : Type} (len : τ → UInt64) (config : ProducerConfig)
  (source : QueuedTransactionSource τ) (batch : Batch τ) (totalBytes : UInt64)

/-- Where a loop goes on after its `select!`. -/
def ProductionTrigger.resume : ProductionTrigger → Control τ
  | .instant | .openFor _ => .reserving .automatic
  | .interval _ _ | .never => .waiting

/-- Where a committed candidate leads. -/
def Control.after : Task → Control τ
  | .automatic | .manual 0 => config.trigger.resume
  | .manual (more + 1) => .reserving (.manual more)

/-- Where a failure leads: out of the loop, unless a command failed without harm. -/
def Control.failed (task : Task) (error : ProducerError) : Control τ :=
  match task with
  | .automatic => .stopped (.error error)
  | .manual _ => if error.isFatal then .stopped (.error error) else config.trigger.resume

/-- `commit_reserved` up to the committer. -/
def commitReserved (cause : ProductionCause) (task : Task) : Control τ :=
  match validateTransactions len batch.transactions config.limits with
  | .ok () => .committing batch cause task
  | .error error => .failed config task error

/-- The top of an open window's loop. -/
def extendWindow : Control τ :=
  match remainingLimits config.limits batch.transactions.length totalBytes with
  | .error error => .stopped (.error error)
  | .ok remaining =>
      if remaining.maxTransactions = 0 ∨ remaining.maxBytes = 0 then
        commitReserved len config batch .openWindow .automatic
      else
        .extending batch totalBytes

/-- An open window starts with its first selection. -/
def openWindow (first : TransactionSelection τ) : Control τ :=
  match transactionBytes len first.transactions with
  | .error error => .stopped (.error error)
  | .ok totalBytes => extendWindow len config first.batch totalBytes

/-- What the loop, or a command, does with a selection. -/
def useSelection (selection : TransactionSelection τ) : Task → Control τ
  | .manual more => commitReserved len config selection.batch .manual (.manual more)
  | .automatic =>
      match config.trigger with
      | .instant =>
          if selection.transactions = [] then .waiting
          else commitReserved len config selection.batch .instant .automatic
      | .interval _ produceEmpty =>
          if produceEmpty ∨ selection.transactions ≠ [] then
            commitReserved len config selection.batch .interval .automatic
          else .waiting
      | .openFor _ =>
          if selection.transactions = [] then .waiting else openWindow len config selection
      | .never => .waiting

/-- `handle_command`, outside open windows. -/
def handleCommand : Option (ProducerCommand τ) → Control τ
  | none | some .shutdown => .stopped (.ok ())
  | some (.produceFromSource 0) => config.trigger.resume
  | some (.produceFromSource (more + 1)) => .reserving (.manual more)
  | some (.produceTransactions baseHead transactions) =>
      match validateTransactions len transactions config.limits with
      | .error error => .failed config (.manual 0) error
      | .ok () =>
          commitReserved len config { baseHead, transactions, reservations := [] } .manual
            (.manual 0)

/-! ## The source's side -/

/-- `BlockProducer::reserve`: the committer's head, the source's selection, and its check. -/
def reserve (limits : BatchLimits) (head : Except PortError SessionHead)
    (source : QueuedTransactionSource τ) :
    Except ProducerError (TransactionSelection τ) × QueuedTransactionSource τ :=
  match head with
  | .error error => (.error (.source error.message), source)
  | .ok baseHead =>
      match source.reserve len baseHead limits with
      | .error error => (.error (.source error.message), source)
      | .ok (selection, source) =>
          let validation : Except ProducerError Unit :=
            if selection.baseHead ≠ baseHead then .error .staleCandidate
            else validateSelection len selection limits
          match validation with
          | .ok () => (.ok selection, source)
          | .error error =>
              match source.release selection.reservation.toList with
              | .ok source => (.error error, source)
              | .error release =>
                  (.error (.sourceAndRelease error.display release.message), source)

/-- Give reservations back and stop. -/
def releaseAndStop (reservations : List Nat) (result : Except ProducerError Unit) :
    QueuedTransactionSource τ × Control τ :=
  match source.release reservations with
  | .ok source => (source, .stopped result)
  | .error error => (source, .stopped (.error (.source error.message)))

/-- One more reservation of an open window. -/
def growWindow (head : Except PortError SessionHead) : QueuedTransactionSource τ × Control τ :=
  match remainingLimits config.limits batch.transactions.length totalBytes with
  | .error error => (source, .stopped (.error error))
  | .ok remaining =>
      match reserve len remaining head source with
      | (.error error, source) => releaseAndStop source batch.reservations (.error error)
      | (.ok selection, source) =>
          let reservations := batch.reservations ++ selection.reservation.toList
          if selection.baseHead ≠ batch.baseHead then
            releaseAndStop source reservations (.error .staleCandidate)
          else if selection.transactions = [] then
            (source, .lingering { batch with reservations } totalBytes)
          else
            let grown : Except ProducerError UInt64 := do
              let bytes ← transactionBytes len selection.transactions
              okOr (checkedAdd totalBytes bytes) (.batchLimit "transaction bytes overflow")
            match grown with
            | .error error => (source, .stopped (.error error))
            | .ok totalBytes =>
                (source, extendWindow len config
                  { batch with
                    transactions := batch.transactions ++ selection.transactions, reservations }
                  totalBytes)

/-- `commit_reserved` after the committer's answer. -/
def settle (task : Task) :
    Except CommitError ProductionReceipt → QueuedTransactionSource τ × Control τ
  | .ok receipt =>
      match source.acknowledge batch.reservations with
      | .ok source => (source, .after config task)
      | .error error => (source, .failed config task
          (.acknowledgeAfterCommit receipt.blockHeight receipt.blockHash error.message))
  | .error (.outcomeUnknown message) => (source, .failed config task (.outcomeUnknown message))
  | .error .staleCandidate =>
      match source.release batch.reservations with
      | .ok source => (source, .failed config task .staleCandidate)
      | .error release => (source, .failed config task
          (.commitAndRelease CommitError.staleCandidate.display release.message))
  | .error (.rejected message) =>
      match source.release batch.reservations with
      | .ok source => (source, .failed config task (.commit message))
      | .error release => (source, .failed config task (.commitAndRelease message release.message))

/-! ## Runs -/

/-- What an `await` can return, and the submissions between them. -/
inductive Event (τ : Type) where
  | submit (baseHead : SessionHead) (transaction : τ)
  | head (answer : Except PortError SessionHead)
  /-- The clock when the candidate was made, and the committer's answer to it. -/
  | answer (now : UInt64) (result : Except CommitError ProductionReceipt)
  /-- The tick of the interval, or the deadline of the open window. -/
  | elapsed
  | changed
  | closed
  | command (command : Option (ProducerCommand τ))

/-- What happened so far: the transactions the queue accepted, the candidates committed (each with
    the reservations it was made from) and the transactions acknowledged. -/
structure Ledger (τ : Type) where
  submitted : List (SessionHead × τ)
  committed : List (ProductionCandidate τ × List Nat)
  acknowledged : List (SessionHead × τ)

/-- A producer over its queue. -/
structure Machine (τ : Type) where
  source : QueuedTransactionSource τ
  control : Control τ
  ledger : Ledger τ

/-- The `select!` of each loop, nothing held. -/
def wake : Event τ → Control τ
  | .changed =>
      match config.trigger with
      | .instant | .openFor _ => .reserving .automatic
      | .interval _ _ | .never => .waiting
  | .closed =>
      match config.trigger with
      | .instant | .openFor _ => .stopped (.error (.source "availability subscription closed"))
      | .interval _ _ | .never => .waiting
  | .elapsed =>
      match config.trigger with
      | .interval _ _ => .reserving .automatic
      | .instant | .openFor _ | .never => .waiting
  | .command command =>
      match config.trigger with
      | .openFor _ =>
          match command with
          | none | some .shutdown => .stopped (.ok ())
          | some (.produceFromSource _) | some (.produceTransactions _ _) => .reserving .automatic
      | .instant | .interval _ _ | .never => handleCommand len config command
  | .submit _ _ | .head _ | .answer _ _ => .waiting

/-- The `select!` of an open window. -/
def linger : Event τ → QueuedTransactionSource τ × Control τ
  | .elapsed => (source, commitReserved len config batch .openWindow .automatic)
  | .changed => (source, extendWindow len config batch totalBytes)
  | .closed => releaseAndStop source batch.reservations
      (.error (.source "availability subscription closed"))
  | .command none | .command (some .shutdown) =>
      releaseAndStop source batch.reservations (.ok ())
  | .command (some (.produceFromSource _)) | .command (some (.produceTransactions _ _)) =>
      (source, extendWindow len config batch totalBytes)
  | .submit _ _ | .head _ | .answer _ _ => (source, .lingering batch totalBytes)

/-- What the producer does on an event; one that its control state does not wait for leaves it
    where it is. -/
def resume (control : Control τ) (event : Event τ) : QueuedTransactionSource τ × Control τ :=
  match control with
  | .reserving task =>
      match event with
      | .head answer =>
          match reserve len config.limits answer source with
          | (.error error, source) => (source, .failed config task error)
          | (.ok selection, source) => (source, useSelection len config selection task)
      | _ => (source, .reserving task)
  | .waiting => (source, wake len config event)
  | .extending batch totalBytes =>
      match event with
      | .head answer => growWindow len config source batch totalBytes answer
      | _ => (source, .extending batch totalBytes)
  | .lingering batch totalBytes => linger len config source batch totalBytes event
  | .committing batch cause task =>
      match event with
      | .answer _ result => settle config source batch task result
      | _ => (source, .committing batch cause task)
  | .stopped result => (source, .stopped result)

/-- What a committer's answer adds to the ledger; the reservations are acknowledged when the queue
    forgets them. -/
def Ledger.record (ledger : Ledger τ) (source : QueuedTransactionSource τ) (control : Control τ)
    (event : Event τ) : Ledger τ :=
  match control, event with
  | .committing batch cause _, .answer now (.ok _) =>
      { ledger with
        committed := ledger.committed ++
          [({ baseHead := batch.baseHead, transactions := batch.transactions, timestampMs := now,
              cause }, batch.reservations)]
        acknowledged := ledger.acknowledged ++
          if succeeds (source.acknowledge batch.reservations) then
            source.state.reserved.under batch.reservations
          else [] }
  | _, _ => ledger

/-- One event. -/
def Machine.step (machine : Machine τ) : Event τ → Machine τ
  | .submit baseHead transaction =>
      match machine.source.submit len baseHead transaction with
      | .ok source =>
          { machine with
            source
            ledger := { machine.ledger with
              submitted := machine.ledger.submitted ++ [(baseHead, transaction)] } }
      | .error _ => machine
  | event =>
      let (source, control) := resume len config machine.source machine.control event
      { source, control
        ledger := machine.ledger.record machine.source machine.control event }

/-- A run. -/
def Machine.run (machine : Machine τ) (events : List (Event τ)) : Machine τ :=
  events.foldl (Machine.step len config) machine

/-- The producer over a queue, before its first `await`. -/
def Machine.start : Machine τ where
  source
  control := config.trigger.resume
  ledger := { submitted := source.state.available, committed := [], acknowledged := [] }

end Steps

end Myelin.Producer
