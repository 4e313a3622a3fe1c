/-
  Durable command identities: what became of a command, by the chain's own index.

  The answer is never read from the index alone.  A receipt found there is recomputed from the
  block it names, so a status other than `missing` always stands for a committed frame.
-/
import Myelin.Session.Lineage

namespace Myelin.Session

open Lib Consensus

/-- Reconciliation does not resubmit anything.  `missing` means not committed at the queried head,
    not safe to release funds or race another writer. -/
inductive CommandStatus where
  | missing
  | committed (receipt : CommandReceipt)
  | identityConflict (receipt : CommandReceipt)
  deriving DecidableEq

/-- What command queries read of a `SessionChain`. -/
structure CommandView where
  config : SessionConfig
  head : SessionHead
  store : SessionStore
  /-- The store's canonical command index. -/
  loadCommandReceipt : Hash32 → Hash32 → Except StoreError (Option CommandReceipt)

/-- Index of a receipt's command in a frame that starts at `startPosition`. -/
def CommandReceipt.index (receipt : CommandReceipt) (startPosition : UInt64) : Option Nat :=
  (checkedSub receipt.inputPosition startPosition).map UInt64.toNat

namespace CommandView

variable (env : SessionEnv) (chain : CommandView)

/-- A receipt of the index, checked against the frame it names. -/
def resolveReceipt (command : CommandIdentity) (receipt : CommandReceipt) :
    Except SessionError CommandStatus := do
  ensure (receipt.sessionId = chain.config.sessionId ∧ receipt.command.id = command.id ∧
      chain.head.finalisedHeight.any (receipt.blockHeight ≤ ·) = true)
    (.recovery "command receipt is outside the current session head")
  let record ← (chain.store.loadBlock chain.config.sessionId receipt.blockHeight).mapError .store
  let index ← okOr (receipt.index record.frameInput.startPosition)
    (.recovery "command receipt position mismatch")
  let expected ← CommandReceipt.forRecord env record index
  ensure (expected = receipt) (.recovery "command receipt does not match committed frame")
  pure (if receipt.command.payloadHash = command.payloadHash then .committed receipt
    else .identityConflict receipt)

/-- Resolve an application journal entry against this audited session head. -/
def commandStatus (command : CommandIdentity) : Except SessionError CommandStatus := do
  let found ← (chain.loadCommandReceipt chain.config.sessionId command.id).mapError .store
  match found with
  | none => pure .missing
  | some receipt => chain.resolveReceipt env command receipt

/-- The exact committed frame, for application-level result decoding. -/
def commandRecord (command : CommandIdentity) :
    Except SessionError (Option FinalisedBlockRecord) := do
  match ← chain.commandStatus env command with
  | .missing => pure none
  | .identityConflict _ =>
      .error (.invalidFrame "command identity has a different committed payload")
  | .committed receipt => do
      let record ← (chain.store.loadBlock receipt.sessionId receipt.blockHeight).mapError .store
      pure (some record)

end CommandView

end Myelin.Session
