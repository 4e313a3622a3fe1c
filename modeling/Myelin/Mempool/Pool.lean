/-
  `CellPool`: verified transactions that wait for a block.

  The pool keeps three redundant structures: the entries in order of arrival (an `IndexMap` keyed by
  transaction id), the spender of every outpoint, and running totals.  `add` and `remove_package` work
  on a clone and swap it in at the end, so a call that is refused leaves the pool as it was; so does
  one that PANICS, which every `+`, `-`, `+=` and `-=` on machine words does when its result does not
  fit (the release profile keeps overflow checks on).

  Left out are the score, the witness hash and the constant timestamp of an entry: only `get_sorted`
  reads them.
-/
import Myelin.Lib.Worklist
import Myelin.State.Engine

namespace Myelin.Mempool

open Lib Exec State

/-- Mempool errors. -/
inductive MempoolError where
  | txExists (txid : Hash)
  | txNotFound (txid : Hash)
  | invalidTx (message : String)
  | mempoolFull (max : UInt64)
  | dependencyNotFound (txid : Hash)
  | rbfFailed (message : String)
  deriving DecidableEq

/-- Why a call returns nothing. -/
inductive Fault where
  | refused (error : MempoolError)
  | panicked (message : String)
  deriving DecidableEq

/-- `a + b` with overflow checks. -/
def plus (a b : UInt64) : Except Fault UInt64 :=
  okOr (checkedAdd a b) (.panicked "attempt to add with overflow")

/-- `a - b` with overflow checks. -/
def minus (a b : UInt64) : Except Fault UInt64 :=
  okOr (checkedSub a b) (.panicked "attempt to subtract with overflow")

/-- `a.saturating_add(b)`. -/
def saturatingAdd (a b : UInt64) : UInt64 := (checkedAdd a b).getD 18446744073709551615

/-! ## Entries -/

/-- Entry derived from a verified transaction. -/
structure PoolEntry where
  tx : CellTx
  txid : Hash
  /-- Resolved live inputs minus outputs. -/
  fee : UInt64
  cycles : UInt64
  admittedStateRoot : Hash
  resultingStateRoot : Hash
  /-- Parents. -/
  dependencies : List Hash
  /-- Children. -/
  dependents : List Hash
  deriving DecidableEq

/-- The outpoints a transaction spends. -/
def spends (tx : CellTx) : List OutPoint := tx.inputs.map (·.previousOutput)

/-- Running totals. -/
structure PoolStats where
  totalTxs : UInt64
  totalSize : UInt64
  totalFee : UInt64
  /-- Replacements included. -/
  txsAdded : UInt64
  /-- Replaced descendants included. -/
  txsRemoved : UInt64
  rbfCount : UInt64
  deriving DecidableEq

namespace PoolStats

/-- What `remove_one` subtracts. -/
def remove (stats : PoolStats) (entry : PoolEntry) : Except Fault PoolStats := do
  let totalTxs ← minus stats.totalTxs 1
  let totalSize ← minus stats.totalSize entry.tx.serializedSize
  let totalFee ← minus stats.totalFee entry.fee
  let txsRemoved ← plus stats.txsRemoved 1
  pure { stats with totalTxs, totalSize, totalFee, txsRemoved }

/-- What `add` adds. -/
def add (stats : PoolStats) (tx : CellTx) (fee : UInt64) (replaces : Bool) :
    Except Fault PoolStats := do
  let totalTxs ← plus stats.totalTxs 1
  let totalSize ← plus stats.totalSize tx.serializedSize
  let txsAdded ← plus stats.txsAdded 1
  let rbfCount ← plus stats.rbfCount (if replaces then 1 else 0)
  pure { stats with
    totalTxs, totalSize, totalFee := saturatingAdd stats.totalFee fee, txsAdded, rbfCount }

end PoolStats

/-- Everything behind the lock. -/
structure PoolInner where
  /-- In order of arrival. -/
  txs : List PoolEntry
  spentOutputs : SortedMap OutPoint Hash
  stats : PoolStats
  deriving DecidableEq

/-- A pool and its limits. -/
structure CellPool where
  inner : PoolInner
  maxSize : UInt64
  baseStateRoot : Hash
  deriving DecidableEq

/-- An empty pool. -/
def CellPool.new (maxSize : UInt64) (baseStateRoot : Hash) : CellPool :=
  ⟨⟨[], .empty, ⟨0, 0, 0, 0, 0, 0⟩⟩, maxSize, baseStateRoot⟩

variable (txs : List PoolEntry) (inner : PoolInner) (admitted : VerifiedStateTransaction)

/-- The entry under an id. -/
def find (txid : Hash) : Option PoolEntry := txs.find? (·.txid = txid)

/-- Change the entry under an id. -/
def change (txid : Hash) (f : PoolEntry → PoolEntry) (txs : List PoolEntry) : List PoolEntry :=
  txs.map fun entry => if entry.txid = txid then f entry else entry

/-! ## Packages -/

/-- The children of an id. -/
def children (txid : Hash) : List Hash :=
  (find txs txid).elim [] (·.dependents)

/-- Some entries and all that descends from them. -/
def descendantsIncluding (roots : SortedMap Hash Unit) : SortedMap Hash Unit :=
  Worklist.closure (children txs) (roots.keys.length + (txs.flatMap (·.dependents)).length) roots

/-- Take one entry out, and the traces of it elsewhere. -/
def removeOne (txid : Hash) : Except Fault (Option CellTx × PoolInner) :=
  match find inner.txs txid with
  | none => pure (none, inner)
  | some entry => do
      let spentOutputs := (spends entry.tx).foldl (fun spent outpoint =>
        if spent.get? outpoint = some txid then spent.erase outpoint else spent) inner.spentOutputs
      let txs := entry.dependencies.foldl (fun txs parent => change parent (fun entry =>
          { entry with dependents := entry.dependents.filter (· ≠ txid) }) txs)
        (inner.txs.filter (·.txid ≠ txid))
      let stats ← inner.stats.remove entry
      pure (some entry.tx, ⟨txs, spentOutputs, stats⟩)

/-- Take several entries out; the transactions of those that were there. -/
def removeAll (txids : List Hash) : Except Fault (List CellTx × PoolInner) :=
  txids.foldlM (fun acc txid => do
    let (tx, next) ← removeOne acc.2 txid
    pure (acc.1 ++ tx.toList, next)) ([], inner)

/-! ## Admission -/

/-- Cycles that count as one byte. -/
def cyclesPerByte : Nat := 100

/-- Size of a transaction for its fee density. -/
def effectiveSize (tx : CellTx) (cycles : UInt64) : Nat :=
  max (min (cyclesPerByte * tx.serializedSize.toNat) (2 ^ 64 - 1)) cycles.toNat

/-- Total fee and effective size of the entries that are replaced. -/
def replacedTotals (evicted : List Hash) : Except Fault (Nat × Nat) :=
  evicted.foldlM (fun totals txid => do
    let entry ← okOr (find txs txid) (.refused (.txNotFound txid))
    let fee := totals.1 + entry.fee.toNat
    ensure (fee < 2 ^ 64) (.refused (.rbfFailed "evicted fee overflow"))
    let size := totals.2 + effectiveSize entry.tx entry.cycles
    ensure (size < 2 ^ 64) (.refused (.rbfFailed "evicted effective size overflow"))
    pure (fee, size)) (0, 0)

/-- A replacement must pay more than the package it evicts, in total and per byte. -/
def validateReplacement (evicted : List Hash) : Except Fault Unit := do
  let (oldFee, oldEffectiveSize) ← replacedTotals inner.txs evicted
  let newFee := admitted.fee.toNat
  let newEffectiveSize := effectiveSize admitted.tx admitted.cycles
  ensure (oldFee < newFee) (.refused (.rbfFailed
    s!"replacement fee {newFee} must exceed evicted package fee {oldFee}"))
  ensure (oldFee * newEffectiveSize < newFee * oldEffectiveSize)
    (.refused (.rbfFailed "replacement fee density must exceed the evicted package"))

/-- Only an admission that evicts something is a replacement. -/
def checkReplacement (evicted : SortedMap Hash Unit) : Except Fault Unit :=
  if evicted.len ≠ 0 then validateReplacement inner admitted evicted.keys else .ok ()

/-- The entries, other than evicted ones, that created an input of the transaction. -/
def parents (evicted : SortedMap Hash Unit) (tx : CellTx) : List Hash :=
  (SortedMap.ofKeys (tx.inputs.filterMap fun input => (txs.find? fun parent =>
    parent.txid ∉ evicted.keys ∧ input.previousOutput.txHash = parent.txid).map (·.txid))).keys

/-- The state a transaction was verified against must be the pool's, or its only parent's. -/
def checkRoot (pool : CellPool) (admittedRoot : Hash) : List Hash → Except Fault Unit
  | [] => ensure (admittedRoot = pool.baseStateRoot)
      (.refused (.invalidTx "transaction was not admitted against the pool base state root"))
  | [parent] => do
      let entry ← okOr (find pool.inner.txs parent) (.refused (.txNotFound parent))
      ensure (admittedRoot = entry.resultingStateRoot)
        (.refused (.invalidTx "child admission root does not match its parent result root"))
  | _ => .error (.refused (.invalidTx
      "multi-parent package admission requires a combined overlay proof and is not supported"))

section Calls

variable (blake3 : List UInt8 → Hash)

/-- All that `add` checks; what it evicts, and the parents it finds. -/
def judge (pool : CellPool) (admitted : VerifiedStateTransaction) :
    Except Fault (SortedMap Hash Unit × List Hash) := do
  ensure (computeTxid blake3 admitted.tx = admitted.txid)
    (.refused (.invalidTx "admission proof transaction id mismatch"))
  ensure (spends admitted.tx).Nodup (.refused (.invalidTx "duplicate transaction input"))
  ensure (find pool.inner.txs admitted.txid = none) (.refused (.txExists admitted.txid))
  let directConflicts := SortedMap.ofKeys
    ((spends admitted.tx).filterMap fun outpoint => pool.inner.spentOutputs.get? outpoint)
  let evicted := descendantsIncluding pool.inner.txs directConflicts
  ensure (pool.inner.txs.length - evicted.len < pool.maxSize.toNat)
    (.refused (.mempoolFull pool.maxSize))
  checkReplacement pool.inner admitted evicted
  let dependencies := parents pool.inner.txs evicted admitted.tx
  checkRoot pool admitted.stateRoot dependencies
  pure (evicted, dependencies)

/-- The new entry. -/
def entryOf (admitted : VerifiedStateTransaction) (dependencies : List Hash) : PoolEntry :=
  { admitted with
    admittedStateRoot := admitted.stateRoot
    resultingStateRoot := admitted.stateRootAfter
    dependencies
    dependents := [] }

/-- `push`, `sort_unstable` and `dedup`. -/
def addChild (txid : Hash) (parent : PoolEntry) : PoolEntry :=
  { parent with
    dependents := ((parent.dependents ++ [txid]).insertionSort fun a b => a ≤ b).dedup }

/-- What an admission makes of a clone of the pool's content. -/
def nextInner (inner : PoolInner) (admitted : VerifiedStateTransaction) (evicted : SortedMap Hash Unit)
    (dependencies : List Hash) : Except Fault PoolInner := do
  let (_, next) ← removeAll inner evicted.keys
  let spentOutputs := (spends admitted.tx).foldl
    (fun spent outpoint => spent.insert outpoint admitted.txid) next.spentOutputs
  let txs := dependencies.foldl (fun txs parent => change parent (addChild admitted.txid) txs)
    next.txs
  let stats ← next.stats.add admitted.tx admitted.fee (evicted.len ≠ 0)
  pure ⟨txs ++ [entryOf admitted dependencies], spentOutputs, stats⟩

/-- Admit a verified transaction, in place of everything that conflicts with it.  Under the write
    lock: every exit returns what the guard holds then. -/
def add (admitted : VerifiedStateTransaction) (guard : CellPool) : Except Fault Hash × CellPool :=
  match judge blake3 guard admitted with
  | .error fault => (.error fault, guard)
  | .ok (evicted, dependencies) =>
      match nextInner guard.inner admitted evicted dependencies with
      | .error fault => (.error fault, guard)
      | .ok next => (.ok admitted.txid, { guard with inner := next })

/-- Remove a transaction and everything that descends from it. -/
def removePackage (txid : Hash) (guard : CellPool) : Except Fault (List CellTx) × CellPool :=
  if find guard.inner.txs txid = none then (.error (.refused (.txNotFound txid)), guard)
  else
    let package := descendantsIncluding guard.inner.txs (SortedMap.ofKeys [txid])
    match removeAll guard.inner package.keys with
    | .error fault => (.error fault, guard)
    | .ok (removed, next) => (.ok removed, { guard with inner := next })

end Calls

/-- One call on a pool. -/
inductive PoolCall where
  | add (admitted : VerifiedStateTransaction)
  | removePackage (txid : Hash)
  deriving DecidableEq

/-- Whether a call succeeds, and what it leaves in the guard. -/
def PoolCall.exec (blake3 : List UInt8 → Hash) (guard : CellPool) :
    PoolCall → Except Fault Unit × CellPool
  | .add admitted => (Mempool.add blake3 admitted guard).map (·.map fun _ => ()) id
  | .removePackage txid => (Mempool.removePackage txid guard).map (·.map fun _ => ()) id

/-- The pool a call that succeeds leaves behind. -/
def CellPool.call (blake3 : List UInt8 → Hash) (pool : CellPool) (call : PoolCall) :
    Except Fault CellPool :=
  (call.exec blake3 pool).1.map fun () => (call.exec blake3 pool).2

/-- The pool after some calls, whether they succeed or not. -/
def CellPool.run (blake3 : List UInt8 → Hash) (pool : CellPool) (calls : List PoolCall) : CellPool :=
  calls.foldl (fun pool call => (call.exec blake3 pool).2) pool

section Exits

variable {blake3 : List UInt8 → Hash} {pool : CellPool} {admitted : VerifiedStateTransaction}

lemma call_add :
    pool.call blake3 (.add admitted) = (do
      let (evicted, dependencies) ← judge blake3 pool admitted
      let next ← nextInner pool.inner admitted evicted dependencies
      pure { pool with inner := next }) := by
  simp only [CellPool.call, PoolCall.exec, add]
  rcases judge blake3 pool admitted with fault | ⟨evicted, dependencies⟩
  · rfl
  · dsimp only [bind, Except.bind]
    cases nextInner pool.inner admitted evicted dependencies <;> rfl

lemma call_removePackage :
    pool.call blake3 (.removePackage txid) = (do
      ensure (find pool.inner.txs txid ≠ none) (.refused (.txNotFound txid))
      let (_, next) ← removeAll pool.inner
        (descendantsIncluding pool.inner.txs (SortedMap.ofKeys [txid])).keys
      pure { pool with inner := next }) := by
  simp only [CellPool.call, PoolCall.exec, removePackage, ensure, ne_eq, ite_not]
  split
  · rfl
  · dsimp only [bind, Except.bind]
    cases removeAll pool.inner _ <;> rfl

/-- No exit after the guard is written is an error. -/
lemma PoolCall.exec_error {call : PoolCall} (h : (call.exec blake3 pool).1 = .error fault) :
    (call.exec blake3 pool).2 = pool := by
  revert h
  cases call with
  | add admitted =>
    rw [exec, Mempool.add]
    rcases judge blake3 pool admitted with error | ⟨evicted, dependencies⟩
    · exact fun _ => rfl
    · dsimp only
      cases nextInner pool.inner admitted evicted dependencies with
      | error => exact fun _ => rfl
      | ok next => exact nofun
  | removePackage txid =>
    rw [exec, Mempool.removePackage]
    split
    · exact fun _ => rfl
    · dsimp only
      cases removeAll pool.inner _ with
      | error => exact fun _ => rfl
      | ok result => exact nofun

end Exits

end Myelin.Mempool
