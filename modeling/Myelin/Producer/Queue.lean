/-
  The queue a block producer draws from.

  Transactions wait in submission order, each with the head it was built on.  `reserve` moves a
  prefix of the queue under a fresh reservation id; `acknowledge` forgets reservations, `release`
  puts them back in front.  A reservation is taken under the head the caller names: the first
  waiting transaction built on another head is an error, never skipped.

  The code only clones transactions and asks for their length, so it is written over an arbitrary
  type `τ` with `len` (`transaction.len() as u64`): taking numbered transactions for `τ` follows
  every single submission through the queue.
-/
import Myelin.Lib.SortedMap
import Myelin.Session.Types

namespace Myelin.Producer

open Lib Consensus Session

variable {τ : Type}

/-! ## Limits and errors -/

/-- Maximum transaction count and encoded bytes in one candidate. -/
structure BatchLimits where
  maxTransactions : Nat
  maxBytes : UInt64
  deriving DecidableEq, Repr

/-- Port-local failure with no claim about session or consensus semantics. -/
structure PortError where
  message : String
  deriving DecidableEq, Repr

/-- Producer failures. -/
inductive ProducerError where
  | invalidConfig (message : String)
  | invalidManualRequest (message : String)
  | manualUnavailableDuringOpen
  | source (message : String)
  | sourceAndRelease (sourceError release : String)
  | commit (message : String)
  | commitAndRelease (commitError release : String)
  | acknowledgeAfterCommit (blockHeight : UInt64) (blockHash : Hash32) (message : String)
  | batchLimit (message : String)
  | staleCandidate
  | outcomeUnknown (message : String)
  | commandsClosed
  deriving DecidableEq

/-- `Display` of a producer error. -/
def ProducerError.display : ProducerError → String
  | .invalidConfig message => "invalid producer configuration: " ++ message
  | .invalidManualRequest message => "invalid manual production request: " ++ message
  | .manualUnavailableDuringOpen =>
      "manual production is unavailable while the open-window policy is active"
  | .source message => "transaction source failed: " ++ message
  | .sourceAndRelease sourceError release =>
      "transaction source failed (" ++ sourceError ++ "); reservation release also failed (" ++
        release ++ ")"
  | .commit message => "candidate commit failed: " ++ message
  | .commitAndRelease commitError release =>
      "candidate commit failed (" ++ commitError ++ "); reservation release also failed (" ++
        release ++ ")"
  | .acknowledgeAfterCommit blockHeight blockHash message =>
      "block " ++ toString blockHeight ++ " (" ++ toString (blockHash.val.map UInt8.toNat) ++
        ") committed, then source acknowledgement failed: " ++ message
  | .batchLimit message => "transaction batch exceeds its configured limit: " ++ message
  | .staleCandidate => "candidate construction snapshot changed; rebuild required"
  | .outcomeUnknown message => "commit outcome unknown; reservations retained: " ++ message
  | .commandsClosed => "block producer command channel is closed"

/-- Whether a failed command stops the producer as well. -/
def ProducerError.isFatal : ProducerError → Bool
  | .invalidManualRequest _ | .manualUnavailableDuringOpen | .batchLimit _ => false
  | _ => true

/-- One source reservation. -/
structure TransactionSelection (τ : Type) where
  baseHead : SessionHead
  transactions : List τ
  reservation : Option Nat

variable {limits : BatchLimits} {selection : TransactionSelection τ}

section Batches

variable (len : τ → UInt64)

/-! ## Batch sizes -/

/-- Total encoded bytes, checked for overflow. -/
def transactionBytes (transactions : List τ) : Except ProducerError UInt64 :=
  transactions.foldlM (fun total transaction =>
    okOr (checkedAdd total (len transaction)) (.batchLimit "transaction bytes overflow")) 0

/-- The limits every candidate is checked against. -/
def validateTransactions (transactions : List τ) (limits : BatchLimits) :
    Except ProducerError Unit := do
  ensure (transactions.length ≤ limits.maxTransactions)
    (.batchLimit s!"transaction count {transactions.length} exceeds {limits.maxTransactions}")
  let bytes ← transactionBytes len transactions
  ensure (bytes ≤ limits.maxBytes)
    (.batchLimit s!"transaction bytes {bytes} exceed {limits.maxBytes}")

/-- What is left of the limits beside the transactions of an open window. -/
def remainingLimits (limits : BatchLimits) (count : Nat) (bytes : UInt64) :
    Except ProducerError BatchLimits := do
  ensure (count ≤ limits.maxTransactions) (.batchLimit "transaction count overflow")
  let maxBytes ← okOr (checkedSub limits.maxBytes bytes) (.batchLimit "transaction bytes overflow")
  pure { maxTransactions := limits.maxTransactions - count, maxBytes }

/-- What the producer checks of a selection its source returned. -/
def validateSelection (selection : TransactionSelection τ) (limits : BatchLimits) :
    Except ProducerError Unit := do
  ensure (¬(selection.transactions = [] ∧ selection.reservation.isSome))
    (.source "source returned an empty reservation")
  ensure (¬(selection.transactions ≠ [] ∧ selection.reservation = none))
    (.source "source returned transactions without a reservation")
  (validateTransactions len selection.transactions limits).mapError fun error =>
    .source ("source returned an invalid selection: " ++ error.display)

/-- The exact total of a batch. -/
def totalLen (transactions : List τ) : Nat := (transactions.map fun tx => (len tx).toNat).sum

variable {len} {transactions : List τ}

@[simp] lemma totalLen_nil : totalLen len [] = 0 := rfl

@[simp] lemma totalLen_cons :
    totalLen len (tx :: transactions) = (len tx).toNat + totalLen len transactions :=
  List.sum_cons

lemma totalLen_append :
    totalLen len (transactions ++ more) = totalLen len transactions + totalLen len more := by
  rw [totalLen, List.map_append, List.sum_append, totalLen, totalLen]

variable {bytes : UInt64}

lemma foldlM_bytes :
    transactions.foldlM (fun total transaction => okOr (checkedAdd total (len transaction))
      (ProducerError.batchLimit "transaction bytes overflow")) start = .ok bytes ↔
    bytes.toNat = start.toNat + totalLen len transactions := by
  induction transactions generalizing start with
  | nil =>
    rw [List.foldlM_nil, pure_eq_ok, ← UInt64.toNat_inj]
    exact eq_comm
  | cons tx rest ih =>
    simp only [List.foldlM_cons, eq_ok, ih, checkedAdd_eq_some, totalLen_cons]
    constructor
    · rintro ⟨middle, hmiddle, hend⟩
      omega
    · intro hend
      have := bytes.toNat_lt
      have hmiddle : (UInt64.ofNat (start.toNat + (len tx).toNat)).toNat =
          start.toNat + (len tx).toNat := toNat_word (by omega)
      exact ⟨_, hmiddle, by omega⟩

lemma transactionBytes_eq_ok :
    transactionBytes len transactions = .ok bytes ↔ bytes.toNat = totalLen len transactions := by
  rw [transactionBytes, foldlM_bytes]
  simp

/-- The batch limits, as a property of the batch. -/
def Within (len : τ → UInt64) (limits : BatchLimits) (transactions : List τ) : Prop :=
  transactions.length ≤ limits.maxTransactions ∧ totalLen len transactions ≤ limits.maxBytes.toNat

lemma validateTransactions_eq_ok :
    validateTransactions len transactions limits = .ok u ↔ Within len limits transactions := by
  simp only [validateTransactions, eq_ok, transactionBytes_eq_ok, UInt64.le_iff_toNat_le, Within,
    and_congr_right_iff]
  intro _
  constructor
  · rintro ⟨bytes, hbytes, hle⟩
    exact hbytes ▸ hle
  · intro hle
    have := limits.maxBytes.toNat_lt
    have hbytes : (UInt64.ofNat (totalLen len transactions)).toNat = totalLen len transactions :=
      toNat_word (by omega)
    exact ⟨_, hbytes, hbytes.trans_le hle⟩

lemma remainingLimits_eq_ok :
    remainingLimits limits count bytes = .ok remaining ↔
      remaining.maxTransactions + count = limits.maxTransactions ∧
      remaining.maxBytes.toNat + bytes.toNat = limits.maxBytes.toNat := by
  obtain ⟨left, room⟩ := remaining
  simp only [remainingLimits, eq_ok, checkedSub_eq_some, BatchLimits.mk.injEq]
  constructor
  · rintro ⟨hcount, _, hroom, rfl, rfl⟩
    exact ⟨by omega, hroom⟩
  · rintro ⟨hcount, hroom⟩
    exact ⟨by omega, room, hroom, by omega, rfl⟩

lemma validateSelection_eq_ok :
    validateSelection len selection limits = .ok u ↔
      (selection.transactions = [] ↔ selection.reservation = none) ∧
      Within len limits selection.transactions := by
  simp only [validateSelection, eq_ok, validateTransactions_eq_ok, ← and_assoc, and_congr_left_iff]
  intro _
  cases selection.reservation <;> simp

end Batches

/-! ## The queue -/

/-- What the queue's mutex protects.  Reservation ids are `u64`. -/
structure QueueState (τ : Type) where
  available : List (SessionHead × τ)
  reserved : SortedMap Nat (List (SessionHead × τ))
  nextReservation : Nat
  /-- Ids are given out in order. -/
  fresh : ∀ r, (reserved.get? r).isSome → r < nextReservation

namespace QueueState

/-- `QueueState::default`. -/
def initial : QueueState τ where
  available := []
  reserved := .empty
  nextReservation := 0
  fresh _ h := absurd h Bool.false_ne_true

/-- Move the front of the queue under the next id. -/
def take (state : QueueState τ) (count : Nat) (entries : List (SessionHead × τ)) :
    QueueState τ where
  available := state.available.drop count
  reserved := state.reserved.insert state.nextReservation entries
  nextReservation := state.nextReservation + 1
  fresh r h := by
    rw [SortedMap.get?_insert] at h
    split_ifs at h with heq
    · exact heq ▸ Nat.lt_succ_self _
    · exact (state.fresh r h).trans (Nat.lt_succ_self _)

/-- Forget reservations. -/
def forget (state : QueueState τ) (reservations : List Nat) : QueueState τ where
  available := state.available
  reserved := state.reserved.eraseAll reservations
  nextReservation := state.nextReservation
  fresh r h := by
    by_cases hmem : r ∈ reservations
    · rw [SortedMap.get?_eraseAll_of_mem hmem] at h
      exact absurd h Bool.false_ne_true
    · rw [SortedMap.get?_eraseAll hmem] at h
      exact state.fresh r h

lemma get?_next (state : QueueState τ) : state.reserved.get? state.nextReservation = none := by
  cases hget : state.reserved.get? state.nextReservation with
  | none => rfl
  | some entries =>
    have hlt := state.fresh state.nextReservation (by rw [hget]; rfl)
    exact absurd hlt (Nat.lt_irrefl _)

end QueueState

/-- Small FIFO source useful for embedding applications and deterministic tests. -/
structure QueuedTransactionSource (τ : Type) where
  state : QueueState τ
  maxTransactions : Nat
  maxTransactionBytes : UInt64

namespace QueuedTransactionSource

variable (len : τ → UInt64) (source : QueuedTransactionSource τ) (reservations : List Nat)

/-- An empty queue of a given capacity. -/
def new (maxTransactions : Nat) (maxTransactionBytes : UInt64) :
    Except ProducerError (QueuedTransactionSource τ) := do
  ensure (maxTransactions ≠ 0 ∧ maxTransactionBytes ≠ 0) (.invalidConfig
    "queue transaction capacity and max_transaction_bytes must be greater than zero")
  pure { state := .initial, maxTransactions, maxTransactionBytes }

/-- Number of available and reserved transactions. -/
def queued : Nat :=
  source.state.available.length + (source.state.reserved.entries.map (·.2.length)).sum

/-- Submit canonical encoded transaction bytes. -/
def submit (baseHead : SessionHead) (transaction : τ) :
    Except PortError (QueuedTransactionSource τ) := do
  ensure (len transaction ≤ source.maxTransactionBytes)
    ⟨s!"transaction bytes {len transaction} exceed queue limit {source.maxTransactionBytes}"⟩
  ensure (source.queued < source.maxTransactions)
    ⟨s!"transaction queue is full at {source.maxTransactions} entries"⟩
  pure { source with state :=
    { source.state with available := source.state.available ++ [(baseHead, transaction)] } }

/-- `reserve`'s scan of the waiting transactions: `count` more may be taken, `bytes` are taken
    already, and `none taken` yet while `first`.  The running total saturates in the comparison
    and wraps in the sum. -/
def takeBatch (baseHead : SessionHead) (maxBytes : UInt64) :
    Nat → UInt64 → Bool → List (SessionHead × τ) → Except PortError (List τ)
  | _, _, _, [] => .ok []
  | 0, _, _, _ :: _ => .ok []
  | count + 1, bytes, first, next :: rest =>
      if next.1 ≠ baseHead then
        .error ⟨"queued transaction construction head is stale; rebuild required"⟩
      else if maxBytes < len next.2 ∧ first then
        .error ⟨s!"front transaction bytes {len next.2} exceed batch capacity {maxBytes}"⟩
      else if maxBytes.toNat < min (bytes.toNat + (len next.2).toNat) (2 ^ 64 - 1) then
        .ok []
      else
        (takeBatch baseHead maxBytes count (bytes + len next.2) false rest).map (next.2 :: ·)

/-- Reserve up to the supplied remaining batch capacity. -/
def reserve (baseHead : SessionHead) (limits : BatchLimits) :
    Except PortError (TransactionSelection τ × QueuedTransactionSource τ) := do
  let transactions ←
    takeBatch len baseHead limits.maxBytes limits.maxTransactions 0 true source.state.available
  if transactions = [] then
    pure ({ baseHead, transactions, reservation := none }, source)
  else
    let reservation := source.state.nextReservation
    ensure (reservation + 1 < 2 ^ 64) ⟨"reservation id overflow"⟩
    pure ({ baseHead, transactions, reservation := some reservation },
      { source with state :=
        source.state.take transactions.length (transactions.map fun tx => (baseHead, tx)) })

/-- The check both `acknowledge` and `release` make of their reservations. -/
def checkReservations : Except PortError Unit := do
  ensure reservations.Nodup ⟨"duplicate reservation"⟩
  ensure (∀ r ∈ reservations, (source.state.reserved.get? r).isSome)
    ⟨"one or more reservations are unknown"⟩

/-- Forget reservations after the exact candidate is durably committed. -/
def acknowledge : Except PortError (QueuedTransactionSource τ) := do
  source.checkReservations reservations
  pure { source with state := source.state.forget reservations }

/-- What the reservations hold, collected while they are removed one by one. -/
def removed : List Nat → SortedMap Nat (List (SessionHead × τ)) → List (SessionHead × τ)
  | [], _ => []
  | r :: rest, reserved => (reserved.get? r).getD [] ++ removed rest (reserved.erase r)

/-- Make reservations available again after cancellation or failed commit. -/
def release : Except PortError (QueuedTransactionSource τ) := do
  if reservations = [] then
    pure source
  else
    source.checkReservations reservations
    let released := removed reservations source.state.reserved
    pure { source with state :=
      { source.state.forget reservations with available := released ++ source.state.available } }

/-! ## What each operation does -/

variable {len source reservations} {next : QueuedTransactionSource τ} {baseHead : SessionHead}

lemma submit_eq_ok :
    source.submit len baseHead tx = .ok next ↔
      len tx ≤ source.maxTransactionBytes ∧ source.queued < source.maxTransactions ∧
      { source with state :=
        { source.state with available := source.state.available ++ [(baseHead, tx)] } } = next := by
  simp only [submit, eq_ok]

/-- A batch is a prefix of the queue, no longer than asked for and built on the caller's head. -/
lemma takeBatch_ok (h : takeBatch len baseHead maxBytes count bytes first waiting = .ok txs) :
    waiting = (txs.map fun tx => (baseHead, tx)) ++ waiting.drop txs.length := by
  induction waiting generalizing count bytes first txs with
  | nil =>
    rw [takeBatch, Except.ok.injEq] at h
    subst h
    rfl
  | cons entry rest ih =>
    cases count with
    | zero =>
      rw [takeBatch, Except.ok.injEq] at h
      subst h
      rfl
    | succ count =>
      rw [takeBatch] at h
      split_ifs at h with hhead hfront hfull
      · rw [Except.ok.injEq] at h
        subst h
        rfl
      · obtain ⟨later, hlater, rfl⟩ := map_eq_ok.mp h
        have hentry : entry = (baseHead, entry.2) := Prod.ext (not_not.mp hhead) rfl
        rw [List.map_cons, List.cons_append, ← hentry, List.length_cons, List.drop_succ_cons,
          ← ih hlater]

/-- A reservation either finds nothing and changes nothing, or moves the front of the queue under
    the next id. -/
lemma reserve_ok (h : source.reserve len baseHead limits = .ok (selection, next)) :
    selection.baseHead = baseHead ∧
    ((selection.transactions = [] ∧ selection.reservation = none ∧ next = source) ∨
      (selection.transactions ≠ [] ∧ selection.reservation = some source.state.nextReservation ∧
        source.state.available = (selection.transactions.map fun tx => (baseHead, tx)) ++
          source.state.available.drop selection.transactions.length ∧
        next = { source with
          state := source.state.take selection.transactions.length
            (selection.transactions.map fun tx => (baseHead, tx)) })) := by
  obtain ⟨txs, hbatch, h⟩ := bind_eq_ok.mp h
  split_ifs at h with hempty
  · rw [pure_eq_ok, Prod.mk.injEq] at h
    obtain ⟨rfl, rfl⟩ := h
    exact ⟨rfl, .inl ⟨hempty, rfl, rfl⟩⟩
  · simp only [eq_ok, Prod.mk.injEq] at h
    obtain ⟨_, rfl, rfl⟩ := h
    exact ⟨rfl, .inr ⟨hempty, rfl, takeBatch_ok hbatch, rfl⟩⟩

lemma checkReservations_eq_ok :
    source.checkReservations reservations = .ok u ↔
      reservations.Nodup ∧ ∀ r ∈ reservations, (source.state.reserved.get? r).isSome := by
  simp only [checkReservations, eq_ok]

lemma removed_eq (h : reservations.Nodup) :
    removed reservations reserved = reserved.under reservations := by
  induction reservations generalizing reserved with
  | nil => rfl
  | cons r rest ih =>
    obtain ⟨hr, hrest⟩ := List.nodup_cons.mp h
    have hsame : (reserved.erase r).under rest = reserved.under rest :=
      SortedMap.under_congr fun j hj => SortedMap.get?_erase_ne fun heq => hr (heq ▸ hj)
    rw [removed, ih hrest, hsame]
    rfl

/-- Distinct reservations that the queue holds are acknowledged. -/
lemma acknowledge_held (hnodup : reservations.Nodup)
    (hheld : ∀ r ∈ reservations, (source.state.reserved.get? r).isSome) :
    source.acknowledge reservations =
      .ok { source with state := source.state.forget reservations } := by
  rw [acknowledge, checkReservations_eq_ok (u := ()) |>.mpr ⟨hnodup, hheld⟩]
  rfl

/-- Distinct reservations that the queue holds come back in front, in the order they are named. -/
lemma release_held (hnodup : reservations.Nodup)
    (hheld : ∀ r ∈ reservations, (source.state.reserved.get? r).isSome) :
    source.release reservations = .ok { source with state :=
      { source.state.forget reservations with
        available := source.state.reserved.under reservations ++ source.state.available } } := by
  rw [release]
  split_ifs with hnone
  · subst hnone
    rfl
  · rw [checkReservations_eq_ok (u := ()) |>.mpr ⟨hnodup, hheld⟩, removed_eq hnodup]
    rfl

/-- A reservation that is given back at once only uses up its id. -/
lemma release_reserved (h : source.reserve len baseHead limits = .ok (selection, next)) :
    ∃ back, next.release selection.reservation.toList = .ok back ∧
      back.state.available = source.state.available ∧
      back.state.reserved = source.state.reserved ∧
      back.maxTransactions = source.maxTransactions ∧
      back.maxTransactionBytes = source.maxTransactionBytes := by
  rcases (reserve_ok h).2 with ⟨_, hnone, rfl⟩ | ⟨_, hsome, hfront, rfl⟩
  · rw [hnone]
    exact ⟨_, rfl, rfl, rfl, rfl, rfl⟩
  · have hheld : ∀ r ∈ [source.state.nextReservation],
        ((source.state.take selection.transactions.length (selection.transactions.map
          fun tx => (baseHead, tx))).reserved.get? r).isSome := by
      intro r hr
      rw [List.mem_singleton.mp hr, QueueState.take, SortedMap.get?_insert_self]
      rfl
    rw [hsome, Option.toList_some]
    refine ⟨_, release_held (List.nodup_singleton _) hheld, ?_, ?_, rfl, rfl⟩
    · simp only [SortedMap.under, List.flatMap_singleton, QueueState.take,
        SortedMap.get?_insert_self, Option.getD_some]
      exact hfront.symm
    · show (source.state.reserved.insert _ _).erase _ = _
      rw [SortedMap.erase_insert, SortedMap.erase_of_get?_none source.state.get?_next]

end QueuedTransactionSource

end Myelin.Producer
