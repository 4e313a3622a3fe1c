/-
  The transfer state and its four operations.

  `validate` recomputes every account's locked amount from the pending locks, with checked sums; the
  operations use checked arithmetic throughout.  So whatever `validate` accepts is described by
  `TransferState.Valid`, in natural numbers, and each operation by ONE lemma that says what it did
  to balances, locks and nonces (`issue_ok`, `intake_ok`, `cancel_ok`, `reclaim_ok`, `retire_ok`).
-/
import Myelin.Transfer.Policy

namespace Myelin.Transfer

open Lib Consensus Session

/-! ## Keys -/

/-- Order of the accounts: asset, then owner. -/
abbrev AccountKey := Hash32 ×ₗ Hash32 ×ₗ Hash32

/-- Key of an owner's account for an asset. -/
def accountKey (asset : AssetId) (owner : Hash32) : AccountKey :=
  toLex (asset.namespace, toLex (asset.object, owner))

/-- Key an account is stored under. -/
def AssetAccount.key (account : AssetAccount) : AccountKey := accountKey account.asset account.owner

/-- Key of the account behind a lock. -/
def PendingLock.account (lock : PendingLock) : AccountKey := accountKey lock.asset lock.owner

/-- Order of the used nonces. -/
def nonceKey (nonce : Hash32 × Hash32) : Hash32 ×ₗ Hash32 := toLex nonce

lemma accountKey_inj :
    accountKey asset owner = accountKey asset' owner' ↔ asset = asset' ∧ owner = owner' := by
  obtain ⟨space, object⟩ := asset
  obtain ⟨space', object'⟩ := asset'
  simp [accountKey, and_assoc]

variable (env : TransferEnv) (state : TransferState) (binding : SourceIdentity)

namespace TransferState

/-! ## Validation -/

section Validation

variable (env : SessionEnv) (state : TransferState)

/-- The account of an owner. -/
def account (asset : AssetId) (owner : Hash32) : Option AssetAccount :=
  lookup AssetAccount.key (accountKey asset owner) state.accounts

/-- Everybody with rights in the state, in order. -/
def owners : List Hash32 :=
  (state.accounts.map (·.owner) ++ state.receipts.map (·.recipient)).dedup.insertionSort (· ≤ ·)

/-- Check one pending lock and add it to its account's sum. -/
def checkPending (locked : SortedMap AccountKey UInt64) (pending : PendingLock) :
    Except TransferError (SortedMap AccountKey UInt64) := do
  pending.asset.validate
  pending.source.validate
  ensure (state.policy.kind = .scarce ∧ pending.amount ≠ 0 ∧
      zeroHash ∉ [pending.transferId, pending.owner, pending.recipient, pending.nonce])
    (.state "invalid pending lock")
  let account ← okOr (state.account pending.asset pending.owner) (.state "lock has no source account")
  ensure (pending.sourceVersion < account.version ∧
      env.blake3 account.components = pending.componentsHash ∧
      (pending.owner, pending.nonce) ∈ state.usedNonces)
    (.state "pending lock does not match the account/version/nonce")
  let value ← okOr (checkedAdd ((locked.get? pending.account).getD 0) pending.amount)
    (.state "pending amount overflow")
  pure (locked.insert pending.account value)

/-- Check one account against the sums of the pending locks. -/
def checkAccount (locked : SortedMap AccountKey UInt64) (account : AssetAccount) :
    Except TransferError Unit := do
  account.asset.validate
  (env.crypto.parseXOnlyPublicKey account.owner).mapError fun _ =>
    .state "account owner is not a Schnorr public key"
  ensure (account.owner ≠ zeroHash ∧
      account.components.length ≤ state.policy.limits.maxComponentsBytes.toNat ∧
      checkedAdd account.available account.locked ≠ none ∧
      (locked.get? account.key).getD 0 = account.locked)
    (.state "invalid account or locked amount does not equal pending locks")

/-- Check one receipt; `handoffs` are those of the receipts before it. -/
def checkReceipt (handoffs : List Hash32) (receipt : Receipt) :
    Except TransferError (List Hash32) := do
  receipt.asset.validate
  receipt.source.validate
  ensure (receipt.kind = state.policy.kind ∧ receipt.amount ≠ 0 ∧
      zeroHash ∉ [receipt.transferId, receipt.handoffId, receipt.recipient, receipt.sourceStateRoot] ∧
      receipt.components.length ≤ state.policy.limits.maxComponentsBytes.toNat ∧
      receipt.handoffId ∉ handoffs ∧ ¬ (receipt.kind = .copyableReceipt ∧ receipt.amount ≠ 1))
    (.state "invalid receipt/nullifier")
  pure (receipt.handoffId :: handoffs)

/-- Everything a state must satisfy. -/
def validate : Except TransferError Unit := do
  state.policy.validate
  ensure (state.accounts.length ≤ state.policy.limits.maxAccounts.toNat) (.bounds "accounts")
  ensure (state.pending.length ≤ state.policy.limits.maxPending.toNat) (.bounds "pending locks")
  ensure (state.receipts.length ≤ state.policy.limits.maxReceipts.toNat)
    (.bounds "receipt nullifiers")
  ensure (state.usedNonces.length ≤ state.policy.limits.maxNonces.toNat) (.bounds "source nonces")
  ensure (Ascending AssetAccount.key state.accounts ∧ Ascending PendingLock.transferId state.pending ∧
      Ascending Receipt.transferId state.receipts ∧ Ascending nonceKey state.usedNonces)
    (.state "state indexes must be sorted and unique")
  let locked ← state.pending.foldlM (state.checkPending env) SortedMap.empty
  forResult (state.checkAccount env locked) state.accounts
  let _ ← state.receipts.foldlM state.checkReceipt []
  ensure (∀ nonce ∈ state.usedNonces, nonce.1 ≠ zeroHash ∧ nonce.2 ≠ zeroHash)
    (.state "zero used nonce")

end Validation

/-- A state with accounts and nothing else. -/
def new (env : SessionEnv) (policy : TransferPolicy) (accounts : List AssetAccount) :
    Except TransferError TransferState := do
  let state : TransferState :=
    ⟨policy, accounts.insertionSort (fun a b => a.key ≤ b.key), [], [], []⟩
  state.validate env
  pure state

/-- Root committed by blocks. -/
def root : Except TransferError Hash32 := do
  state.validate env.session
  Codec.hash env.session "myelin:reference-transfer-state-root:v1" (env.postcard.state state)

/-- Snapshot of the state. -/
def encode : Except TransferError (List UInt8) := do
  state.validate env.session
  Codec.encode env.session "MTRS" (env.postcard.state state) maxRecordBytes

/-- Read a snapshot and check it. -/
def decode (env : TransferEnv) (bytes : List UInt8) : Except TransferError TransferState := do
  let state ← Codec.decode env.session "MTRS" env.postcard.state env.postcard.takeState bytes
    maxRecordBytes
  state.validate env.session
  pure state

/-! ## Operations -/

/-- For a scarce transfer, move the amount from available to locked and enter the lock. -/
def lock (env : SessionEnv) (state : TransferState) (binding : SourceIdentity) (id : Hash32)
    (payload : TransferPayload) (account : AssetAccount) :
    Except TransferError (AssetAccount × List PendingLock) :=
  if payload.kind = .scarce then do
    let available ← okOr (checkedSub account.available payload.amount) (.state "insufficient balance")
    let locked ← okOr (checkedAdd account.locked payload.amount) (.state "lock overflow")
    ensure (lookup PendingLock.transferId id state.pending = none)
      (.authorization "transfer already locked")
    pure ({ account with available, locked }, insertSorted PendingLock.transferId { payload with
      transferId := id
      source := binding
      componentsHash := env.blake3 payload.components } state.pending)
  else pure (account, state.pending)

/-- Issue a transfer. -/
def issue (intent : HandoffIntent) (expectedId : Hash32) :
    Except TransferError (TransferState × TransferEvent) := do
  let (id, payload) ← verifyIntent env intent
  state.policy.matchesPayload payload
  ensure (payload.source = binding ∧ id = expectedId)
    (.authorization "source genesis or command transfer ID mismatch")
  ensure ((payload.owner, payload.nonce) ∉ state.usedNonces) (.authorization "owner nonce already used")
  let account ← okOr (state.account payload.asset payload.owner)
    (.authorization "actor does not own the source object")
  ensure (account.version = payload.sourceVersion ∧ account.components = payload.components ∧
      payload.amount ≤ account.available)
    (.authorization "source object version, components or available amount mismatch")
  let (account, pending) ← state.lock env.session binding id payload account
  let version ← okOr (checkedAdd account.version 1) (.state "object version overflow")
  pure ({ state with
      accounts := replace AssetAccount.key { account with version } state.accounts
      pending
      usedNonces := insertSorted nonceKey (payload.owner, payload.nonce) state.usedNonces },
    .issued id payload.kind payload.amount)

end TransferState

/-- A lock is the one a payload asked for. -/
def PendingLock.MatchesPayload (env : SessionEnv) (lock : PendingLock) (payload : TransferPayload) :
    Prop :=
  lock.source = payload.source ∧ lock.asset = payload.asset ∧ lock.owner = payload.owner ∧
    lock.recipient = payload.recipient ∧ lock.amount = payload.amount ∧ lock.nonce = payload.nonce ∧
    lock.sourceVersion = payload.sourceVersion ∧
    lock.componentsHash = env.blake3 payload.components

instance (env : SessionEnv) (lock : PendingLock) (payload : TransferPayload) :
    Decidable (lock.MatchesPayload env payload) :=
  inferInstanceAs (Decidable (_ ∧ _))

namespace TransferState

/-- The cancelled arm of `lifecycle`. -/
def cancel (env : SessionEnv) (state : TransferState) (binding : SourceIdentity)
    (transferId handoffId : Hash32) (payload : TransferPayload) (signature : List UInt8) :
    Except TransferError (TransferState × TransferEvent) := do
  let digest ← cancellationDigest env binding.genesisCommitment transferId handoffId payload.owner
  verifyOwner env payload.owner digest signature "cancellation owner signature is invalid"
  pure (state, .cancelled transferId handoffId)

/-- The refund arm of `lifecycle`. -/
def reclaim (transferId handoffId : Hash32) (payload : TransferPayload) :
    Except TransferError (TransferState × TransferEvent) := do
  let account ← okOr (state.account payload.asset payload.owner) (.state "refund owner account absent")
  let locked ← okOr (checkedSub account.locked payload.amount) (.state "refund exceeds lock")
  let available ← okOr (checkedAdd account.available payload.amount) (.state "refund overflow")
  let version ← okOr (checkedAdd account.version 1) (.state "refund version overflow")
  pure ({ state with
      accounts := replace AssetAccount.key { account with available, locked, version } state.accounts
      pending := remove PendingLock.transferId transferId state.pending },
    .reclaimed transferId handoffId payload.amount)

/-- The retirement arm of `lifecycle`: the lock goes, nobody is credited. -/
def retire (transferId handoffId : Hash32) (payload : TransferPayload) :
    Except TransferError (TransferState × TransferEvent) := do
  let account ← okOr (state.account payload.asset payload.owner)
    (.state "retirement owner account absent")
  let locked ← okOr (checkedSub account.locked payload.amount) (.state "retirement exceeds lock")
  let version ← okOr (checkedAdd account.version 1) (.state "retirement version overflow")
  pure ({ state with
      accounts := replace AssetAccount.key { account with locked, version } state.accounts
      pending := remove PendingLock.transferId transferId state.pending },
    .retired transferId handoffId payload.amount)

/-- Apply a lifecycle action to its source lock. -/
def lifecycle (action : ResolvedHandoffAction) (authorization : Option (List UInt8)) :
    Except TransferError (TransferState × TransferEvent) := do
  let (transferId, payload) ← verifyHandoff env action.handoff
  state.policy.matchesPayload payload
  ensure (payload.kind = .scarce ∧ payload.source.sessionId = action.handoff.sourceSessionId ∧
      payload.source.applicationProfileCommitment =
        action.handoff.sourceApplicationProfileCommitment ∧
      payload.source.consensusModuleCommitment = action.handoff.sourceConsensusModuleCommitment)
    (.authorization "lifecycle requires the original source's scarce lock")
  let lock ← okOr (lookup PendingLock.transferId transferId state.pending)
    (.authorization "no pending source lock for lifecycle action")
  ensure (lock.MatchesPayload env.session payload)
    (.authorization "lifecycle witness does not match exact source lock")
  let handoffId := action.handoff.id env.session
  match action.action, authorization, action.cancelledAt with
  | .cancel _, some signature, none =>
      state.cancel env.session binding transferId handoffId payload signature
  | .reclaim _, none, some _ => state.reclaim transferId handoffId payload
  | .retire _ _, none, none => state.retire transferId handoffId payload
  | _, _, _ => .error (.authorization "lifecycle command/witness mismatch")

/-- The payload names this session, or its intake policy. -/
def checkTarget (target : TransferTarget) : Except TransferError Unit :=
  match target with
  | .session sessionId genesisCommitment =>
      ensure (sessionId = binding.sessionId ∧ genesisCommitment = binding.genesisCommitment)
        (.authorization "target genesis or policy mismatch")
  | .sharedStorePolicy policyCommitment => do
      let intakePolicy ← state.policy.intakePolicy env
      ensure (policyCommitment = intakePolicy) (.authorization "target genesis or policy mismatch")

/-- For a scarce transfer, credit the recipient, opening an account if there is none. -/
def credit (payload : TransferPayload) : Except TransferError (List AssetAccount) :=
  if payload.kind = .scarce then
    match state.account payload.asset payload.recipient with
    | some account => do
        ensure (account.components = payload.components) (.state "target object components conflict")
        let available ← okOr (checkedAdd account.available payload.amount)
          (.state "target amount overflow")
        let version ← okOr (checkedAdd account.version 1) (.state "target version overflow")
        pure (replace AssetAccount.key { account with available, version } state.accounts)
    | none => pure (insertSorted AssetAccount.key {
        asset := payload.asset
        owner := payload.recipient
        available := payload.amount
        locked := 0
        version := 0
        components := payload.components } state.accounts)
  else pure state.accounts

/-- Take a handoff in. -/
def intake (handoff : SessionHandoff) (expectedId : Hash32) (timestampMs : UInt64) :
    Except TransferError (TransferState × TransferEvent) := do
  let id := handoff.id env.session
  ensure (id = expectedId ∧ timestampMs ≤ handoff.expiresAtMs)
    (.authorization "handoff identity or expiry mismatch")
  let (transferId, payload) ← verifyIntent env (intentFromHandoff handoff)
  state.policy.matchesPayload payload
  ensure (lookup SourceIdentity.sessionId payload.source.sessionId state.policy.acceptedSources =
        some payload.source ∧
      payload.source.sessionId = handoff.sourceSessionId ∧
      payload.source.applicationProfileCommitment = handoff.sourceApplicationProfileCommitment ∧
      payload.source.consensusModuleCommitment = handoff.sourceConsensusModuleCommitment)
    (.source "handoff does not match a pinned source genesis/profile/authority")
  state.checkTarget env binding payload.target
  ensure (lookup Receipt.transferId transferId state.receipts = none)
    (.authorization "transfer nullifier already credited")
  let accounts ← state.credit payload
  pure ({ state with
      accounts
      receipts := insertSorted Receipt.transferId { payload with
        transferId
        handoffId := id
        sourceHeight := handoff.sourceHeight
        sourceStateRoot := handoff.sourceStateRoot } state.receipts },
    .received transferId id payload.kind payload.amount)

/-! ## What validation establishes -/

/-- Total of the locks on one account. -/
def lockedSum (key : AccountKey) (pending : List PendingLock) : Nat :=
  ((pending.filter (·.account = key)).map (·.amount.toNat)).sum

/-- An accepted state, in natural numbers. -/
structure Valid (state : TransferState) : Prop where
  bounds : state.WithinBounds
  accounts : Ascending AssetAccount.key state.accounts
  pending : Ascending PendingLock.transferId state.pending
  nonces : ∀ lock ∈ state.pending, (lock.owner, lock.nonce) ∈ state.usedNonces
  locked : ∀ account ∈ state.accounts, account.locked.toNat = lockedSum account.key state.pending
  total : ∀ account ∈ state.accounts, account.available.toNat + account.locked.toNat < 2 ^ 64

section Validate

variable {env : SessionEnv} {state : TransferState}

lemma checkPending_ok {locked : SortedMap AccountKey UInt64} {lock : PendingLock}
    (h : state.checkPending env locked lock = .ok next) :
    (lock.owner, lock.nonce) ∈ state.usedNonces ∧ ∃ value : UInt64,
      value.toNat = ((locked.get? lock.account).getD 0).toNat + lock.amount.toNat ∧
        next = locked.insert lock.account value := by
  simp only [checkPending, eq_ok, checkedAdd_eq_some] at h
  obtain ⟨-, -, -, _, -, ⟨-, -, hnonce⟩, value, hvalue, rfl⟩ := h
  exact ⟨hnonce, value, hvalue, rfl⟩

/-- The map of locked amounts holds, for every account, the exact total of its locks. -/
lemma foldlM_checkPending (h : list.foldlM (state.checkPending env) locked = .ok total)
    (key : AccountKey) :
    ((total.get? key).getD 0).toNat = ((locked.get? key).getD 0).toNat + lockedSum key list := by
  induction list generalizing locked with
  | nil =>
    rw [List.foldlM_nil, pure_eq_ok] at h
    simp [h, lockedSum]
  | cons lock rest ih =>
    rw [List.foldlM_cons, bind_eq_ok] at h
    obtain ⟨next, hstep, hrest⟩ := h
    obtain ⟨-, value, hvalue, rfl⟩ := checkPending_ok hstep
    rw [ih hrest, SortedMap.get?_insert]
    by_cases hkey : lock.account = key
    · subst hkey
      have hsum : lockedSum lock.account (lock :: rest) =
          lock.amount.toNat + lockedSum lock.account rest := by simp [lockedSum]
      rw [if_pos rfl, Option.getD_some, hvalue, hsum]
      omega
    · have hsum : lockedSum key (lock :: rest) = lockedSum key rest := by simp [lockedSum, hkey]
      rw [if_neg (Ne.symm hkey), hsum]

lemma policy_bounds {policy : TransferPolicy} (h : policy.validate = .ok ()) :
    policy.acceptedSources.length ≤ maxSequenceItems ∧
      ∀ value ∈ [policy.limits.maxAccounts, policy.limits.maxPending, policy.limits.maxReceipts,
        policy.limits.maxNonces], value.toNat ≤ maxSequenceItems := by
  simp only [TransferPolicy.validate, eq_ok] at h
  obtain ⟨-, hlimits, ⟨-, hsources⟩, -, -⟩ := h
  have hmax : 1024 ≤ maxSequenceItems := by decide
  exact ⟨hsources.trans hmax,
    fun value hvalue => (of_decide_eq_true (List.all_eq_true.mp hlimits value hvalue)).2⟩

lemma valid_of_validate (h : state.validate env = .ok ()) : state.Valid := by
  simp only [validate, eq_ok, forResult_eq_ok] at h
  obtain ⟨hpolicy, haccounts, hpending, hreceipts, hnonces, ⟨hsorted, hlocks, -, -⟩, locked, hlocked,
    hchecked, -⟩ := h
  obtain ⟨hsources, hlimits⟩ := policy_bounds hpolicy
  simp only [List.forall_mem_cons] at hlimits
  obtain ⟨hmaxAccounts, hmaxPending, hmaxReceipts, hmaxNonces, -⟩ := hlimits
  have haccount : ∀ account ∈ state.accounts,
      checkedAdd account.available account.locked ≠ none ∧
        (locked.get? account.key).getD 0 = account.locked := by
    intro account hmem
    have hone := hchecked account hmem
    simp only [checkAccount, eq_ok] at hone
    obtain ⟨-, -, -, -, htotal, hsum⟩ := hone
    exact ⟨htotal, hsum⟩
  refine ⟨⟨hsources, by omega, by omega, by omega, by omega⟩, hsorted, hlocks, ?_, ?_, ?_⟩
  · exact (foldlM_invariant (f := state.checkPending env) (I := fun _ => True)
      (fun _ _ _ _ hstep => ⟨trivial, (checkPending_ok hstep).1⟩) trivial hlocked).2
  · intro account hmem
    rw [← (haccount account hmem).2, foldlM_checkPending hlocked account.key]
    simp
  · intro account hmem
    have hnone := (haccount account hmem).1
    rw [ne_eq, checkedAdd_eq_none] at hnone
    omega

end Validate

variable {env state}

/-- A snapshot is read back as the state it was taken of. -/
lemma decode_encode (h : state.encode env = .ok bytes) : decode env bytes = .ok state := by
  simp only [encode, eq_ok] at h
  obtain ⟨hvalid, hencode⟩ := h
  obtain ⟨hsize, -⟩ := Codec.encode_eq_ok hencode
  have htake := env.postcard.takeState_state state (valid_of_validate hvalid).bounds (by omega)
  simp only [decode, eq_ok]
  exact ⟨state, Codec.decode_encode (by decide) hencode htake, hvalid, rfl⟩

lemma valid_of_decode (h : decode env bytes = .ok state) : state.Valid := by
  simp only [decode, eq_ok] at h
  obtain ⟨_, -, hvalid, rfl⟩ := h
  exact valid_of_validate hvalid

end TransferState

end Myelin.Transfer
