/-
  What one operation does to balances, locks and nonces.

  All sums are over natural numbers: a word that had wrapped around would break them.
-/
import Myelin.Transfer.State

namespace Myelin.Transfer

open Lib Consensus Session

/-! ## Quantities -/

/-- An amount of `kind`, counted in `asset`. -/
def share (asset kind : AssetId) (amount : Nat) : Nat := if kind = asset then amount else 0

lemma share_add (asset kind : AssetId) (first second : Nat) :
    share asset kind (first + second) = share asset kind first + share asset kind second := by
  unfold share
  split <;> rfl

/-- What an account adds to the free supply of an asset. -/
def AssetAccount.free (asset : AssetId) (account : AssetAccount) : Nat :=
  share asset account.asset account.available.toNat

/-- Free supply of an asset. -/
def balance (asset : AssetId) (accounts : List AssetAccount) : Nat :=
  (accounts.map (·.free asset)).sum

/-- What a lock holds of an asset. -/
def PendingLock.held (asset : AssetId) (lock : PendingLock) : Nat :=
  share asset lock.asset lock.amount.toNat

/-- What a payload carries of an asset. -/
def TransferPayload.carried (asset : AssetId) (payload : TransferPayload) : Nat :=
  share asset payload.asset payload.amount.toNat

/-- An account is untouched, or its version has grown. -/
def AssetAccount.Evolves (before after : AssetAccount) : Prop :=
  after.key = before.key ∧ after.components = before.components ∧
    (after = before ∨ before.version.toNat < after.version.toNat)

/-- No account disappears, and none changes without a new version. -/
def Evolves (before after : List AssetAccount) : Prop :=
  ∀ account ∈ before, ∃ next ∈ after, account.Evolves next

lemma PendingLock.MatchesPayload.held_eq {lock : PendingLock} {payload : TransferPayload}
    (h : lock.MatchesPayload env payload) (asset : AssetId) :
    lock.held asset = payload.carried asset := by
  obtain ⟨-, hasset, -, -, hamount, -⟩ := h
  rw [PendingLock.held, TransferPayload.carried, hasset, hamount]

lemma AssetAccount.Evolves.trans {a b : AssetAccount} (hab : a.Evolves b) (hbc : b.Evolves c) :
    a.Evolves c := by
  obtain ⟨hkey, hcomponents, hversion⟩ := hab
  obtain ⟨hkey', hcomponents', hversion'⟩ := hbc
  refine ⟨hkey'.trans hkey, hcomponents'.trans hcomponents, ?_⟩
  rcases hversion with rfl | hlt
  · exact hversion'
  · rcases hversion' with rfl | hlt'
    · exact .inr hlt
    · exact .inr (hlt.trans hlt')

lemma Evolves.refl (accounts : List AssetAccount) : Evolves accounts accounts :=
  fun account hmem => ⟨account, hmem, rfl, rfl, .inl rfl⟩

lemma Evolves.trans (h : Evolves first second) (h' : Evolves second third) :
    Evolves first third := by
  intro account hmem
  obtain ⟨middle, hmiddle, hstep⟩ := h account hmem
  obtain ⟨last, hlast, hstep'⟩ := h' middle hmiddle
  exact ⟨last, hlast, hstep.trans hstep'⟩

section Accounts

variable {accounts : List AssetAccount} {old new : AssetAccount}

section

variable (hsorted : Ascending AssetAccount.key accounts) (hold : old ∈ accounts)
  (hkey : old.key = new.key)
include hsorted hold hkey

/-- Overwriting an account shifts the supply by the difference. -/
lemma balance_replace (asset : AssetId) :
    balance asset (replace AssetAccount.key new accounts) + old.free asset =
      balance asset accounts + new.free asset := by
  have hbefore := ((perm_cons_remove hsorted hold).map (·.free asset)).sum_eq
  have hafter := ((replace_perm hsorted hold hkey).map (·.free asset)).sum_eq
  rw [List.map_cons, List.sum_cons] at hbefore hafter
  rw [hkey] at hbefore
  unfold balance
  omega

/-- Taking `n` out of an account. -/
lemma balance_debit (hn : new.available.toNat + n = old.available.toNat) (asset : AssetId) :
    balance asset (replace AssetAccount.key new accounts) + share asset old.asset n =
      balance asset accounts := by
  have hasset : old.asset = new.asset := (accountKey_inj.mp hkey).1
  have hshift := balance_replace hsorted hold hkey asset
  rw [AssetAccount.free, AssetAccount.free, ← hn, share_add, ← hasset] at hshift
  omega

/-- Adding `n` to an account. -/
lemma balance_credit (hn : new.available.toNat = old.available.toNat + n) (asset : AssetId) :
    balance asset (replace AssetAccount.key new accounts) =
      balance asset accounts + share asset old.asset n := by
  have hasset : old.asset = new.asset := (accountKey_inj.mp hkey).1
  have hshift := balance_replace hsorted hold hkey asset
  rw [AssetAccount.free, AssetAccount.free, hn, share_add, ← hasset] at hshift
  omega

end

lemma balance_insertSorted (account : AssetAccount) (asset : AssetId) :
    balance asset (insertSorted AssetAccount.key account accounts) =
      balance asset accounts + account.free asset := by
  have hsum := ((insertSorted_perm AssetAccount.key account accounts).map (·.free asset)).sum_eq
  rw [List.map_cons, List.sum_cons] at hsum
  rw [balance, balance, hsum, Nat.add_comm]

lemma evolves_replace (hsorted : Ascending AssetAccount.key accounts) (hold : old ∈ accounts)
    (hstep : old.Evolves new) : Evolves accounts (replace AssetAccount.key new accounts) := by
  intro account hmem
  by_cases hkey : account.key = new.key
  · obtain rfl : account = old := hsorted.eq_of_key hmem hold (hkey.trans hstep.1)
    exact ⟨new, (mem_replace hold hkey).mpr (.inl rfl), hstep⟩
  · exact ⟨account, (mem_replace hold hstep.1.symm).mpr (.inr ⟨hmem, hkey⟩), rfl, rfl, .inl rfl⟩

/-- The version of a touched account is one higher. -/
lemma version_lt (h : checkedAdd version 1 = some next) : version.toNat < next.toNat := by
  have hnext := checkedAdd_eq_some.mp h
  have hone : (1 : UInt64).toNat = 1 := rfl
  omega

end Accounts

namespace TransferState

variable {env : TransferEnv} {state next : TransferState} {binding : SourceIdentity}
  {event : TransferEvent}

lemma account_ok {account : AssetAccount} (h : state.account asset owner = some account) :
    account ∈ state.accounts ∧ account.asset = asset ∧ account.owner = owner := by
  obtain ⟨hmem, hkey⟩ := mem_of_lookup h
  obtain ⟨hasset, howner⟩ := accountKey_inj.mp hkey
  exact ⟨hmem, hasset, howner⟩

/-- Issuing moves an amount from an account into a new lock, and uses up a nonce. -/
lemma issue_ok (hvalid : state.Valid) (hkind : state.policy.kind = .scarce)
    (h : state.issue env binding intent expectedId = .ok (next, event)) :
    ∃ payload lock, verifyIntent env intent = .ok (lock.transferId, payload) ∧
      payload.source = binding ∧ lock.MatchesPayload env.session payload ∧
      (∀ other ∈ state.pending, other.transferId ≠ lock.transferId) ∧
      (payload.owner, payload.nonce) ∉ state.usedNonces ∧ next.policy = state.policy ∧
      next.pending.Perm (lock :: state.pending) ∧
      next.usedNonces.Perm ((payload.owner, payload.nonce) :: state.usedNonces) ∧
      (∀ asset, balance asset next.accounts + lock.held asset = balance asset state.accounts) ∧
      Evolves state.accounts next.accounts := by
  simp only [issue, eq_ok, TransferPolicy.matchesPayload, Prod.mk.injEq] at h
  obtain ⟨⟨id, payload⟩, hverify, ⟨hmatch, -⟩, ⟨hsource, -⟩, hnonce, account, haccount, -,
    ⟨account', pending⟩, hlock, version, hversion, rfl, -⟩ := h
  rw [lock, if_pos (hmatch ▸ hkind)] at hlock
  simp only [eq_ok, Prod.mk.injEq] at hlock
  obtain ⟨available, havailable, locked, -, hfresh, rfl, rfl⟩ := hlock
  obtain ⟨hmem, hasset, -⟩ := account_ok haccount
  refine ⟨payload, _, hverify, hsource, ⟨hsource.symm, rfl, rfl, rfl, rfl, rfl, rfl, rfl⟩,
    lookup_eq_none.mp hfresh, hnonce, rfl, insertSorted_perm _ _ _, insertSorted_perm _ _ _,
    fun asset => ?_, evolves_replace hvalid.accounts hmem ⟨rfl, rfl, .inr (version_lt hversion)⟩⟩
  rw [PendingLock.held, ← hasset]
  refine balance_debit hvalid.accounts hmem ?_ (checkedSub_eq_some.mp havailable) asset
  rfl

/-- Taking a handoff in credits exactly the payload's amount. -/
lemma intake_ok {handoff : SessionHandoff} (hvalid : state.Valid)
    (hkind : state.policy.kind = .scarce)
    (h : state.intake env binding handoff expectedId timestampMs = .ok (next, event)) :
    ∃ transferId payload, verifyHandoff env handoff = .ok (transferId, payload) ∧
      payload.source.sessionId = handoff.sourceSessionId ∧ next.policy = state.policy ∧
      next.pending = state.pending ∧ next.usedNonces = state.usedNonces ∧
      (∀ asset, balance asset next.accounts = balance asset state.accounts + payload.carried asset) ∧
      Evolves state.accounts next.accounts := by
  simp only [intake, eq_ok, TransferPolicy.matchesPayload, Prod.mk.injEq] at h
  obtain ⟨-, ⟨transferId, payload⟩, hverify, ⟨hmatch, -⟩, ⟨-, hsource, -⟩, -, -, accounts, hcredit, rfl,
    -⟩ := h
  refine ⟨transferId, payload, hverify, hsource, rfl, rfl, rfl, ?_⟩
  rw [credit, if_pos (hmatch ▸ hkind)] at hcredit
  split at hcredit
  case h_1 account haccount =>
    simp only [eq_ok] at hcredit
    obtain ⟨-, available, havailable, version, hversion, rfl⟩ := hcredit
    obtain ⟨hmem, hasset, -⟩ := account_ok haccount
    refine ⟨fun asset => ?_,
      evolves_replace hvalid.accounts hmem ⟨rfl, rfl, .inr (version_lt hversion)⟩⟩
    rw [TransferPayload.carried, ← hasset]
    refine balance_credit hvalid.accounts hmem ?_ (checkedAdd_eq_some.mp havailable) asset
    rfl
  case h_2 =>
    cases hcredit
    exact ⟨fun asset => balance_insertSorted _ asset, fun other hmem =>
      ⟨other, mem_insertSorted.mpr (.inr hmem), rfl, rfl, .inl rfl⟩⟩

/-- What each lifecycle action does to the state, once its lock is found. -/
inductive LifecycleEffect (state : TransferState) (lock : PendingLock) (next : TransferState) :
    HandoffAction → Prop where
  | cancel (id : Hash32) : next = state → LifecycleEffect state lock next (.cancel id)
  | reclaim (id : Hash32) : next.pending = remove PendingLock.transferId lock.transferId state.pending →
      (∀ asset, balance asset next.accounts = balance asset state.accounts + lock.held asset) →
      LifecycleEffect state lock next (.reclaim id)
  | retire (id : Hash32) (consumedAt : HandoffBlockReference) :
      next.pending = remove PendingLock.transferId lock.transferId state.pending →
      (∀ asset, balance asset next.accounts = balance asset state.accounts) →
      LifecycleEffect state lock next (.retire id consumedAt)

/-- No lifecycle action makes a lock. -/
lemma LifecycleEffect.mem_pending {lock other : PendingLock} {action : HandoffAction}
    (h : LifecycleEffect state lock next action) (hother : other ∈ next.pending) :
    other ∈ state.pending := by
  cases h with
  | cancel _ hsame => exact hsame ▸ hother
  | reclaim _ hpending _ | retire _ _ hpending _ => exact (mem_remove.mp (hpending ▸ hother)).1

/-- A lifecycle action is about the exact lock its handoff was issued with. -/
lemma lifecycle_ok {action : ResolvedHandoffAction} (hvalid : state.Valid)
    (h : state.lifecycle env binding action authorization = .ok (next, event)) :
    ∃ payload lock, verifyHandoff env action.handoff = .ok (lock.transferId, payload) ∧
      payload.source.sessionId = action.handoff.sourceSessionId ∧ lock ∈ state.pending ∧
      lock.MatchesPayload env.session payload ∧ next.policy = state.policy ∧
      next.usedNonces = state.usedNonces ∧ LifecycleEffect state lock next action.action ∧
      Evolves state.accounts next.accounts := by
  simp only [lifecycle, eq_ok] at h
  obtain ⟨⟨transferId, payload⟩, hverify, -, ⟨-, hsource, -⟩, lock, hlock, hmatch, h⟩ := h
  obtain ⟨hmem, rfl⟩ := mem_of_lookup hlock
  refine ⟨payload, lock, hverify, hsource, hmem, hmatch, ?_⟩
  split at h
  case h_1 signature haction _ =>
    rw [haction]
    simp only [cancel, eq_ok, Prod.mk.injEq] at h
    obtain ⟨_, -, -, rfl, -⟩ := h
    exact ⟨rfl, rfl, .cancel _ rfl, .refl _⟩
  case h_2 haction _ =>
    rw [haction]
    simp only [reclaim, eq_ok, Prod.mk.injEq] at h
    obtain ⟨account, haccount, locked, -, available, havailable, version, hversion, rfl, -⟩ := h
    obtain ⟨haccountMem, hasset, -⟩ := account_ok haccount
    refine ⟨rfl, rfl, .reclaim _ rfl fun asset => ?_,
      evolves_replace hvalid.accounts haccountMem ⟨rfl, rfl, .inr (version_lt hversion)⟩⟩
    rw [hmatch.held_eq asset, TransferPayload.carried, ← hasset]
    refine balance_credit hvalid.accounts haccountMem ?_ (checkedAdd_eq_some.mp havailable) asset
    rfl
  case h_3 haction _ =>
    rw [haction]
    simp only [retire, eq_ok, Prod.mk.injEq] at h
    obtain ⟨account, haccount, locked, -, version, hversion, rfl, -⟩ := h
    obtain ⟨haccountMem, -⟩ := account_ok haccount
    refine ⟨rfl, rfl, .retire _ _ rfl fun asset => ?_,
      evolves_replace hvalid.accounts haccountMem ⟨rfl, rfl, .inr (version_lt hversion)⟩⟩
    refine Nat.add_right_cancel (m := account.free asset)
      (balance_replace hvalid.accounts haccountMem ?_ asset)
    rfl
  case h_4 => cases h

end TransferState

end Myelin.Transfer
