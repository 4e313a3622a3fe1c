/-
  Transfers as escrow.

  A session is a party, its available amounts are free value and its pending locks are locks; a
  handoff is a claim, whose phase is read off its lifecycle.  Every command of a block is ONE move
  of `Lib.Escrow` made together with the move of the handoff it is about (`issue_sound`,
  `intake_sound`, `lifecycle_sound`), and a continuation renames a party (`continue_sound`).

  That a lock backs at most one handoff rests on nonces: an owner's nonce is used up in the session
  that issues, and a lock found in another session came from a session that can no longer issue
  (`Sound`).  No property of the hashes is needed.
-/
import Myelin.Lib.Escrow
import Myelin.Transfer.System

namespace Myelin.Transfer

open Lib Consensus Session Store Function

variable {states : Hash32 → Option TransferState} {ledger : HandoffTable} {handoff : SessionHandoff}

/-- Where a handoff stands as a claim. -/
def phase : HandoffTerminal → Phase
  | .issued => .pending
  | .consumed _ => .spent
  | .cancelled _ => .cancelled
  | .reclaimed _ _ | .retired _ _ => .closed

/-- A handoff as a claim. -/
def claimOf (stored : StoredHandoff) : SessionHandoff × Phase :=
  (stored.handoff, phase stored.lifecycle.terminal)

/-- Available amount of an asset in one session. -/
def freeOf (asset : AssetId) (state : Option TransferState) : Nat :=
  (state.map fun state => balance asset state.accounts).getD 0

/-- Locks of one session. -/
def locksOf (state : Option TransferState) : Finset PendingLock :=
  (state.map fun state => state.pending.toFinset).getD ∅

/-- Sessions and handoffs, seen in one asset. -/
def escrow (asset : AssetId) (states : Hash32 → Option TransferState) (ledger : HandoffTable) :
    Escrow Hash32 PendingLock Hash32 SessionHandoff where
  free sessionId := freeOf asset (states sessionId)
  locks sessionId := locksOf (states sessionId)
  claim id := (ledger id).map claimOf

/-- Moves of the transfer application. -/
abbrev TransferMove (env : TransferEnv) (asset : AssetId) :=
  Escrow.Move (σ := Hash32) (κ := PendingLock) (ι := Hash32) (τ := SessionHandoff)
    (PendingLock.Backs env) (PendingLock.held asset)

lemma mem_locksOf : lock ∈ locksOf state ↔ ∃ found, state = some found ∧ lock ∈ found.pending := by
  cases state <;> simp [locksOf]

lemma claim_eq_some {asset : AssetId} {id : Hash32} {p : Phase} :
    (escrow asset states ledger).claim id = some (handoff, p) ↔
      ∃ stored, ledger id = some stored ∧ stored.handoff = handoff ∧
        phase stored.lifecycle.terminal = p := by
  simp [escrow, claimOf]

/-- One session and one handoff change. -/
lemma escrow_update (asset : AssetId) (states : Hash32 → Option TransferState)
    (ledger : HandoffTable) (sessionId id : Hash32) (state : TransferState) (stored : StoredHandoff) :
    escrow asset (update states sessionId (some state)) (update ledger id (some stored)) =
      ⟨update (escrow asset states ledger).free sessionId (balance asset state.accounts),
        update (escrow asset states ledger).locks sessionId state.pending.toFinset,
        update (escrow asset states ledger).claim id (some (claimOf stored))⟩ := by
  unfold escrow
  congr 1
  · exact comp_update (freeOf asset) states sessionId (some state)
  · exact comp_update locksOf states sessionId (some state)
  · exact comp_update (Option.map claimOf) ledger id (some stored)

/-- The invariant of every run, over the heads of the sessions, their states and the ledger. -/
structure Sound (env : TransferEnv) (heads : Hash32 → Option SessionHead)
    (states : Hash32 → Option TransferState) (ledger : HandoffTable) : Prop where
  valid : ∀ {sessionId state}, states sessionId = some state →
    state.Valid ∧ state.policy.kind = .scarce ∧
      ∃ head, heads sessionId = some head ∧ head.sealedBySuccessor = none
  /-- A lock is the session's own, or comes from a session that is sealed. -/
  inherited : ∀ {sessionId state lock}, states sessionId = some state → lock ∈ state.pending →
    lock.source.sessionId = sessionId ∨
      ∃ head, heads lock.source.sessionId = some head ∧ head.sealedBySuccessor ≠ none
  /-- A handoff comes from a used session, and its nonce is used up there. -/
  issued : ∀ {id stored}, ledger id = some stored →
    stored.handoff.id env.session = id ∧ heads stored.handoff.sourceSessionId ≠ none ∧
      ∃ transferId payload, verifyHandoff env stored.handoff = .ok (transferId, payload) ∧
        ∀ state, states stored.handoff.sourceSessionId = some state →
          (payload.owner, payload.nonce) ∈ state.usedNonces
  backed : ∀ asset, (escrow asset states ledger).Backed (PendingLock.Backs env)

/-- A step is a move of the escrow in every asset, and the invariant holds after it. -/
structure Moved (env : TransferEnv) (heads : Hash32 → Option SessionHead)
    (states : Hash32 → Option TransferState) (ledger : HandoffTable)
    (states' : Hash32 → Option TransferState) (ledger' : HandoffTable) : Prop where
  move : ∀ asset, TransferMove env asset (escrow asset states ledger) (escrow asset states' ledger')
  sound : Sound env heads states' ledger'

section Steps

variable {env : TransferEnv} {heads : Hash32 → Option SessionHead} {sessionId id : Hash32}
  {state next : TransferState} {stored : StoredHandoff}

section

variable (hstate : states sessionId = some state)
include hstate

lemma escrow_free (asset : AssetId) :
    (escrow asset states ledger).free sessionId = balance asset state.accounts := by
  simp [escrow, freeOf, hstate]

lemma escrow_locks (asset : AssetId) :
    (escrow asset states ledger).locks sessionId = state.pending.toFinset := by
  simp [escrow, locksOf, hstate]

/-- What a step must show beside its move. -/
lemma Sound.step (h : Sound env heads states ledger)
    (hvalid : next.Valid) (hpolicy : next.policy = state.policy)
    (hpending : ∀ lock ∈ next.pending, lock ∈ state.pending ∨ lock.source.sessionId = sessionId)
    (hnonces : ∀ nonce ∈ state.usedNonces, nonce ∈ next.usedNonces)
    (hstored : (∃ old, ledger id = some old ∧ stored.handoff = old.handoff) ∨
      stored.handoff.id env.session = id ∧ stored.handoff.sourceSessionId = sessionId ∧
        ∃ transferId payload, verifyHandoff env stored.handoff = .ok (transferId, payload) ∧
          (payload.owner, payload.nonce) ∈ next.usedNonces)
    (hmove : ∀ asset, TransferMove env asset (escrow asset states ledger)
      (escrow asset (update states sessionId (some next)) (update ledger id (some stored)))) :
    Moved env heads states ledger (update states sessionId (some next))
      (update ledger id (some stored)) := by
  obtain ⟨-, hkind, hhead⟩ := h.valid hstate
  -- what held of the nonces of `state` holds of those of `next`
  have hused : ∀ {source : Hash32} {nonce : Hash32 × Hash32},
      (∀ old, states source = some old → nonce ∈ old.usedNonces) →
      ∀ new, update states sessionId (some next) source = some new → nonce ∈ new.usedNonces := by
    intro source nonce hold new hnew
    rcases update_eq_some.mp hnew with ⟨rfl, rfl⟩ | ⟨-, hsame⟩
    · exact hnonces nonce (hold state hstate)
    · exact hold new hsame
  refine ⟨hmove, ?_, ?_, ?_, fun asset => (hmove asset).backed (h.backed asset)⟩
  · intro other found hfound
    rcases update_eq_some.mp hfound with ⟨rfl, rfl⟩ | ⟨-, hsame⟩
    · exact ⟨hvalid, hpolicy ▸ hkind, hhead⟩
    · exact h.valid hsame
  · intro other found lock hfound hlock
    rcases update_eq_some.mp hfound with ⟨rfl, rfl⟩ | ⟨-, hsame⟩
    · rcases hpending lock hlock with hold | hown
      · exact h.inherited hstate hold
      · exact .inl hown
    · exact h.inherited hsame hlock
  · intro other found hfound
    rcases update_eq_some.mp hfound with ⟨rfl, rfl⟩ | ⟨-, hsame⟩
    · rcases hstored with ⟨old, hold, hhandoff⟩ | ⟨hid, hsource, transferId, payload, hverify, hnonce⟩
      · obtain ⟨hid, hsource, transferId, payload, hverify, hnonce⟩ := h.issued hold
        rw [hhandoff]
        exact ⟨hid, hsource, transferId, payload, hverify, hused hnonce⟩
      · obtain ⟨head, hhead, -⟩ := hhead
        refine ⟨hid, by rw [hsource, hhead]; exact nofun, transferId, payload, hverify, ?_⟩
        intro new hnew
        rw [hsource, update_self, Option.some_inj] at hnew
        exact hnew ▸ hnonce
    · obtain ⟨hid, hsource, transferId, payload, hverify, hnonce⟩ := h.issued hsame
      exact ⟨hid, hsource, transferId, payload, hverify, hused hnonce⟩

end

/-- Which lock a handoff has does not depend on how it is found. -/
lemma PendingLock.Backs.payload_eq {lock : PendingLock} {transferId : Hash32}
    {payload : TransferPayload} (h : lock.Backs env handoff)
    (hverify : verifyHandoff env handoff = .ok (transferId, payload)) :
    lock.transferId = transferId ∧ lock.MatchesPayload env.session payload ∧
      lock.source.sessionId = handoff.sourceSessionId := by
  obtain ⟨found, hfound, hsource, hmatch⟩ := h
  rw [hverify] at hfound
  cases hfound
  exact ⟨rfl, hmatch, hmatch.1 ▸ hsource⟩

variable {binding : SourceIdentity} {event : TransferEvent}

section

variable (h : Sound env heads states ledger)
include h

section

variable (hstate : states sessionId = some state)
include hstate

/-- Issuing a handoff. -/
lemma issue_sound {expectedId : Hash32}
    (block : HandoffBlockReference) (hbinding : binding.sessionId = sessionId)
    (hsource : handoff.sourceSessionId = sessionId) (hid : handoff.id env.session = id)
    (hledger : ledger id = none) (hvalid : next.Valid)
    (hissue : state.issue env binding (intentFromHandoff handoff) expectedId = .ok (next, event)) :
    Moved env heads states ledger (update states sessionId (some next))
      (update ledger id (some ⟨handoff, block, .issued⟩)) := by
  obtain ⟨hold, hkind, head, hhead, hunsealed⟩ := h.valid hstate
  obtain ⟨payload, lock, hverify, hpayload, hmatch, hfresh, hnonce, hpolicy, hpending, hnonces, hbalance,
    -⟩ := TransferState.issue_ok hold hkind hissue
  have hbacks : lock.Backs env handoff :=
    ⟨payload, hverify, by rw [hpayload, hbinding, hsource], hmatch⟩
  have hlockSource : lock.source.sessionId = sessionId := by rw [hmatch.1, hpayload, hbinding]
  have hnew : lock ∉ state.pending := fun hmem => hfresh lock hmem rfl
  -- an older handoff with this lock would have used the nonce already
  have hclaims : ∀ other stored, ledger other = some stored → ¬ lock.Backs env stored.handoff := by
    intro other stored hstored hback
    obtain ⟨-, -, transferId, old, hverified, hused⟩ := h.issued hstored
    obtain ⟨-, hmatched, hsourced⟩ := hback.payload_eq hverified
    have hmine := hused state (by rw [← hsourced, hlockSource, hstate])
    obtain ⟨-, -, howner, -, -, hnonceEq, -⟩ := hmatch
    obtain ⟨-, -, howner', -, -, hnonceEq', -⟩ := hmatched
    rw [← howner', ← hnonceEq', howner, hnonceEq] at hmine
    exact hnonce hmine
  -- an older lock for this handoff likewise, in whichever session it is
  have hlocks : ∀ other found, states other = some found → ∀ old ∈ found.pending,
      ¬ old.Backs env handoff := by
    intro other found hfound old hmem hback
    obtain ⟨-, hmatched, hsourced⟩ := hback.payload_eq hverify
    rcases h.inherited hfound hmem with hown | ⟨sealedHead, hsealed, hsuccessor⟩
    · have hsame : other = sessionId := by rw [← hown, hsourced, hsource]
      subst hsame
      obtain rfl := Option.some_inj.mp (hstate.symm.trans hfound)
      have hused := hold.nonces old hmem
      obtain ⟨-, -, howner, -, -, hnonceEq, -⟩ := hmatched
      rw [howner, hnonceEq] at hused
      exact hnonce hused
    · rw [hsourced, hsource, hhead, Option.some_inj] at hsealed
      exact hsuccessor (hsealed ▸ hunsealed)
  refine h.step hstate hvalid hpolicy (fun other hmem => ?_) (fun nonce hmem => ?_)
    (.inr ⟨hid, hsource, lock.transferId, payload, hverify, ?_⟩) fun asset => ?_
  · rcases List.mem_cons.mp (hpending.mem_iff.mp hmem) with rfl | hmem
    · exact .inr hlockSource
    · exact .inl hmem
  · exact hnonces.mem_iff.mpr (List.mem_cons_of_mem _ hmem)
  · exact hnonces.mem_iff.mpr List.mem_cons_self
  · have hinsert : next.pending.toFinset = insert lock ((escrow asset states ledger).locks sessionId) := by
      rw [List.toFinset_eq_of_perm _ _ hpending, List.toFinset_cons, escrow_locks hstate]
    rw [escrow_update, hinsert]
    refine .issue ?_ ?_ hbacks ?_ ?_ ?_
    · rwa [escrow_locks hstate, List.mem_toFinset]
    · simp [escrow, hledger]
    · intro other found p hclaim
      obtain ⟨stored, hstored, rfl, -⟩ := claim_eq_some.mp hclaim
      exact hclaims other stored hstored
    · intro other old hmem
      obtain ⟨found, hfound, hpend⟩ := mem_locksOf.mp hmem
      exact hlocks other found hfound old hpend
    · rw [hbalance asset, escrow_free hstate]

/-- Taking a handoff in. -/
lemma intake_sound {expectedId : Hash32}
    {timestampMs : UInt64} (block : HandoffBlockReference) (hledger : ledger id = some stored)
    (hissued : stored.lifecycle.terminal = .issued) (hvalid : next.Valid)
    (hintake : state.intake env binding stored.handoff expectedId timestampMs = .ok (next, event)) :
    Moved env heads states ledger (update states sessionId (some next))
      (update ledger id (some (stored.withTerminal (.consumed block)))) := by
  obtain ⟨hold, hkind, -⟩ := h.valid hstate
  obtain ⟨transferId, payload, hverify, -, hpolicy, hpending, hnonces, hbalance, -⟩ :=
    TransferState.intake_ok hold hkind hintake
  refine h.step hstate hvalid hpolicy (fun lock hmem => .inl (hpending ▸ hmem))
    (fun nonce hmem => hnonces ▸ hmem) (.inl ⟨stored, hledger, rfl⟩) fun asset => ?_
  rw [escrow_update, hpending, ← escrow_locks hstate asset, hbalance, ← escrow_free hstate asset,
    update_eq_self]
  refine .pay (claim_eq_some.mpr ⟨stored, hledger, rfl, by rw [hissued]; rfl⟩) ?_
  intro other lock _ hback
  exact (hback.payload_eq hverify).2.1.held_eq asset

/-- Cancelling, refunding or retiring a handoff. -/
lemma lifecycle_sound (hledger : ledger id = some stored)
    (hhandoff : stored.handoff = action.handoff)
    (hnext : StoredHandoff.nextTerminal stored.lifecycle.terminal action block = some terminal)
    (hvalid : next.Valid)
    (hlifecycle : state.lifecycle env binding action authorization = .ok (next, event)) :
    Moved env heads states ledger (update states sessionId (some next))
      (update ledger id (some (stored.withTerminal terminal))) := by
  obtain ⟨hold, -, -⟩ := h.valid hstate
  obtain ⟨payload, lock, hverify, hsource, hmem, hmatch, hpolicy, hnonces, heffect, -⟩ :=
    TransferState.lifecycle_ok hold hlifecycle
  have hbacks : lock.Backs env stored.handoff := by
    rw [hhandoff]
    exact ⟨payload, hverify, hsource, hmatch⟩
  have hclaim : ∀ asset {p}, phase stored.lifecycle.terminal = p →
      (escrow asset states ledger).claim id = some (stored.handoff, p) :=
    fun _ _ hphase => claim_eq_some.mpr ⟨stored, hledger, rfl, hphase⟩
  have hlock : ∀ asset, lock ∈ (escrow asset states ledger).locks sessionId :=
    fun asset => mem_locksOf.mpr ⟨state, hstate, hmem⟩
  -- removing by transfer id removes this lock alone
  have herase : ∀ asset, (remove PendingLock.transferId lock.transferId state.pending).toFinset =
      ((escrow asset states ledger).locks sessionId).erase lock := by
    intro asset
    rw [escrow_locks hstate]
    ext other
    simp only [List.mem_toFinset, mem_remove, Finset.mem_erase]
    refine ⟨fun ⟨hother, hne⟩ => ⟨fun heq => hne (heq ▸ rfl), hother⟩, fun ⟨hne, hother⟩ => ?_⟩
    exact ⟨hother, fun hkey => hne (hold.pending.eq_of_key hother hmem hkey)⟩
  refine h.step hstate hvalid hpolicy (fun other hother => .inl (heffect.mem_pending hother))
    (fun nonce hmem => hnonces ▸ hmem) (.inl ⟨stored, hledger, rfl⟩) fun asset => ?_
  rw [escrow_update]
  rcases StoredHandoff.nextTerminal_eq_some.mp hnext with
    ⟨_, hcurrent, haction, rfl⟩ | ⟨_, _, hcurrent, haction, rfl⟩ | ⟨_, _, hcurrent, haction, -, rfl⟩
  all_goals
    rw [haction] at heffect
    have hphase := hclaim asset (congrArg phase hcurrent)
  · cases heffect with
    | cancel _ hsame =>
      subst hsame
      rw [← escrow_free hstate asset, ← escrow_locks hstate asset, update_eq_self, update_eq_self]
      exact .cancel hphase
  · cases heffect with
    | retire _ _ hpending hbalance =>
      rw [hbalance asset, ← escrow_free hstate asset, update_eq_self, hpending, herase asset]
      exact .retire hphase (hlock asset) hbacks
  · cases heffect with
    | reclaim _ hpending hbalance =>
      rw [hbalance asset, ← escrow_free hstate asset, hpending, herase asset]
      exact .refund hphase (hlock asset) hbacks

end

/-- Only the heads change. -/
lemma Sound.rehead (hused : ∀ {id}, heads id ≠ none → heads' id ≠ none)
    (hsealed : ∀ {id}, (∃ head, heads id = some head ∧ head.sealedBySuccessor ≠ none) → ∃ head,
      heads' id = some head ∧ head.sealedBySuccessor ≠ none)
    (hlive : ∀ {id found}, states id = some found → ∃ head, heads' id = some head ∧
      head.sealedBySuccessor = none) : Sound env heads' states ledger where
  valid hfound := ⟨(h.valid hfound).1, (h.valid hfound).2.1, hlive hfound⟩
  inherited hfound hlock := (h.inherited hfound hlock).imp_right hsealed
  issued hfound := by
    obtain ⟨hid, hsource, hrest⟩ := h.issued hfound
    exact ⟨hid, hused hsource, hrest⟩
  backed := h.backed

/-- A session without a head has no state. -/
lemma Sound.state_none (hunused : heads id = none) : states id = none := by
  cases hfound : states id with
  | none => rfl
  | some found =>
    obtain ⟨-, -, head, hhead, -⟩ := h.valid hfound
    exact absurd (hunused.symm.trans hhead) nofun

/-- A session starts: its locks, if any, are its own, and nobody holds a handoff of it. -/
lemma start_sound (hunused : heads sessionId = none) (hunsealed : head.sealedBySuccessor = none)
    (hvalid : state.Valid) (hkind : state.policy.kind = .scarce)
    (hown : ∀ lock ∈ state.pending, lock.source.sessionId = sessionId) :
    Sound env (update heads sessionId (some head))
      (update states sessionId (some state)) ledger := by
  have hother : ∀ {id}, heads id ≠ none → id ≠ sessionId := by
    rintro id hused rfl
    exact hused hunused
  have hkept : ∀ {id}, heads id ≠ none →
      update heads sessionId (some head) id = heads id :=
    fun hused => update_of_ne (hother hused) _ _
  constructor
  · intro id found hid
    rcases update_eq_some.mp hid with ⟨rfl, rfl⟩ | ⟨-, hold⟩
    · exact ⟨hvalid, hkind, head, update_self .., hunsealed⟩
    · obtain ⟨holdValid, holdKind, oldHead, hhead, holdUnsealed⟩ := h.valid hold
      refine ⟨holdValid, holdKind, oldHead, ?_, holdUnsealed⟩
      rw [hkept (by rw [hhead]; exact nofun), hhead]
  · intro id found lock hid hlock
    rcases update_eq_some.mp hid with ⟨rfl, rfl⟩ | ⟨-, hold⟩
    · exact .inl (hown lock hlock)
    · refine (h.inherited hold hlock).imp_right ?_
      rintro ⟨oldHead, hhead, hsealed⟩
      exact ⟨oldHead, by rw [hkept (by rw [hhead]; exact nofun), hhead], hsealed⟩
  · intro id stored hstored
    obtain ⟨hid, hsource, transferId, payload, hverify, hnonce⟩ := h.issued hstored
    refine ⟨hid, by rwa [hkept hsource], transferId, payload, hverify, fun found hsame => ?_⟩
    rw [update_of_ne (hother hsource)] at hsame
    exact hnonce found hsame
  · intro asset
    have hlocks : (escrow asset (update states sessionId (some state)) ledger).locks =
        update (escrow asset states ledger).locks sessionId state.pending.toFinset :=
      comp_update locksOf states sessionId (some state)
    have hbacked : Escrow.Backed (PendingLock.Backs env)
        ⟨(escrow asset (update states sessionId (some state)) ledger).free,
          update (escrow asset states ledger).locks sessionId state.pending.toFinset,
          (escrow asset states ledger).claim⟩ := by
      refine (h.backed asset).enter (by simp [escrow, locksOf, h.state_none hunused]) ?_
      intro lock hlock id handoff p hclaim hback
      obtain ⟨stored, hstored, rfl, -⟩ := claim_eq_some.mp hclaim
      obtain ⟨-, hsource, transferId, payload, hverify, -⟩ := h.issued hstored
      obtain ⟨-, -, hlockSource⟩ := hback.payload_eq hverify
      rw [← hlockSource, hown lock (List.mem_toFinset.mp hlock)] at hsource
      exact hsource hunused
    rw [← hlocks] at hbacked
    exact hbacked

/-- A session is continued under another name. -/
lemma continue_sound (hstate : states sessionId = some state) (head new : SessionHead)
    (hunused : heads target = none) (hunsealed : head.sealedBySuccessor = none)
    (hsealed : new.sealedBySuccessor ≠ none) :
    Moved env (update (update heads target (some head)) sessionId (some new))
      states ledger (update (update states target (some state)) sessionId none)
      ledger := by
  have hne : target ≠ sessionId := by
    rintro rfl
    exact absurd ((h.state_none hunused).symm.trans hstate) nofun
  have hswap : update (update states target (some state)) sessionId none =
      states ∘ Equiv.swap sessionId target := by
    funext id
    by_cases hid : id = sessionId
    · subst hid
      simp [h.state_none hunused]
    · by_cases htarget : id = target
      · subst htarget
        simp [hid, hstate]
      · simp [hid, htarget, Equiv.swap_apply_of_ne_of_ne hid htarget]
  have hmove : ∀ asset, TransferMove env asset (escrow asset states ledger)
      (escrow asset (update (update states target (some state)) sessionId none) ledger) := by
    intro asset
    rw [hswap]
    exact .rename (Equiv.swap sessionId target)
  have hfound : ∀ {id found},
      update (update states target (some state)) sessionId none id = some found →
        (id = target ∧ found = state) ∨ (id ≠ sessionId ∧ states id = some found) := by
    intro id found hid
    by_cases heq : id = sessionId
    · subst heq
      simp at hid
    · rw [update_of_ne heq] at hid
      exact (update_eq_some.mp hid).imp_right fun hold => ⟨heq, hold.2⟩
  have hkept : ∀ {id}, id ≠ sessionId → heads id ≠ none →
      update (update heads target (some head)) sessionId (some new) id = heads id := by
    intro id heq hused
    rw [update_of_ne heq, update_of_ne]
    rintro rfl
    exact hused hunused
  -- whoever was sealed still is, and so is the session that was continued
  have hsealedNow : ∀ {id}, (id = sessionId ∨
      ∃ old, heads id = some old ∧ old.sealedBySuccessor ≠ none) →
      ∃ now, update (update heads target (some head)) sessionId (some new) id =
        some now ∧ now.sealedBySuccessor ≠ none := by
    intro id hid
    by_cases heq : id = sessionId
    · subst heq
      exact ⟨new, update_self .., hsealed⟩
    · obtain ⟨old, hold, hsuccessor⟩ := hid.resolve_left heq
      exact ⟨old, by rw [hkept heq (by rw [hold]; exact nofun), hold], hsuccessor⟩
  refine ⟨hmove, ?_, ?_, ?_, fun asset => (hmove asset).backed (h.backed asset)⟩
  · intro id found hid
    rcases hfound hid with ⟨rfl, rfl⟩ | ⟨heq, hold⟩
    · refine ⟨(h.valid hstate).1, (h.valid hstate).2.1, head, ?_, hunsealed⟩
      rw [update_of_ne hne, update_self]
    · obtain ⟨hvalid, hkind, old, hhead, hlive⟩ := h.valid hold
      exact ⟨hvalid, hkind, old, by rw [hkept heq (by rw [hhead]; exact nofun), hhead], hlive⟩
  · intro id found lock hid hlock
    rcases hfound hid with ⟨rfl, rfl⟩ | ⟨-, hold⟩
    · exact .inr (hsealedNow (h.inherited hstate hlock))
    · exact (h.inherited hold hlock).imp_right fun hold => hsealedNow (.inr hold)
  · intro id stored hstored
    obtain ⟨hid, hsource, transferId, payload, hverify, hnonce⟩ := h.issued hstored
    refine ⟨hid, ?_, transferId, payload, hverify, fun found hsame => ?_⟩
    · by_cases heq : stored.handoff.sourceSessionId = sessionId
      · rw [heq, update_self]
        exact nofun
      · rwa [hkept heq hsource]
    · rcases hfound hsame with ⟨htarget, -⟩ | ⟨-, hold⟩
      · exact absurd hunused (htarget ▸ hsource)
      · exact hnonce found hold

end

end Steps

end Myelin.Transfer
