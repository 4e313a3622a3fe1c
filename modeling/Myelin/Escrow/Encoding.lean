/-
  What escrow terms are hashed as, and the data of a ledger cell.

  Neither format has separators.  In the terms every part says where it ends but one: the deposits come
  without a count, and it is VALIDATION that makes them as many as the participants.  A ledger is read by
  exact readers, so `decode` accepts the encodings of ledgers of 1 to `maxParticipants` balances and
  nothing else (`decode_eq_ok`).
-/
import Myelin.Escrow.Ledger
import Myelin.Lib.Delimited

namespace Myelin.Escrow

open Lib Exec Consensus

/-! ## Terms -/

/-- The fields of a script table stand at fixed places, the arguments last. -/
lemma serializeScriptMolecule_injective : Function.Injective serializeScriptMolecule := by
  intro a b h
  obtain ⟨_, hfields⟩ := List.append_inj h (by
    simp only [List.length_append, leBytes_length, tableOffsets_length]
    rfl)
  simp only [List.flatten_cons, List.flatten_nil, List.append_nil, val_append_inj,
    List.cons_append, List.nil_append, List.cons.injEq] at hfields
  obtain ⟨hcode, htype, hfields⟩ := hfields
  obtain ⟨_, hargs⟩ := List.append_inj hfields (by rw [leBytes_length, leBytes_length])
  cases a
  cases b
  exact congr (congrArg₂ Script.mk hcode htype) hargs

lemma le128_append_inj : le128 a ++ rest = le128 b ++ rest' ↔ a = b ∧ rest = rest' := by
  refine ((delimited_leBytes 16).append_inj a.isLt b.isLt).trans ?_
  rw [BitVec.toNat_inj]

namespace EscrowTerms

/-- What a participant is written as can be measured: roles are bounded, and scripts are in memory. -/
def Measured (participant : EscrowParticipant) : Prop :=
  participant.authorizationRole.length ≤ maxRoleBytes ∧
    (serializeScriptMolecule participant.payoutLock).length < 2 ^ 64

lemma delimited_participantBytes : Delimited participantBytes Measured := by
  refine ⟨fun {a b rest rest'} ha hb heq => ?_⟩
  have hsized := (delimited_leBytes 8).sized
  have hrole : maxRoleBytes < 256 ^ 8 := by decide
  simp only [participantBytes, List.append_assoc] at heq
  obtain ⟨hid, heq⟩ := val_append_inj.mp heq
  obtain ⟨hrole, heq⟩ := hsized.read (ha.1.trans_lt hrole) (hb.1.trans_lt hrole) heq
  obtain ⟨hkey, heq⟩ := val_append_inj.mp heq
  obtain ⟨hlock, heq⟩ := hsized.read ha.2 hb.2 heq
  have hlock := serializeScriptMolecule_injective hlock
  simp only [le128_append_inj] at heq
  cases a
  cases b
  simp_all

lemma delimited_depositBytes : Delimited depositBytes fun _ => True := by
  refine ⟨fun {a b rest rest'} _ _ heq => ?_⟩
  simp only [depositBytes, List.append_assoc, val_append_inj, le32_append_inj] at heq
  obtain ⟨_, _, _⟩ := a
  obtain ⟨_, _, _⟩ := b
  simp_all

lemma delimited_assetBytes : Delimited assetBytes fun _ => True := by
  refine ⟨fun {a b rest rest'} _ _ heq => ?_⟩
  cases a <;> cases b
  case typedToken.typedToken =>
    obtain ⟨hhash, hrest⟩ := val_append_inj.mp (List.cons.inj heq).2
    exact ⟨congrArg _ hhash, hrest⟩
  all_goals simp_all [assetBytes]

lemma role_le_of_validate {crypto : Crypto} {asset : AssetDescriptor} {previous : Option Hash32}
    {keys : List Hash32} {participants : List EscrowParticipant}
    (h : validateParticipants crypto asset previous keys participants = .ok ()) :
    ∀ participant ∈ participants, participant.authorizationRole.length ≤ maxRoleBytes := by
  induction participants generalizing previous keys with
  | nil => exact nofun
  | cons participant rest ih =>
    simp only [validateParticipants, eq_ok] at h
    obtain ⟨_, hrole, _, _, _, _, hrest⟩ := h
    exact List.forall_mem_cons.mpr ⟨hrole.2, ih hrest⟩

lemma sizes_of_validate {crypto : Crypto} {terms : EscrowTerms} (h : terms.validate crypto = .ok ()) :
    terms.participants.length ≤ maxParticipants ∧ terms.deposits.length = terms.participants.length ∧
      ∀ participant ∈ terms.participants, participant.authorizationRole.length ≤ maxRoleBytes := by
  simp only [EscrowTerms.validate, eq_ok] at h
  obtain ⟨_, hcount, hdeposits, _, _, _, hparticipants, _⟩ := h
  exact ⟨hcount.2, hdeposits, role_le_of_validate hparticipants⟩

/-- The serialized payout locks are in memory. -/
def Held (terms : EscrowTerms) : Prop :=
  ∀ participant ∈ terms.participants, (serializeScriptMolecule participant.payoutLock).length < 2 ^ 64

lemma preimage_injective {terms terms' : EscrowTerms} (hcount : terms.participants.length < 2 ^ 32)
    (hcount' : terms'.participants.length < 2 ^ 32)
    (hdeposits : terms.deposits.length = terms.participants.length)
    (hdeposits' : terms'.deposits.length = terms'.participants.length)
    (hmeasured : ∀ participant ∈ terms.participants, Measured participant)
    (hmeasured' : ∀ participant ∈ terms'.participants, Measured participant)
    (heq : terms.preimage = terms'.preimage) : terms = terms' := by
  simp only [preimage, List.append_assoc] at heq
  obtain ⟨hsession, heq⟩ := val_append_inj.mp (List.append_cancel_left heq)
  obtain ⟨hlength, heq⟩ := (delimited_leBytes 4).read hcount hcount' heq
  obtain ⟨hparticipants, heq⟩ :=
    delimited_participantBytes.flatMap hlength hmeasured hmeasured' heq
  -- nothing was written of how many deposits there are
  have hsame : terms.deposits.length = terms'.deposits.length := by
    rw [hdeposits, hlength, hdeposits']
  obtain ⟨hdeposit, heq⟩ := delimited_depositBytes.flatMap hsame (fun _ _ => trivial)
    (fun _ _ => trivial) heq
  simp only [delimited_assetBytes.append_inj trivial trivial, le64_append_inj, val_append_inj] at heq
  obtain ⟨hasset, hstart, hexpiry, hwindow, hconfirmations, hescrow, heq⟩ := heq
  obtain ⟨_, hscript⟩ := List.append_inj heq (by rw [leBytes_length, leBytes_length])
  have hscript := serializeScriptMolecule_injective hscript
  cases terms
  cases terms'
  simp_all

end EscrowTerms

/-! ## Ledgers -/

namespace EscrowState

lemma readHash_exact : readHash.Exact Subtype.val fun _ => True := by
  intro input hash rest
  simp only [readHash, true_and]
  constructor
  · intro h
    split at h
    · cases h
    · obtain ⟨rfl, rfl⟩ := Prod.mk.inj (Except.ok.inj h)
      exact (List.take_append_drop 32 input).symm
  · rintro rfl
    rw [dif_neg (by rw [List.length_append, hash.property]; omega)]
    simp only [List.take_left' hash.property, List.drop_left' hash.property]

lemma readU128_exact : (Reader.readLe truncated 16 (BitVec.ofNat 128)).Exact le128 fun _ => True :=
  Reader.readLe_exact truncated BitVec.isLt
    (fun value => by rw [BitVec.ofNat_toNat, BitVec.setWidth_eq])
    fun n h => by rw [BitVec.toNat_ofNat]; exact Nat.mod_eq_of_lt h

lemma readBalances_exact (count : Nat) :
    (readBalances count).Exact (·.flatMap balanceBytes) (·.length = count) := by
  induction count with
  | zero =>
    intro input ledger rest
    simp only [readBalances, Reader.pure_eq_ok, List.length_eq_zero_iff, @eq_comm _ _ ledger]
    exact and_congr_right fun h => by rw [h]; rfl
  | succ count ih =>
    intro input ledger rest
    simp only [readBalances, Reader.bind_eq_ok, readHash_exact _ _ _, readU128_exact _ _ _, ih _ _ _,
      Reader.pure_eq_ok, true_and]
    constructor
    · rintro ⟨id, _, rfl, balance, _, rfl, later, _, ⟨rfl, rfl⟩, rfl, rfl⟩
      refine ⟨rfl, ?_⟩
      rw [List.flatMap_cons, balanceBytes, List.append_assoc, List.append_assoc]
    · rintro ⟨hlength, rfl⟩
      obtain ⟨first, later, rfl⟩ := List.exists_of_length_succ _ hlength
      refine ⟨_, _, ?_, _, _, rfl, later, rest, ⟨Nat.succ.inj hlength, rfl⟩, rfl, rfl⟩
      rw [List.flatMap_cons, balanceBytes, List.append_assoc, List.append_assoc]

/-- What is accepted: encodings of ledgers that have balances, and not too many. -/
lemma decode_eq_ok :
    decode bytes = .ok state ↔
      (1 ≤ state.ledger.length ∧ state.ledger.length ≤ maxParticipants) ∧ state.encode = .ok bytes := by
  simp only [decode, encode, readState, eq_ok, Prod.exists, Reader.bind_eq_ok, Reader.lift_eq_ok,
    Reader.take_eq_ok, Reader.pure_eq_ok, Reader.readU16_exact _ _ _ _, Reader.readU32_exact _ _ _ _,
    Reader.readU64_exact _ _ _ _, readHash_exact _ _ _, readBalances_exact _ _ _ _, true_and]
  constructor
  · rintro ⟨_, _, ⟨_, _, ⟨_, rfl⟩, _, ⟨rfl, rfl⟩, _, _, rfl, _, ⟨rfl, rfl⟩, session, _, rfl, terms, _, rfl,
      epoch, _, rfl, previous, _, rfl, root, _, rfl, count, _, rfl, _, ⟨⟨hcount, hmax⟩, rfl⟩, ledger, _,
      ⟨hlength, rfl⟩, rfl, rfl⟩, rfl, rfl⟩
    have hzero : count.toNat ≠ 0 := fun h => hcount (UInt32.toNat_inj.mp h)
    refine ⟨⟨?_, hlength ▸ hmax⟩, hlength ▸ count.toNat_lt, ?_⟩
    · rw [hlength]
      exact Nat.pos_of_ne_zero hzero
    · simp only [hlength, le32, List.append_assoc, List.append_nil]
  · rintro ⟨⟨hcount, hmax⟩, hbound, rfl⟩
    have hword : (UInt32.ofNat state.ledger.length).toNat = state.ledger.length := by
      rw [UInt32.toNat_ofNat']
      exact Nat.mod_eq_of_lt hbound
    have hzero : UInt32.ofNat state.ledger.length ≠ 0 := by
      rw [ne_eq, ← UInt32.toNat_inj, hword]
      exact Nat.ne_of_gt hcount
    simp only [List.append_assoc]
    refine ⟨state, [], ⟨_, _, ⟨rfl, rfl⟩, _, ⟨rfl, rfl⟩, _, _, rfl, _, ⟨rfl, rfl⟩, _, _, rfl, _, _, rfl,
      _, _, rfl, _, _, rfl, _, _, rfl, UInt32.ofNat state.ledger.length,
      state.ledger.flatMap balanceBytes, ?_, _, ⟨⟨hzero, hword.symm ▸ hmax⟩, rfl⟩, _, [],
      ⟨hword.symm, ?_⟩, rfl, rfl⟩, rfl, rfl⟩
    · rw [le32, hword]
    · rw [List.append_nil]

end EscrowState

/-- Valid terms are determined by what is hashed of them, and a ledger cell's data by its ledger. -/
theorem escrow_encodings_injective (crypto : Crypto) :
    (∀ terms terms' : EscrowTerms, terms.validate crypto = .ok () → terms'.validate crypto = .ok () →
      terms.Held → terms'.Held → terms.preimage = terms'.preimage → terms = terms') ∧
    (∀ state : EscrowState, 1 ≤ state.ledger.length → state.ledger.length ≤ maxParticipants →
      state.encode.bind EscrowState.decode = .ok state) ∧
    ∀ (bytes : List UInt8) (state : EscrowState), EscrowState.decode bytes = .ok state →
      state.encode = .ok bytes := by
  refine ⟨fun terms terms' hvalid hvalid' hheld hheld' => ?_, fun state hlow hhigh => ?_,
    fun bytes state h => (EscrowState.decode_eq_ok.mp h).2⟩
  · have hmost : maxParticipants < 2 ^ 32 := by decide
    obtain ⟨hcount, hdeposits, hroles⟩ := EscrowTerms.sizes_of_validate hvalid
    obtain ⟨hcount', hdeposits', hroles'⟩ := EscrowTerms.sizes_of_validate hvalid'
    exact EscrowTerms.preimage_injective (by omega) (by omega) hdeposits hdeposits'
      (fun participant h => ⟨hroles participant h, hheld participant h⟩)
      (fun participant h => ⟨hroles' participant h, hheld' participant h⟩)
  · obtain ⟨bytes, hbytes⟩ : ∃ bytes, state.encode = .ok bytes := by
      simp only [EscrowState.encode, eq_ok]
      exact ⟨_, hhigh.trans_lt (by decide), rfl⟩
    rw [hbytes]
    exact EscrowState.decode_eq_ok.mpr ⟨⟨hlow, hhigh⟩, hbytes⟩

/-- No other valid terms have the preimage of the two participants' terms, and their ledger comes back
    from its cell. -/
theorem escrow_encodings_injective_pair :
    (∀ terms : EscrowTerms, terms.validate tailCrypto = .ok () → terms.Held →
      terms.preimage = pairTerms.preimage → terms = pairTerms) ∧
    pairUpdated.encode.bind EscrowState.decode = .ok pairUpdated := by
  have hvalid : pairTerms.validate tailCrypto = .ok () := by decide +kernel
  have hheld : pairTerms.Held := by
    unfold EscrowTerms.Held
    decide
  obtain ⟨hterms, hstates, -⟩ := escrow_encodings_injective tailCrypto
  exact ⟨fun terms h hterm => hterms terms pairTerms h hvalid hterm hheld,
    hstates pairUpdated (by decide) (by decide)⟩

end Myelin.Escrow
