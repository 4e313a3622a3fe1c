/-
  What session commitments are taken of.

  Four values are committed to by hashing a concatenation: an application profile, a session
  configuration, a handoff and the receipt of a replayed range.  Words and hashes have a fixed width,
  an id, a payload and an authorization follow their length, and what is optional follows a flag.

  Two places have neither length nor flag.  The engine kind of a configuration is written bare; the
  three names differ in their FIRST byte, so nothing is lost by it.  A receipt without a checkpoint
  writes the largest height instead of one, and that IS ambiguous: a receipt with a checkpoint at
  `u64::MAX` hashes the same bytes (`checkpoint_sentinel_collides`).  Apart from that one height the
  receipt is determined as well (`session_preimages_injective`).
-/
import Myelin.Session.Continuity
import Myelin.Lib.Delimited

namespace Myelin.Session

open Lib Consensus

/-! ## Receipts of a replay -/

/-- Summary of an exact reexecution over an inclusive block range. -/
structure RangeReplayReceipt where
  sessionId : Hash32
  applicationProfileCommitment : Hash32
  checkpointHeight : Option UInt64
  checkpointBlockHash : Hash32
  checkpointStateRoot : Hash32
  checkpointSnapshotHash : Hash32
  startHeight : UInt64
  endHeight : UInt64
  stateRootBefore : Hash32
  stateRootAfter : Hash32
  firstFrameCommitment : Hash32
  lastFrameCommitment : Hash32
  frameCount : UInt64
  totalCycles : UInt64
  totalTransactionBytes : UInt64
  totalInputBytes : UInt64
  deriving DecidableEq

namespace RangeReplayReceipt

def preimage (receipt : RangeReplayReceipt) : List UInt8 :=
  utf8 "myelin:range-replay-receipt" ++ receipt.sessionId.val ++
    receipt.applicationProfileCommitment.val ++ le64 (receipt.checkpointHeight.getD (-1)) ++
    receipt.checkpointBlockHash.val ++ receipt.checkpointStateRoot.val ++
    receipt.checkpointSnapshotHash.val ++ le64 receipt.startHeight ++ le64 receipt.endHeight ++
    receipt.stateRootBefore.val ++ receipt.stateRootAfter.val ++ receipt.firstFrameCommitment.val ++
    receipt.lastFrameCommitment.val ++ le64 receipt.frameCount ++ le64 receipt.totalCycles ++
    le64 receipt.totalTransactionBytes ++ le64 receipt.totalInputBytes

/-- Commitment of a receipt. -/
def commitment (env : SessionEnv) (receipt : RangeReplayReceipt) : Hash32 :=
  env.blake3 receipt.preimage

/-- The height of its checkpoint, if it has one, is not the one written for none. -/
def Unambiguous (receipt : RangeReplayReceipt) : Prop := receipt.checkpointHeight ≠ some (-1)

end RangeReplayReceipt

/-- The hash does not confuse two strings. -/
def Apart (env : SessionEnv) (a b : List UInt8) : Prop := env.blake3 a = env.blake3 b → a = b

/-- It does not confuse what two configurations commit to inside. -/
structure SessionConfig.Apart (env : SessionEnv) (a b : SessionConfig) : Prop where
  profile : Session.Apart env a.applicationProfile.preimage b.applicationProfile.preimage
  limits : Session.Apart env a.commitLimits.preimage b.commitLimits.preimage
  effects : Session.Apart env a.protocolEffects.preimage b.protocolEffects.preimage

/-! ## Parts -/

lemma flag_inj {a b : Bool} : (if a then (1 : UInt8) else 0) = (if b then 1 else 0) ↔ a = b := by
  revert a b
  decide

lemma delimited_kind : Delimited (fun kind : ConsensusKind => utf8 kind.asStr) fun _ => True := by
  refine ⟨fun {a b rest rest'} _ _ heq => ?_⟩
  have hhead := congrArg List.head? heq
  cases a <;> cases b
  case staticClosedCommittee.staticClosedCommittee | proofOfAuthority.proofOfAuthority |
      tendermint.tendermint => exact ⟨rfl, List.append_cancel_left heq⟩
  all_goals exact absurd (Option.some.inj hhead) (by decide)

lemma delimited_predecessorBytes : Delimited SessionConfig.predecessorBytes fun _ => True := by
  refine ⟨fun {a b rest rest'} _ _ heq => ?_⟩
  cases a <;> cases b
  case some.some =>
    simp only [SessionConfig.predecessorBytes, List.cons_append, List.append_assoc, List.cons.injEq,
      val_append_inj, le64_append_inj] at heq
    rename_i first second
    cases first
    cases second
    simp_all
  all_goals simp_all [SessionConfig.predecessorBytes]

lemma delimited_targetBytes : Delimited SessionHandoff.targetBytes fun _ => True := by
  refine ⟨fun {a b rest rest'} _ _ heq => ?_⟩
  cases a <;> cases b <;>
    simp_all [SessionHandoff.targetBytes, val_append_inj]

lemma delimited_requirementBytes : Delimited SessionHandoff.requirementBytes fun _ => True := by
  refine ⟨fun {a b rest rest'} _ _ heq => ?_⟩
  cases a <;> cases b
  case some.some first second =>
    simp only [SessionHandoff.requirementBytes, List.cons_append, List.append_assoc,
      List.cons.injEq, val_append_inj, le16_append_inj] at heq
    cases first
    cases second
    simp_all
  all_goals simp_all [SessionHandoff.requirementBytes]

/-! ## The whole strings -/

lemma ApplicationProfile.id_length {profile : ApplicationProfile}
    (h : profile.validate = .ok ()) : (utf8 profile.applicationId).length < 2 ^ 32 := by
  simp only [validate, eq_ok] at h
  obtain ⟨⟨_, hlength⟩, _⟩ := h
  exact hlength.trans_lt (by decide)

lemma ApplicationProfile.preimage_injective {a b : ApplicationProfile} (ha : a.validate = .ok ())
    (hb : b.validate = .ok ()) (heq : a.preimage = b.preimage) : a = b := by
  simp only [preimage, ApplicationVmProfile.commitmentByte, List.append_assoc,
    List.append_cancel_left_eq, List.cons_append, List.nil_append, List.cons.injEq, flag_inj,
    le32_append_inj] at heq
  obtain ⟨hrequired, hlength, heq⟩ := heq
  have hlength := congrArg UInt32.toNat hlength
  rw [UInt32.toNat_ofNat_of_lt' (id_length ha), UInt32.toNat_ofNat_of_lt' (id_length hb)] at hlength
  obtain ⟨hid, heq⟩ := List.append_inj heq hlength
  have hid := utf8_injective hid
  simp only [List.cons.injEq, flag_inj, val_append_inj, le64_append_inj, Subtype.val_inj] at heq
  obtain ⟨_, _, _, _, _, _, _, vm, resources, _, _⟩ := a
  obtain ⟨_, _, _, _, _, _, _, vm', resources', _, _⟩ := b
  cases vm
  cases vm'
  cases resources
  cases resources'
  simp_all

lemma CommitResourceLimits.preimage_injective : Function.Injective CommitResourceLimits.preimage := by
  intro a b heq
  simp only [preimage, List.append_assoc, List.append_cancel_left_eq, List.flatMap_cons,
    le16_append_inj, le64_append_inj] at heq
  cases a
  cases b
  simp_all

lemma ProtocolEffectsPolicy.preimage_injective :
    Function.Injective ProtocolEffectsPolicy.preimage := by
  intro a b heq
  have heq := List.append_cancel_left heq
  cases a <;> cases b <;> simp_all [Subtype.ext_iff]

lemma SessionConfig.preimage_injective {a b : SessionConfig} (ha : a.validate = .ok ())
    (hb : b.validate = .ok ()) (hapart : a.Apart env b) (heq : a.preimage env = b.preimage env) :
    a = b := by
  simp only [preimage, List.append_assoc, List.append_cancel_left_eq, val_append_inj,
    le32_append_inj, le64_append_inj, delimited_kind.append_inj trivial trivial,
    delimited_predecessorBytes.append_inj trivial trivial, Subtype.val_inj] at heq
  obtain ⟨hsession, hkind, hconfig, hmodule, hschema, hprofile, hroot, hposition, htime, hstamp,
    hpredecessor, hcount, hbytes, hdrift, hlimits, heffects⟩ := heq
  simp only [SessionConfig.validate, eq_ok] at ha hb
  obtain ⟨_, _, _, _, ha, _⟩ := ha
  obtain ⟨_, _, _, _, hb, _⟩ := hb
  have hprofile := ApplicationProfile.preimage_injective ha hb (hapart.profile hprofile)
  have hlimits := CommitResourceLimits.preimage_injective (hapart.limits hlimits)
  have heffects := ProtocolEffectsPolicy.preimage_injective (hapart.effects heffects)
  cases a
  cases b
  simp_all

lemma SessionHandoff.lengths {handoff : SessionHandoff} (h : handoff.validate start = .ok ()) :
    handoff.payload.length < 2 ^ 64 ∧ handoff.authorization.length < 2 ^ 64 := by
  simp only [SessionHandoff.validate, validateHandoffFields, eq_ok] at h
  obtain ⟨⟨_, ⟨_, _, hpayload⟩, ⟨_, hauthorization⟩, _⟩, _⟩ := h
  exact ⟨hpayload.trans_lt (by decide), hauthorization.trans_lt (by decide)⟩

lemma SessionHandoff.preimage_injective {a b : SessionHandoff} (ha : a.validate start = .ok ())
    (hb : b.validate start' = .ok ()) (heq : a.preimage = b.preimage) : a = b := by
  simp only [preimage, List.append_assoc, List.append_cancel_left_eq, val_append_inj,
    le64_append_inj, delimited_targetBytes.append_inj trivial trivial] at heq
  obtain ⟨hsession, hheight, hroot, hprofile, hmodule, htarget, hexpiry, hlength, heq⟩ := heq
  obtain ⟨hpayload, heq⟩ := List.append_inj heq (word_inj (lengths ha).1 (lengths hb).1 hlength)
  obtain ⟨hlength, heq⟩ := le64_append_inj.mp heq
  obtain ⟨hauthorization, heq⟩ := List.append_inj heq (word_inj (lengths ha).2 (lengths hb).2 hlength)
  have hrequirement := delimited_requirementBytes.injective trivial trivial heq
  cases a
  cases b
  simp_all

lemma RangeReplayReceipt.preimage_injective {a b : RangeReplayReceipt} (ha : a.Unambiguous)
    (hb : b.Unambiguous) (heq : a.preimage = b.preimage) : a = b := by
  have heq := congrArg (· ++ []) heq
  simp only [preimage, List.append_assoc, List.append_cancel_left_eq, val_append_inj,
    le64_append_inj] at heq
  have hcheckpoint : a.checkpointHeight = b.checkpointHeight := by
    have hsame := heq.2.2.1
    rw [Unambiguous] at ha hb
    cases hfirst : a.checkpointHeight <;> cases hsecond : b.checkpointHeight <;> simp_all
  cases a
  cases b
  simp_all

/-! ## Bindings -/

/-- A commitment is the hash of a string that tells valid values apart. -/
structure Binds {α : Type} (env : SessionEnv) (commitment : α → Hash32) (preimage : α → List UInt8)
    (valid : α → Prop) (apart : α → α → Prop) : Prop where
  hashed : ∀ a, commitment a = env.blake3 (preimage a)
  injective : ∀ a b, valid a → valid b → apart a b → preimage a = preimage b → a = b

/-- **Session commitments**: what is hashed for a profile, a configuration or a handoff is different
    for different valid values, and so it is for receipts of a replay without a checkpoint at the
    largest height.  A configuration contains three commitments of its own, which are taken not to
    collide. -/
theorem session_preimages_injective (env : SessionEnv) :
    Binds env (ApplicationProfile.commitment env) ApplicationProfile.preimage
        (fun profile => profile.validate = .ok ()) (fun _ _ => True) ∧
      Binds env (SessionConfig.commitment env) (SessionConfig.preimage env)
        (fun config => config.validate = .ok ()) (SessionConfig.Apart env) ∧
      Binds env (SessionHandoff.id env) SessionHandoff.preimage
        (fun handoff => ∃ sourceTimestampMs, handoff.validate sourceTimestampMs = .ok ())
        (fun _ _ => True) ∧
      Binds env (RangeReplayReceipt.commitment env) RangeReplayReceipt.preimage
        RangeReplayReceipt.Unambiguous (fun _ _ => True) := by
  refine ⟨⟨fun _ => rfl, fun a b ha hb _ => ApplicationProfile.preimage_injective ha hb⟩,
    ⟨fun _ => rfl, fun a b => SessionConfig.preimage_injective⟩, ⟨fun _ => rfl, ?_⟩,
    ⟨fun _ => rfl, fun a b ha hb _ => RangeReplayReceipt.preimage_injective ha hb⟩⟩
  rintro a b ⟨_, ha⟩ ⟨_, hb⟩ _
  exact SessionHandoff.preimage_injective ha hb

/-- A receipt of a replay of one block, from a checkpoint or without one. -/
def sampleReceipt (checkpointHeight : Option UInt64) : RangeReplayReceipt :=
  let zero := FixedBytes.fill 32 0
  ⟨zero, zero, checkpointHeight, zero, zero, zero, 0, 0, zero, zero, zero, zero, 1, 0, 0, 0⟩

/-- No checkpoint, and a checkpoint at the largest height, are hashed from the same bytes. -/
theorem checkpoint_sentinel_collides :
    sampleReceipt none ≠ sampleReceipt (some (-1)) ∧
      (sampleReceipt none).preimage = (sampleReceipt (some (-1))).preimage :=
  ⟨by decide, rfl⟩

end Myelin.Session
