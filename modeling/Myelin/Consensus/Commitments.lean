/-
  What the hashes of blocks and of engine configurations are taken of.

  A block is written as a table of thirteen fields, two of them lists of hashes; below the size at
  which the writer asserts, the offsets cut the table back into its fields.  A configuration is a
  concatenation: its engine kind and ids after their lengths, the members after their count, keys and
  words at fixed width.  Weighted sets are sorted by id first, and ids are distinct, so the bytes
  depend on the SET of validators; authorities are written in their order, which is their schedule.

  Lengths are written as 64-bit words.  That they fit is said of a configuration (`Fits`): nothing in
  memory is longer.
-/
import Myelin.Consensus.Engines
import Myelin.Lib.Delimited

namespace Myelin.Consensus

open Lib

variable {crypto : Crypto}

/-! ## Configurations -/

/-- Bytes after their length. -/
def putConfigBytes (bytes : List UInt8) : List UInt8 := le64 (UInt64.ofNat bytes.length) ++ bytes

/-- One validator of a weighted set. -/
def putValidator (validator : CommitteeValidator) : List UInt8 :=
  putConfigBytes (utf8 validator.id) ++ (validator.publicKey.val ++ le64 validator.weight)

/-- What `validator_config_commitment` hashes. -/
def validatorConfigPreimage (kind : ConsensusKind) (quorum : UInt64)
    (validators : List CommitteeValidator) : List UInt8 :=
  let validators := validators.insertionSort fun left right => left.id ≤ right.id
  utf8 "myelin:consensus-config" ++ putConfigBytes (utf8 kind.asStr) ++ le64 quorum ++
    (le64 (UInt64.ofNat validators.length) ++ validators.flatMap putValidator)

def putAuthority (authority : Authority) : List UInt8 :=
  putConfigBytes (utf8 authority.id) ++ authority.publicKey.val

/-- What `poa_config_commitment` hashes. -/
def poaConfigPreimage (authorities : List Authority) : List UInt8 :=
  utf8 "myelin:consensus-config" ++ putConfigBytes (utf8 ConsensusKind.proofOfAuthority.asStr) ++
    (le64 (UInt64.ofNat authorities.length) ++ authorities.flatMap putAuthority)

/-- What `config_commitment` of an engine hashes. -/
def SelectedConsensus.configPreimage : SelectedConsensus crypto → List UInt8
  | .staticClosedCommittee engine => validatorConfigPreimage .staticClosedCommittee engine.set.quorum
      engine.set.validators.validators
  | .proofOfAuthority engine => poaConfigPreimage engine.authorities
  | .tendermint engine => validatorConfigPreimage .tendermint engine.set.quorum
      engine.set.validators.validators

/-- Number and lengths of some ids are words. -/
def FitIds (ids : List String) : Prop := ids.length < 2 ^ 64 ∧ ∀ id ∈ ids, (utf8 id).length < 2 ^ 64

def SelectedConsensus.Fits : SelectedConsensus crypto → Prop
  | .staticClosedCommittee engine => FitIds (engine.set.validators.validators.map (·.id))
  | .proofOfAuthority engine => FitIds (engine.authorities.map (·.id))
  | .tendermint engine => FitIds (engine.set.validators.validators.map (·.id))

/-- The same quorum and the same validators, in whatever order. -/
def WeightedSet.Same (first second : WeightedSet crypto) : Prop :=
  first.quorum = second.quorum ∧
    ∀ v, v ∈ first.validators.validators ↔ v ∈ second.validators.validators

/-- The same kind of engine with the same configuration. -/
def SelectedConsensus.Same : SelectedConsensus crypto → SelectedConsensus crypto → Prop
  | .staticClosedCommittee first, .staticClosedCommittee second => first.set.Same second.set
  | .proofOfAuthority first, .proofOfAuthority second => first.authorities = second.authorities
  | .tendermint first, .tendermint second => first.set.Same second.set
  | _, _ => False

lemma delimited_id :
    Delimited (fun id => putConfigBytes (utf8 id)) fun id => (utf8 id).length < 2 ^ 64 := by
  refine ⟨fun ha hb heq => ?_⟩
  obtain ⟨hbytes, hrest⟩ := delimited_count64.sized.read ha hb heq
  exact ⟨utf8_injective hbytes, hrest⟩

lemma delimited_putValidator :
    Delimited putValidator fun v => (utf8 v.id).length < 2 ^ 64 ∧ True ∧ True := by
  have htail : Delimited (fun v : Hash32 × UInt64 => v.1.val ++ le64 v.2) fun _ => True ∧ True :=
    (delimited_fixedBytes 32).append delimited_le64 fun _ _ => Prod.ext
  refine delimited_id.append (f := CommitteeValidator.id)
    (g := fun v => (v.publicKey, v.weight)) htail fun a b hid hrest => ?_
  obtain ⟨hkey, hweight⟩ := Prod.mk.inj hrest
  cases a
  cases b
  simp_all

lemma delimited_putAuthority :
    Delimited putAuthority fun a => (utf8 a.id).length < 2 ^ 64 ∧ True := by
  refine delimited_id.append (f := Authority.id) (g := Authority.publicKey)
    (delimited_fixedBytes 33) fun a b hid hkey => ?_
  cases a
  cases b
  simp_all

/-- What follows the kind of two configurations that are written alike. -/
lemma kind_eq {first second : ConsensusKind}
    (h : utf8 "myelin:consensus-config" ++ putConfigBytes (utf8 first.asStr) ++ rest =
      utf8 "myelin:consensus-config" ++ putConfigBytes (utf8 second.asStr) ++ rest') :
    first = second ∧ rest = rest' := by
  have hshort : ∀ kind : ConsensusKind, (utf8 kind.asStr).length < 2 ^ 64 := by
    intro kind
    cases kind <;> decide
  rw [List.append_assoc, List.append_assoc, List.append_right_inj] at h
  obtain ⟨hname, hrest⟩ := delimited_id.read (hshort first) (hshort second) h
  have hkind := congrArg ConsensusKind.fromCanonicalStr hname
  rw [ConsensusKind.fromCanonicalStr_asStr, ConsensusKind.fromCanonicalStr_asStr,
    Except.ok.injEq] at hkind
  exact ⟨hkind, hrest⟩

lemma SelectedConsensus.kind_of_configPreimage {first second : SelectedConsensus crypto}
    (h : first.configPreimage = second.configPreimage) : first.kind = second.kind := by
  have hprefix : ∀ engine : SelectedConsensus crypto, ∃ rest, engine.configPreimage =
      utf8 "myelin:consensus-config" ++ putConfigBytes (utf8 engine.kind.asStr) ++ rest := by
    intro engine
    cases engine with
    | proofOfAuthority engine => exact ⟨_, rfl⟩
    | staticClosedCommittee engine | tendermint engine => exact ⟨_, List.append_assoc _ _ _⟩
  obtain ⟨rest, hfirst⟩ := hprefix first
  obtain ⟨rest', hsecond⟩ := hprefix second
  rw [hfirst, hsecond] at h
  exact (kind_eq h).1

/-- Sorted by distinct ids, a list is determined by its members. -/
lemma sorted_eq_iff (first second : ValidatorMap crypto) :
    first.sorted = second.sorted ↔ ∀ v, v ∈ first.validators ↔ v ∈ second.validators := by
  constructor
  · intro heq v
    rw [← first.sorted_perm.mem_iff, heq, second.sorted_perm.mem_iff]
  · intro hsame
    have hperm : first.validators.Perm second.validators :=
      (List.perm_ext_iff_of_nodup first.wellFormed.ids_nodup.of_map
        second.wellFormed.ids_nodup.of_map).mpr hsame
    exact ((first.sorted_perm.trans hperm).trans second.sorted_perm.symm).eq_of_pairwise
      (fun a b _ _ hab hba => absurd hab hba.not_gt) first.sorted_pairwise second.sorted_pairwise

/-- Weighted sets of one kind are written alike exactly if they are the same. -/
lemma validatorConfigPreimage_eq_iff (kind : ConsensusKind) {first second : WeightedSet crypto}
    (hfirst : FitIds (first.validators.validators.map (·.id)))
    (hsecond : FitIds (second.validators.validators.map (·.id))) :
    validatorConfigPreimage kind first.quorum first.validators.validators =
        validatorConfigPreimage kind second.quorum second.validators.validators ↔ first.Same second := by
  have hfits : ∀ {m : ValidatorMap crypto}, FitIds (m.validators.map (·.id)) →
      m.sorted.length < 2 ^ 64 ∧ ∀ v ∈ m.sorted, (utf8 v.id).length < 2 ^ 64 ∧ True ∧ True := by
    rintro m ⟨hlength, hids⟩
    rw [List.length_map] at hlength
    refine ⟨m.sorted_perm.length_eq ▸ hlength, fun v hv => ⟨?_, trivial, trivial⟩⟩
    exact hids v.id (List.mem_map_of_mem (m.sorted_perm.mem_iff.mp hv))
  rw [WeightedSet.Same, ← sorted_eq_iff]
  constructor
  · intro h
    unfold validatorConfigPreimage at h
    rw [List.append_assoc _ (le64 _), List.append_assoc _ (le64 _)] at h
    obtain ⟨hquorum, h⟩ := le64_append_inj.mp (kind_eq h).2
    exact ⟨hquorum,
      (delimited_count64.counted delimited_putValidator).injective (hfits hfirst) (hfits hsecond) h⟩
  · rintro ⟨hquorum, hsorted⟩
    unfold ValidatorMap.sorted at hsorted
    simp only [validatorConfigPreimage, hquorum, hsorted]

/-! ## Blocks -/

lemma delimited_hashes (h : encodeHashVec xs = encodeHashVec ys) : xs = ys := by
  have hbytes := (List.append_inj h (by rw [le32, le32, leBytes_length, leBytes_length])).2
  exact flatMap_fixedBytes_injective (by decide) hbytes

lemma toMoleculeBytes_injective {first second : MyelinBlock}
    (hfits : first.toMoleculeBytes.length < 2 ^ 32)
    (h : first.toMoleculeBytes = second.toMoleculeBytes) : first = second := by
  unfold MyelinBlock.toMoleculeBytes at hfits h
  have hfields := encodeTable_injective (by rfl) hfits h
  simp only [List.cons.injEq, and_true] at hfields
  obtain ⟨hversion, hsession, hparent, hnumber, htime, hkind, hprofile, hframe, hbefore, hafter, hcells,
    hdata, hscheduler⟩ := hfields
  have hversion' := delimited_le32.injective trivial trivial hversion
  have hword : ∀ {a b : UInt64}, le64 a = le64 b → a = b := delimited_le64.injective trivial trivial
  have hkind' := congrArg ConsensusKind.fromCanonicalStr (utf8_injective hkind)
  rw [ConsensusKind.fromCanonicalStr_asStr, ConsensusKind.fromCanonicalStr_asStr,
    Except.ok.injEq] at hkind'
  cases first
  cases second
  simp only [MyelinBlock.mk.injEq]
  exact ⟨hversion', Subtype.ext hsession, Subtype.ext hparent, hword hnumber, hword htime, hkind',
    Subtype.ext hprofile, Subtype.ext hframe, Subtype.ext hbefore, Subtype.ext hafter,
    delimited_hashes hcells, delimited_hashes hdata, Subtype.ext hscheduler⟩

/-- **Commitments are taken of injective preimages**: blocks below the size assertion with the same
    bytes are the same block, and engines have the same configuration bytes exactly if they have the
    same kind and the same configuration. -/
theorem commitment_preimages (crypto : Crypto) :
    (∀ first second : MyelinBlock, first.toMoleculeBytes.length < 2 ^ 32 →
      first.toMoleculeBytes = second.toMoleculeBytes → first = second) ∧
    ∀ first second : SelectedConsensus crypto, first.Fits → second.Fits →
      (first.configPreimage = second.configPreimage ↔ first.Same second) := by
  refine ⟨fun _ _ => toMoleculeBytes_injective, fun first second hfirst hsecond => ?_⟩
  match first, second, hfirst, hsecond with
  | .staticClosedCommittee _, .staticClosedCommittee _, hfirst, hsecond
  | .tendermint _, .tendermint _, hfirst, hsecond =>
    exact validatorConfigPreimage_eq_iff _ hfirst hsecond
  | .proofOfAuthority first, .proofOfAuthority second, hfirst, hsecond =>
    refine ⟨fun h => ?_, fun h => congrArg poaConfigPreimage h⟩
    have hfits : ∀ {list : List Authority}, FitIds (list.map (·.id)) →
        list.length < 2 ^ 64 ∧ ∀ a ∈ list, (utf8 a.id).length < 2 ^ 64 ∧ True := by
      rintro list ⟨hlength, hids⟩
      rw [List.length_map] at hlength
      exact ⟨hlength, fun a ha => ⟨hids a.id (List.mem_map_of_mem ha), trivial⟩⟩
    exact (delimited_count64.counted delimited_putAuthority).injective (hfits hfirst) (hfits hsecond)
      (kind_eq h).2
  -- kinds that differ are told apart before anything else is read
  | .staticClosedCommittee _, .proofOfAuthority _, _, _ | .staticClosedCommittee _, .tendermint _, _, _
  | .proofOfAuthority _, .staticClosedCommittee _, _, _ | .proofOfAuthority _, .tendermint _, _, _
  | .tendermint _, .staticClosedCommittee _, _, _ | .tendermint _, .proofOfAuthority _, _, _ =>
    exact iff_of_false (fun h => nomatch SelectedConsensus.kind_of_configPreimage h) id

end Myelin.Consensus
