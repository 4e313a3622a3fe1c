/-
  Weighted validator sets, as the two weighted engines build and consult them.

  `StaticClosedCommittee::new` and `Tendermint::new` run the SAME loop over their configured
  validators (non-empty id, non-zero weight, parsable key, checked total, unique id); they differ
  in the texts of three errors.  `insertValidators` is that loop and `ValidatorMap` is what it
  leaves behind: a map that carries the facts the loop checked, so no later proof re-checks them.

  The Rust map is a `HashMap`; the model keeps the validators in configuration order.  Nothing
  observable depends on the iteration order: lookups go by the unique id, the total is a sum that
  fits, and proposer selection sorts by id first.

  The bridge to the quorum library is `ValidatorMap.committee`: `Committee.power` over it is the
  weight the engines count in machine words (`checkedAdd_power`).
-/
import Mathlib.Data.String.Basic
import Myelin.Consensus.Types
import Myelin.Lib.Lists
import Myelin.Lib.Quorum
import Myelin.Lib.Result

namespace Myelin.Consensus

open Lib

/-- Configured validator of a weighted engine. -/
structure CommitteeValidator where
  /-- Stable validator identifier used by certificates. -/
  id : String
  publicKey : Hash32
  /-- Voting weight counted towards quorum. -/
  weight : UInt64
  deriving DecidableEq

/-- One validator's signature in a certificate. -/
structure CommitteeSignature where
  validatorId : String
  signature : Signature64
  deriving DecidableEq

/-- What the constructor loop has checked about the validators inserted so far. -/
structure WellFormed (crypto : Crypto) (validators : List CommitteeValidator) : Prop where
  ids_nodup : (validators.map (·.id)).Nodup
  ids_nonempty : ∀ v ∈ validators, v.id ≠ ""
  weights_pos : ∀ v ∈ validators, v.weight ≠ 0
  keys_parse : ∀ v ∈ validators, crypto.parseXOnlyPublicKey v.publicKey = .ok ()
  total_fits : (validators.map (·.weight.toNat)).sum < 2 ^ 64

/-- A validated `HashMap<String, CommitteeValidator>`. -/
structure ValidatorMap (crypto : Crypto) where
  /-- The validators, in configuration order. -/
  validators : List CommitteeValidator
  wellFormed : WellFormed crypto validators

/-- The loop of both constructors: `inserted` and `total` are what it has so far, `overflow` is
    the engine's own text for a total that does not fit. -/
def insertValidators (crypto : Crypto) (overflow : String) :
    List CommitteeValidator → UInt64 → List CommitteeValidator →
      Except ConsensusError (List CommitteeValidator × UInt64)
  | inserted, total, [] => .ok (inserted, total)
  | inserted, total, validator :: rest => do
      ensure (validator.id ≠ "") (.invalidConfig "validator id must not be empty")
      ensure (validator.weight ≠ 0) (ConsensusError.zeroWeight validator.id)
      match crypto.parseXOnlyPublicKey validator.publicKey with
      | .error error => .error (.invalidConfig
          ("validator " ++ validator.id ++ " has invalid x-only public key: " ++ error))
      | .ok () =>
          let total ← okOr (checkedAdd total validator.weight) (.invalidConfig overflow)
          ensure (validator.id ∉ inserted.map (·.id)) ConsensusError.duplicateValidator
          insertValidators crypto overflow (inserted ++ [validator]) total rest

lemma WellFormed.nil (crypto : Crypto) : WellFormed crypto [] :=
  ⟨List.nodup_nil, by simp, by simp, by simp, by simp⟩

/-- One turn of the loop keeps the checks. -/
lemma WellFormed.snoc (h : WellFormed crypto inserted) (hid : validator.id ≠ "")
    (hweight : validator.weight ≠ 0)
    (hkey : crypto.parseXOnlyPublicKey validator.publicKey = .ok ())
    (hnew : validator.id ∉ inserted.map (·.id))
    (hfits : (inserted.map (·.weight.toNat)).sum + validator.weight.toNat < 2 ^ 64) :
    WellFormed crypto (inserted ++ [validator]) := by
  refine ⟨nodup_map_snoc h.ids_nodup hnew, forall_mem_snoc h.ids_nonempty hid,
    forall_mem_snoc h.weights_pos hweight, forall_mem_snoc h.keys_parse hkey, ?_⟩
  simpa using hfits

/-- What a successful loop has established: all validators inserted, all checks passed, and the
    running total exact. -/
lemma insertValidators_ok :
    ∀ {rest inserted : List CommitteeValidator} {total : UInt64}
      {result : List CommitteeValidator × UInt64},
      WellFormed crypto inserted → total.toNat = (inserted.map (·.weight.toNat)).sum →
      insertValidators crypto overflow inserted total rest = .ok result →
      result.1 = inserted ++ rest ∧ WellFormed crypto result.1 ∧
        result.2.toNat = (result.1.map (·.weight.toNat)).sum := by
  intro rest
  induction rest with
  | nil =>
    intro inserted total result hwf htotal hok
    rw [insertValidators, Except.ok.injEq] at hok
    subst hok
    exact ⟨(List.append_nil _).symm, hwf, htotal⟩
  | cons validator rest ih =>
    intro inserted total result hwf htotal hok
    simp only [insertValidators, eq_ok] at hok
    obtain ⟨hid, hweight, hok⟩ := hok
    cases hkey : crypto.parseXOnlyPublicKey validator.publicKey with
    | error error => simp only [hkey, reduceCtorEq] at hok
    | ok u =>
      simp only [hkey, eq_ok] at hok
      obtain ⟨total', hadd, hnew, hok⟩ := hok
      have hsum := checkedAdd_eq_some.mp hadd
      have hlt := total'.toNat_lt
      have hwf' := hwf.snoc hid hweight hkey hnew (by omega)
      have htotal' : total'.toNat = ((inserted ++ [validator]).map (·.weight.toNat)).sum := by
        simp only [List.map_append, List.map_cons, List.map_nil, List.sum_append, List.sum_cons,
          List.sum_nil]
        omega
      obtain ⟨hlist, hrest⟩ := ih hwf' htotal' hok
      exact ⟨by rw [hlist, List.append_assoc, List.singleton_append], hrest⟩

/-! ## Lookups and weights -/

namespace ValidatorMap

variable {crypto : Crypto} (m : ValidatorMap crypto)

/-- `validators.get(id)`. -/
def get? (id : String) : Option CommitteeValidator := m.validators.find? (·.id = id)

/-- Sum of all weights. -/
def totalWeight : Nat := (m.validators.map (·.weight.toNat)).sum

variable {id : String} {v : CommitteeValidator}

lemma get?_eq_some : m.get? id = some v ↔ v ∈ m.validators ∧ v.id = id := by
  refine ⟨fun h => mem_of_find?_key h, ?_⟩
  rintro ⟨hmem, rfl⟩
  exact find?_key_of_mem m.wellFormed.ids_nodup hmem

/-- The validators in the order of their ids. -/
def sorted : List CommitteeValidator := m.validators.insertionSort fun left right => left.id ≤ right.id

lemma sorted_perm : m.sorted.Perm m.validators := List.perm_insertionSort _ _

lemma sorted_pairwise : m.sorted.Pairwise fun left right => left.id < right.id := by
  have hdistinct : m.sorted.Pairwise fun left right => left.id ≠ right.id :=
    List.pairwise_map.mp ((m.sorted_perm.map _).nodup_iff.mpr m.wellFormed.ids_nodup)
  exact ((List.pairwise_insertionSort _ _).and hdistinct).imp fun h => lt_of_le_of_ne h.1 h.2

/-- The map as a committee of the quorum library, with the engine's quorum. -/
def committee (quorum : Nat) : Committee String where
  members := (m.validators.map (·.id)).toFinset
  weight id := ((m.get? id).map (·.weight.toNat)).getD 0
  quorum := quorum

variable {m}

lemma mem_members : id ∈ (m.committee quorum).members ↔ ∃ v, m.get? id = some v := by
  simp [committee, get?_eq_some]

lemma weight_of_get? (h : m.get? id = some v) :
    (m.committee quorum).weight id = v.weight.toNat := by
  simp [committee, h]

lemma total_committee (quorum : Nat) : (m.committee quorum).total = m.totalWeight := by
  have hsum : (m.committee quorum).total =
      ((m.validators.map (·.id)).map (m.committee quorum).weight).sum :=
    List.sum_toFinset _ m.wellFormed.ids_nodup
  rw [hsum, List.map_map, totalWeight]
  congr 1
  refine List.map_congr_left fun v hv => ?_
  exact weight_of_get? ((get?_eq_some m).mpr ⟨hv, rfl⟩)

lemma total_lt (quorum : Nat) : (m.committee quorum).total < 2 ^ 64 := by
  rw [total_committee]
  exact m.wellFormed.total_fits

/-- Counting one more known validator in machine words never overflows, and counts exactly its
    weight. -/
lemma checkedAdd_power (hcounted : counted ⊆ (m.committee quorum).members)
    (hpower : power.toNat = (m.committee quorum).power counted) (hnew : id ∉ counted)
    (hget : m.get? id = some v) :
    ∃ power', checkedAdd power v.weight = some power' ∧
      power'.toNat = (m.committee quorum).power (insert id counted) := by
  have hinsert : (m.committee quorum).power (insert id counted) =
      v.weight.toNat + (m.committee quorum).power counted := by
    rw [Committee.power, Finset.sum_insert hnew, weight_of_get? hget, Committee.power]
  have hbound : (m.committee quorum).power (insert id counted) ≤ (m.committee quorum).total :=
    Committee.power_mono _ (Finset.insert_subset (mem_members.mpr ⟨v, hget⟩) hcounted)
  have hfits := m.total_lt quorum
  cases hadd : checkedAdd power v.weight with
  | none =>
    have := checkedAdd_eq_none.mp hadd
    omega
  | some power' =>
    have := checkedAdd_eq_some.mp hadd
    exact ⟨power', rfl, by omega⟩

section Tally

variable {α : Type} (idOf : α → String) (accept : α → Prop)
  (loop : List String → UInt64 → List α → Except ConsensusError UInt64)

section

variable (hnil : ∀ seen power, loop seen power [] = .ok power)
  (hcons : ∀ seen power a rest p, loop seen power (a :: rest) = .ok p ↔ accept a ∧ idOf a ∉ seen ∧
    ∃ v, m.get? (idOf a) = some v ∧ ∃ power', checkedAdd power v.weight = some power' ∧
      loop (idOf a :: seen) power' rest = .ok p)
  (haccept : ∀ a, accept a → ∃ v, m.get? (idOf a) = some v) (quorum : Nat)
include hnil hcons haccept quorum

/-- A tally loop from a state that has counted exactly `seen`. -/
lemma tallyFrom_eq_ok :
    ∀ {list : List α} {seen : List String} {power : UInt64},
      seen.toFinset ⊆ (m.committee quorum).members →
      power.toNat = (m.committee quorum).power seen.toFinset →
      (loop seen power list = .ok p ↔
        (∀ a ∈ list, accept a) ∧ (list.map idOf).Nodup ∧ (∀ a ∈ list, idOf a ∉ seen) ∧
        p.toNat = (m.committee quorum).power (seen.toFinset ∪ (list.map idOf).toFinset)) := by
  intro list
  induction list with
  | nil =>
    intro seen power _ hpower
    simp only [hnil, Except.ok.injEq, List.not_mem_nil, false_imp_iff, implies_true,
      List.map_nil, List.nodup_nil, List.toFinset_nil, Finset.union_empty, true_and, ← hpower,
      ← UInt64.toNat_inj]
    exact eq_comm
  | cons a rest ih =>
    intro seen power hseen hpower
    rw [hcons]
    -- one turn: a validator not seen before, whose weight is added exactly
    have turn : ∀ v, m.get? (idOf a) = some v → idOf a ∉ seen →
        ∃ power', checkedAdd power v.weight = some power' ∧
          power'.toNat = (m.committee quorum).power (idOf a :: seen).toFinset := by
      intro v hget hnew
      rw [List.toFinset_cons]
      exact checkedAdd_power hseen hpower (by simpa using hnew) hget
    have hunion : (idOf a :: seen).toFinset ∪ (rest.map idOf).toFinset =
        seen.toFinset ∪ ((a :: rest).map idOf).toFinset := by
      rw [List.toFinset_cons, List.map_cons, List.toFinset_cons, Finset.insert_union,
        Finset.union_insert]
    have hseen' : ∀ v, m.get? (idOf a) = some v →
        (idOf a :: seen).toFinset ⊆ (m.committee quorum).members := by
      intro v hget
      rw [List.toFinset_cons]
      exact Finset.insert_subset (mem_members.mpr ⟨v, hget⟩) hseen
    constructor
    · rintro ⟨hok, hnew, v, hget, power', hadd, hloop⟩
      obtain ⟨power'', hadd', hpower'⟩ := turn v hget hnew
      obtain rfl : power' = power'' := Option.some_inj.mp (hadd.symm.trans hadd')
      obtain ⟨hall, hnodup, hfresh, hp⟩ := (ih (hseen' v hget) hpower').mp hloop
      refine ⟨List.forall_mem_cons.mpr ⟨hok, hall⟩, ?_, ?_, hunion ▸ hp⟩
      · rw [List.map_cons, List.nodup_cons]
        refine ⟨fun hmem => ?_, hnodup⟩
        obtain ⟨other, hother, heq⟩ := List.mem_map.mp hmem
        exact hfresh other hother (heq ▸ List.mem_cons_self)
      · refine List.forall_mem_cons.mpr ⟨hnew, fun other hother hmem => ?_⟩
        exact hfresh other hother (List.mem_cons_of_mem _ hmem)
    · rintro ⟨hall, hnodup, hfresh, hp⟩
      obtain ⟨hok, hall⟩ := List.forall_mem_cons.mp hall
      obtain ⟨hnew, hfresh⟩ := List.forall_mem_cons.mp hfresh
      rw [List.map_cons, List.nodup_cons] at hnodup
      obtain ⟨v, hget⟩ := haccept a hok
      obtain ⟨power', hadd, hpower'⟩ := turn v hget hnew
      refine ⟨hok, hnew, v, hget, power', hadd, ?_⟩
      refine (ih (hseen' v hget) hpower').mpr ⟨hall, hnodup.2, ?_, hunion ▸ hp⟩
      intro other hother hmem
      rcases List.mem_cons.mp hmem with heq | hmem
      · exact hnodup.1 (heq ▸ List.mem_map_of_mem hother)
      · exact hfresh other hother hmem

/-- **What a tally loop computes.**  The engines count signatures in loops that differ in the order
    of their checks only: each turn accepts an entry of a validator not seen before and adds its
    weight.  Such a loop succeeds exactly on accepted entries of distinct validators, and returns
    the power of all validators counted; its overflow branch is never taken. -/
theorem tally_eq_ok :
    loop [] 0 list = .ok p ↔ (∀ a ∈ list, accept a) ∧ (list.map idOf).Nodup ∧
      p.toNat = (m.committee quorum).power (list.map idOf).toFinset := by
  rw [tallyFrom_eq_ok idOf accept loop hnil hcons haccept quorum (by simp)
    (by simp [Committee.power])]
  simp only [List.not_mem_nil, not_false_eq_true, implies_true, List.toFinset_nil,
    Finset.empty_union, true_and]

end

end Tally

/-! ## Certificates -/

/-- An entry is a configured validator's signature over the digest for its id. -/
def Signed (m : ValidatorMap crypto) (digest : String → Hash32) (signature : CommitteeSignature) :
    Prop :=
  ∃ validator, m.get? signature.validatorId = some validator ∧
    verifySchnorr crypto validator.publicKey (digest signature.validatorId) signature.signature = true

/-- The loop over the entries of a certificate.  Both weighted engines look an entry up, verify it
    and add its weight; they differ in the digest and in one error text. -/
def certificateLoop (m : ValidatorMap crypto) (digest : String → Hash32) (overflow : String) :
    List String → UInt64 → List CommitteeSignature → Except ConsensusError UInt64
  | _, signedWeight, [] => .ok signedWeight
  | seen, signedWeight, signature :: rest => do
      ensure (signature.validatorId ∉ seen) ConsensusError.duplicateValidator
      let validator ← okOr (m.get? signature.validatorId) (.unknownValidator signature.validatorId)
      ensure (verifySchnorr crypto validator.publicKey (digest signature.validatorId)
        signature.signature) (ConsensusError.invalidSignature signature.validatorId)
      let signedWeight ← okOr (checkedAdd signedWeight validator.weight) (.invalidConfig overflow)
      certificateLoop m digest overflow (signature.validatorId :: seen) signedWeight rest

/-- **What a certificate loop accepts.** -/
theorem certificateLoop_eq_ok :
    (∃ weight, m.certificateLoop digest overflow [] 0 signatures = .ok weight ∧ quorum ≤ weight) ↔
      (∀ signature ∈ signatures, m.Signed digest signature) ∧
      (signatures.map (·.validatorId)).Nodup ∧
      quorum.toNat ≤
        (m.committee quorum.toNat).power (signatures.map (·.validatorId)).toFinset := by
  have hturn : ∀ seen weight signature rest p,
      m.certificateLoop digest overflow seen weight (signature :: rest) = .ok p ↔
      m.Signed digest signature ∧ signature.validatorId ∉ seen ∧
        ∃ validator, m.get? signature.validatorId = some validator ∧
          ∃ weight', checkedAdd weight validator.weight = some weight' ∧
            m.certificateLoop digest overflow (signature.validatorId :: seen) weight' rest =
              .ok p := by
    intro seen weight signature rest p
    simp only [certificateLoop, eq_ok]
    -- the loop checks the id before the signature; the order does not matter for acceptance
    constructor
    · rintro ⟨hnew, validator, hget, hverify, hrest⟩
      exact ⟨⟨validator, hget, hverify⟩, hnew, validator, hget, hrest⟩
    · rintro ⟨⟨validator, hget, hverify⟩, hnew, validator', hget', hrest⟩
      obtain rfl : validator = validator' := Option.some_inj.mp (hget.symm.trans hget')
      exact ⟨hnew, validator, hget, hverify, hrest⟩
  simp only [tally_eq_ok _ _ _ (fun _ _ => rfl) hturn
    (fun _ hsigned => hsigned.imp fun _ => And.left) quorum.toNat, UInt64.le_iff_toNat_le]
  constructor
  · rintro ⟨weight, ⟨hsigned, hnodup, hweight⟩, hquorum⟩
    exact ⟨hsigned, hnodup, hweight ▸ hquorum⟩
  · rintro ⟨hsigned, hnodup, hquorum⟩
    have hfits : (m.committee quorum.toNat).power (signatures.map (·.validatorId)).toFinset <
        2 ^ 64 := by
      refine lt_of_le_of_lt (Committee.power_mono _ fun id hid => ?_) (m.total_lt quorum.toNat)
      obtain ⟨signature, hmem, rfl⟩ := List.mem_map.mp (List.mem_toFinset.mp hid)
      obtain ⟨validator, hget, -⟩ := hsigned signature hmem
      exact mem_members.mpr ⟨validator, hget⟩
    have hword := toNat_word hfits
    exact ⟨_, ⟨hsigned, hnodup, hword⟩, hquorum.trans_eq hword.symm⟩

end ValidatorMap

/-! ## A validator set with its quorum -/

/-- A validated map and a quorum: `0 < quorum ≤ total` is all the constructors check of it. -/
structure WeightedSet (crypto : Crypto) where
  validators : ValidatorMap crypto
  quorum : UInt64
  quorum_ne_zero : quorum ≠ 0
  quorum_le_total : quorum.toNat ≤ validators.totalWeight

/-- The error texts in which the two constructors differ. -/
structure WeightedTexts where
  quorumZero : String
  totalOverflow : String
  noValidators : String
  quorumTooHigh : String

/-- The body of both constructors. -/
def WeightedSet.new (crypto : Crypto) (texts : WeightedTexts) (configured : List CommitteeValidator)
    (quorum : UInt64) : Except ConsensusError (WeightedSet crypto) :=
  if hquorum : quorum = 0 then
    .error (.invalidConfig texts.quorumZero)
  else
    match h : insertValidators crypto texts.totalOverflow [] 0 configured with
    | .error error => .error error
    | .ok (validators, total) =>
      if validators = [] then
        .error (.invalidConfig texts.noValidators)
      else if hle : total < quorum then
        .error (.invalidConfig texts.quorumTooHigh)
      else
        have hok := insertValidators_ok (WellFormed.nil crypto) rfl h
        .ok {
          validators := ⟨validators, hok.2.1⟩
          quorum := quorum
          quorum_ne_zero := hquorum
          quorum_le_total := by
            rw [UInt64.lt_iff_toNat_lt, Nat.not_lt] at hle
            exact hle.trans_eq hok.2.2 }

end Myelin.Consensus
