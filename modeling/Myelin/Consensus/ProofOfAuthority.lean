/-
  Proof of authority: at each height exactly one configured authority may seal.

  The schedule is the configuration order: `authorities[height % len]`.  `ProofOfAuthority` carries
  that the list is not empty, so `expectedAuthority` is total, and that ids and lock arguments are
  distinct, as the constructor checks.
-/
import Myelin.Consensus.Validators

namespace Myelin.Consensus

open Lib

variable {crypto : Crypto}

/-! ## CKB identities -/

/-- Length-prefixed bytes of the wallet digests. -/
def putBytes (value : List UInt8) : List UInt8 :=
  le32 (UInt32.ofNat value.length) ++ value

/-- Digest an authority seals. -/
def poaSealDigest (crypto : Crypto) (authorityId : String) (blockHash : Hash32) (height : UInt64) :
    Hash32 :=
  crypto.ckbBlake2b256 (putBytes (utf8 "myelin:ckb-proof-of-authority-seal") ++ le64 height ++
    putBytes (utf8 authorityId) ++ blockHash.val)

/-- Blake160 of a compressed public key. -/
def lockArgFromPublicKey (crypto : Crypto) (publicKey : CkbPublicKey33) :
    Except String CkbLockArg :=
  match crypto.parsePublicKey publicKey with
  | .error error => .error ("invalid compressed secp256k1 public key: " ++ error)
  | .ok serialized => .ok ⟨(crypto.ckbBlake2b256 serialized.val).val.take 20, by
      rw [List.length_take, (crypto.ckbBlake2b256 serialized.val).property]
      rfl⟩

/-! ## The engine -/

/-- One public signing authority in schedule order. -/
structure Authority where
  id : String
  publicKey : CkbPublicKey33
  deriving DecidableEq

/-- Ordered authority-set configuration. -/
structure ProofOfAuthorityConfig where
  authorities : List Authority
  deriving DecidableEq

/-- Height-bound block seal. -/
structure ProofOfAuthoritySeal where
  blockHash : Hash32
  height : UInt64
  authorityId : String
  signature : CkbSignature65
  deriving DecidableEq

/-- A block finalised by its scheduled authority. -/
structure FinalisedProofOfAuthorityBlock where
  block : MyelinBlock
  blockHash : Hash32
  blockSeal : ProofOfAuthoritySeal
  deriving DecidableEq

/-- Deterministic rotating proof-of-authority engine. -/
structure ProofOfAuthority (crypto : Crypto) where
  authorities : List Authority
  nonempty : authorities ≠ []
  ids_nodup : (authorities.map (·.id)).Nodup
  ids_nonempty : ∀ authority ∈ authorities, authority.id ≠ ""

/-- The constructor loop, with the ids and lock arguments seen so far. -/
def authorityLoop (crypto : Crypto) :
    List String → List CkbLockArg → List Authority → Except ConsensusError Unit
  | _, _, [] => .ok ()
  | ids, lockArgs, authority :: rest => do
      ensure (authority.id ≠ "") (.invalidConfig "authority id must not be empty")
      ensure (authority.id ∉ ids) (ConsensusError.duplicateAuthority authority.id)
      match lockArgFromPublicKey crypto authority.publicKey with
      | .error error => .error (.invalidConfig
          ("authority " ++ authority.id ++ " has invalid compressed public key: " ++ error))
      | .ok lockArg =>
          ensure (lockArg ∉ lockArgs) ConsensusError.duplicateAuthorityKey
          authorityLoop crypto (authority.id :: ids) (lockArg :: lockArgs) rest

/-- The loop has checked every id. -/
lemma authorityLoop_ok :
    ∀ {authorities : List Authority} {ids : List String} {lockArgs : List CkbLockArg},
      authorityLoop crypto ids lockArgs authorities = .ok () →
      (authorities.map (·.id)).Nodup ∧ (∀ authority ∈ authorities, authority.id ≠ "") ∧
        ∀ authority ∈ authorities, authority.id ∉ ids := by
  intro authorities
  induction authorities with
  | nil => intro _ _ _; simp
  | cons authority rest ih =>
    intro ids lockArgs h
    simp only [authorityLoop, eq_ok] at h
    obtain ⟨hid, hnew, h⟩ := h
    cases hkey : lockArgFromPublicKey crypto authority.publicKey with
    | error error => simp only [hkey, reduceCtorEq] at h
    | ok lockArg =>
      simp only [hkey, eq_ok] at h
      obtain ⟨hnodup, hnonempty, hfresh⟩ := ih h.2
      refine ⟨?_, List.forall_mem_cons.mpr ⟨hid, hnonempty⟩, List.forall_mem_cons.mpr ⟨hnew, ?_⟩⟩
      · rw [List.map_cons, List.nodup_cons]
        refine ⟨fun hmem => ?_, hnodup⟩
        obtain ⟨other, hother, heq⟩ := List.mem_map.mp hmem
        exact hfresh other hother (heq ▸ List.mem_cons_self)
      · intro other hother hmem
        exact hfresh other hother (List.mem_cons_of_mem _ hmem)

namespace ProofOfAuthority

/-- Validate an ordered authority set. -/
def new (crypto : Crypto) (config : ProofOfAuthorityConfig) :
    Except ConsensusError (ProofOfAuthority crypto) :=
  if hempty : config.authorities = [] then
    .error (.invalidConfig "proof-of-authority must contain at least one authority")
  else
    match h : authorityLoop crypto [] [] config.authorities with
    | .error error => .error error
    | .ok () => .ok {
        authorities := config.authorities
        nonempty := hempty
        ids_nodup := (authorityLoop_ok h).1
        ids_nonempty := (authorityLoop_ok h).2.1 }

variable (e : ProofOfAuthority crypto)

/-- The authority scheduled for a height. -/
def expectedAuthority (height : UInt64) : Authority :=
  e.authorities.get ⟨height.toNat % e.authorities.length,
    Nat.mod_lt _ (List.length_pos_of_ne_nil e.nonempty)⟩

/-- Verify schedule, height, block binding and signature of a seal. -/
def verifySeal (blockHash : Hash32) (height : UInt64) (blockSeal : ProofOfAuthoritySeal) :
    Except ConsensusError Unit := do
  ensure (blockSeal.blockHash = blockHash) ConsensusError.wrongBlockHash
  ensure (blockSeal.height = height) (ConsensusError.wrongHeight height blockSeal.height)
  let expected := e.expectedAuthority height
  ensure (blockSeal.authorityId = expected.id)
    (ConsensusError.unexpectedAuthority expected.id blockSeal.authorityId)
  let digest := poaSealDigest crypto blockSeal.authorityId blockHash height
  ensure ((crypto.recoverPublicKey digest blockSeal.signature).toOption = some expected.publicKey)
    (ConsensusError.invalidSignature blockSeal.authorityId)

/-- Verify a seal and finalise its block. -/
def finaliseBlockWithSeal (block : MyelinBlock) (blockSeal : ProofOfAuthoritySeal) :
    Except ConsensusError FinalisedProofOfAuthorityBlock := do
  ensure (block.consensusKind = .proofOfAuthority)
    (.wrongEngine ConsensusKind.proofOfAuthority.asStr block.consensusKind.asStr)
  let blockHash := block.hash crypto
  e.verifySeal blockHash block.number blockSeal
  pure ⟨block, blockHash, blockSeal⟩

/-- The schedule never leaves the configured authorities. -/
lemma expectedAuthority_mem (height : UInt64) : e.expectedAuthority height ∈ e.authorities :=
  List.get_mem _ _

end ProofOfAuthority

end Myelin.Consensus
