/-
  Segment proofs: data-availability samples of append-only segments.

  A segment root commits to the ordered chunks of a segment.  `get_proof` collects the siblings of a
  leaf and skips the levels at which the node is passed on alone; `verify_merkle_proof` takes the side
  of each sibling from the next binary digit of the leaf index, one digit per sibling.  The two agree
  on the leaves whose ancestors all have a sibling, and on no others:

    - `segment_root_injective`: the root binds the whole list of chunks;
    - `segment_proof_complete_iff`: the proof of a `Paired` leaf is accepted under any hash, that of
      another leaf is rejected unless hashes collide;
    - `segment_proof_sound_iff`: an accepted proof names the place of its chunk if it has as many
      siblings as the tree has levels and its index is in range; where chunks differ, only then.

  Hash values are any type: 32 bytes in the source, terms in the examples, where hashing really has
  no collisions.
-/
import Myelin.Lib.Merkle
import Myelin.State.CellTree

namespace Myelin.State

open Lib Lib.Merkle

/-- How segments hash. -/
structure SegmentHashes (H : Type) where
  hashLeaf : List UInt8 → H
  hashInternal : H → H → H
  /-- Root of a segment without chunks. -/
  emptyRoot : H
  /-- `{:?}` of a hash, for error texts. -/
  debug : H → String

/-- BLAKE3 under a domain each. -/
def SegmentHashes.ofBlake3 (blake3 : List UInt8 → Hash) : SegmentHashes Hash where
  hashLeaf data := blake3 (utf8 "myelin-segment/leaf" ++ data)
  hashInternal left right := blake3 (utf8 "myelin-segment/node" ++ left.val ++ right.val)
  emptyRoot := blake3 (utf8 "myelin-empty-merkle-root")
  debug hash := debugBytes hash.val

/-- Leaf, node and empty-root hashing are injective and have disjoint ranges. -/
structure SegmentHashes.CollisionFree {H : Type} (hashes : SegmentHashes H) : Prop extends
    Merkle.CollisionFree hashes.hashLeaf hashes.hashInternal where
  leaf_ne_empty : ∀ data, hashes.hashLeaf data ≠ hashes.emptyRoot
  internal_ne_empty : ∀ left right, hashes.hashInternal left right ≠ hashes.emptyRoot

variable {H : Type} (hashes : SegmentHashes H)

/-! ## Trees -/

/-- Root over some leaf hashes: levels are built until one node is left. -/
def computeMerkleRootFromLeaves (leaves : List H) : H :=
  if leaves.isEmpty then hashes.emptyRoot
  else (reduce hashes.hashInternal leaves.length leaves).headD hashes.emptyRoot

/-- Collects leaf hashes. -/
structure MerkleTreeBuilder (H : Type) where
  leaves : List H

namespace MerkleTreeBuilder

def new : MerkleTreeBuilder H := ⟨[]⟩

def addLeaf (builder : MerkleTreeBuilder H) (data : List UInt8) : MerkleTreeBuilder H :=
  ⟨builder.leaves ++ [hashes.hashLeaf data]⟩

def build (builder : MerkleTreeBuilder H) : H :=
  computeMerkleRootFromLeaves hashes builder.leaves

/-- Siblings of a leaf, level by level; a node without one contributes nothing. -/
def getProof (builder : MerkleTreeBuilder H) (index : Nat) : List H :=
  if builder.leaves.length ≤ index then []
  else siblings hashes.hashInternal builder.leaves.length builder.leaves index

/-- A builder with these chunks added in order. -/
def ofChunks (chunks : List (List UInt8)) : MerkleTreeBuilder H :=
  chunks.foldl (addLeaf hashes) new

end MerkleTreeBuilder

open MerkleTreeBuilder (ofChunks)

/-- Segment root of ordered chunks. -/
def computeSegmentRoot (chunks : List (List UInt8)) : H :=
  (ofChunks hashes chunks).build hashes

/-- Hash up along a proof; each sibling uses up one binary digit of the index. -/
def climb : H → List H → Nat → H
  | current, [], _ => current
  | current, sibling :: proof, index =>
      climb (if index % 2 = 0 then hashes.hashInternal current sibling
        else hashes.hashInternal sibling current) proof (index / 2)

def verifyMerkleProof [DecidableEq H] (hashes : SegmentHashes H) (leaf : H) (proof : List H) (root : H)
    (index : Nat) : Bool :=
  climb hashes leaf proof index = root

/-! ## Proofs and the reader that makes them -/

/-- Merkle proof of one chunk. -/
structure SegmentProof (H : Type) where
  segmentId : UInt32
  leafIndex : UInt32
  chunkData : List UInt8
  chunkOffset : UInt64
  chunkLength : UInt32
  merklePath : List H
  segmentRoot : H

/-- A proof against its own segment root. -/
def SegmentProof.verify [DecidableEq H] (hashes : SegmentHashes H) (proof : SegmentProof H) : Bool :=
  if proof.chunkData.length ≠ proof.chunkLength.toNat then false
  else verifyMerkleProof hashes (hashes.hashLeaf proof.chunkData) proof.merklePath proof.segmentRoot
    proof.leafIndex.toNat

inductive StateError where
  | database (message : String)
  | segmentNotFound (segmentId : UInt32)
  | invalidProof (message : String)
  | io (message : String)
  | serialization (message : String)
  deriving DecidableEq

/-- Where a chunk stands in its segment file. -/
structure AppendRecord where
  offset : UInt64
  length : UInt32

/-- What is on disk: segment files, their chunk indices and the roots in their metadata. -/
structure SegmentReader (H : Type) where
  file : UInt32 → Option (List UInt8)
  loadChunkIndex : UInt32 → Except StateError (List AppendRecord)
  loadMerkleRoot : UInt32 → Except StateError H

namespace SegmentReader

/-- Exactly `length` bytes from `offset` on. -/
def read (reader : SegmentReader H) (segmentId : UInt32) (record : AppendRecord) :
    Except StateError (List UInt8) := do
  let file ← okOr (reader.file segmentId) (.segmentNotFound segmentId)
  ensure (record.offset.toNat + record.length.toNat ≤ file.length)
    (.io "failed to fill whole buffer")
  pure ((file.drop record.offset.toNat).take record.length.toNat)

def buildMerkleBuilder (reader : SegmentReader H) (segmentId : UInt32)
    (chunkIndex : List AppendRecord) : Except StateError (MerkleTreeBuilder H) := do
  let chunks ← mapResult (reader.read segmentId) chunkIndex
  pure (.ofChunks hashes chunks)

/-- The persisted root, or the root of the chunks if there is no metadata yet. -/
def resolveSegmentRoot (reader : SegmentReader H) (segmentId : UInt32)
    (chunkIndex : List AppendRecord) : Except StateError H :=
  match reader.loadMerkleRoot segmentId with
  | .ok root => .ok root
  | .error (.segmentNotFound _) =>
      (reader.buildMerkleBuilder hashes segmentId chunkIndex).map (·.build hashes)
  | .error error => .error error

/-- The proof of one chunk. -/
def buildProof [DecidableEq H] (hashes : SegmentHashes H) (reader : SegmentReader H)
    (segmentId leafIndex : UInt32) : Except StateError (SegmentProof H) := do
  let chunkIndex ← reader.loadChunkIndex segmentId
  let record ← okOr chunkIndex[leafIndex.toNat]?
    (.invalidProof s!"leaf index {leafIndex} out of bounds for segment {segmentId}")
  let builder ← reader.buildMerkleBuilder hashes segmentId chunkIndex
  let segmentRoot ← reader.resolveSegmentRoot hashes segmentId chunkIndex
  ensure (builder.build hashes = segmentRoot) (.invalidProof
    ("segment " ++ toString segmentId ++ " proof index root mismatch: expected=" ++
      hashes.debug segmentRoot ++ ", computed=" ++ hashes.debug (builder.build hashes)))
  let chunkData ← reader.read segmentId record
  pure ⟨segmentId, leafIndex, chunkData, record.offset, record.length,
    builder.getProof hashes leafIndex.toNat, segmentRoot⟩

end SegmentReader

/-! ## What is accepted -/

section Accepted

variable {hashes} {chunks : List (List UInt8)} {chunk : List UInt8}

lemma leaves_ofChunks (hashes : SegmentHashes H) (chunks : List (List UInt8)) :
    (ofChunks hashes chunks).leaves = chunks.map hashes.hashLeaf := by
  induction chunks using List.reverseRecOn with
  | nil => rfl
  | append_singleton chunks chunk ih =>
    rw [ofChunks, List.foldl_append, ← ofChunks]
    show (ofChunks hashes chunks).leaves ++ [hashes.hashLeaf chunk] = _
    rw [ih, List.map_append, List.map_singleton]

lemma climb_eq (current : H) (path : List H) (index : Nat) :
    climb hashes current path index =
      climbBy hashes.hashInternal current (bits path.length index) path := by
  induction path generalizing current index with
  | nil => rfl
  | cons sibling path ih =>
    rw [climb, ih, List.length_cons, bits, climbBy]
    rcases Nat.mod_two_eq_zero_or_one index with heven | hodd
    · rw [if_pos heven, heven]
      rfl
    · rw [if_neg (by omega), hodd]
      rfl

/-- A climb ends where it started, or at a node. -/
lemma climbBy_ne_empty (hfree : hashes.CollisionFree) (hcurrent : current ≠ hashes.emptyRoot) :
    climbBy hashes.hashInternal current sides path ≠ hashes.emptyRoot := by
  induction path generalizing current sides with
  | nil =>
    cases sides with
    | nil | cons side sides => exact hcurrent
  | cons sibling path ih =>
    cases sides with
    | nil => exact hcurrent
    | cons side sides =>
      refine ih ?_
      cases side with
      | true | false => exact hfree.internal_ne_empty _ _

/-- The root is the digest of the tree over the chunks. -/
lemma exists_tree (hashes : SegmentHashes H) (hchunks : chunks ≠ []) :
    ∃ t, reduce Merkle.Tree.node chunks.length (chunks.map Merkle.Tree.leaf) = [t] ∧
      computeSegmentRoot hashes chunks = t.digest hashes.hashLeaf hashes.hashInternal := by
  obtain ⟨first, hfirst⟩ : ∃ first, (chunks.map Merkle.Tree.leaf)[0]? = some first := by
    cases chunks with
    | nil => exact absurd rfl hchunks
    | cons chunk rest => exact ⟨_, rfl⟩
  have htree : reduce Merkle.Tree.node chunks.length (chunks.map Merkle.Tree.leaf) = [_] :=
    climbBy_siblings (by rw [List.length_map]; omega) hfirst
  refine ⟨_, htree, ?_⟩
  have hmap : chunks.map hashes.hashLeaf =
      (chunks.map Merkle.Tree.leaf).map (Merkle.Tree.digest hashes.hashLeaf hashes.hashInternal) := by
    rw [List.map_map]
    rfl
  have hempty : (chunks.map hashes.hashLeaf).isEmpty = false := by
    cases chunks with
    | nil => exact absurd rfl hchunks
    | cons chunk rest => rfl
  have hreduce : reduce hashes.hashInternal chunks.length (chunks.map hashes.hashLeaf) =
      (reduce Merkle.Tree.node chunks.length (chunks.map Merkle.Tree.leaf)).map
        (Merkle.Tree.digest hashes.hashLeaf hashes.hashInternal) := by
    rw [hmap]
    exact reduce_map (fun _ _ => rfl) _ _
  rw [computeSegmentRoot, MerkleTreeBuilder.build, leaves_ofChunks, computeMerkleRootFromLeaves,
    hempty, List.length_map, hreduce, htree]
  rfl

lemma computeSegmentRoot_nil (hashes : SegmentHashes H) :
    computeSegmentRoot hashes [] = hashes.emptyRoot := rfl

lemma computeSegmentRoot_ne_empty (hfree : hashes.CollisionFree) (hchunks : chunks ≠ []) :
    computeSegmentRoot hashes chunks ≠ hashes.emptyRoot := by
  obtain ⟨t, -, hroot⟩ := exists_tree hashes hchunks
  rw [hroot]
  cases t with
  | leaf chunk => exact hfree.leaf_ne_empty chunk
  | node left right => exact hfree.internal_ne_empty _ _

/-- **A segment root binds the whole list of chunks**, its length included. -/
theorem segment_root_injective (hashes : SegmentHashes H) (hfree : hashes.CollisionFree) :
    Function.Injective (computeSegmentRoot hashes) := by
  intro xs ys h
  by_cases hxs : xs = []
  · by_cases hys : ys = []
    · rw [hxs, hys]
    · rw [hxs, computeSegmentRoot_nil] at h
      exact absurd h.symm (computeSegmentRoot_ne_empty hfree hys)
  · by_cases hys : ys = []
    · rw [hys, computeSegmentRoot_nil] at h
      exact absurd h (computeSegmentRoot_ne_empty hfree hxs)
    · obtain ⟨s, hs, hrootx⟩ := exists_tree hashes hxs
      obtain ⟨t, ht, hrooty⟩ := exists_tree hashes hys
      have hsame : s = t := digest_injective hfree.toCollisionFree (hrootx ▸ hrooty ▸ h)
      -- each tree lists the chunks it was built from
      have hlist : ∀ {chunks : List (List UInt8)} {t},
          reduce Merkle.Tree.node chunks.length (chunks.map Merkle.Tree.leaf) = [t] →
            chunks = t.leaves := by
        intro chunks t ht
        have hall := flatMap_leaves_reduce chunks.length (chunks.map Merkle.Tree.leaf)
        rw [ht, List.flatMap_singleton, List.flatMap_map] at hall
        exact (hall.trans (List.flatMap_singleton' chunks)).symm
      rw [hlist hs, hlist ht, hsame]

variable {index : Nat}

lemma getProof_length (hindex : index < chunks.length) :
    ((ofChunks hashes chunks).getProof hashes index).length =
      (address chunks.length chunks.length index).length := by
  rw [MerkleTreeBuilder.getProof, leaves_ofChunks, List.length_map, if_neg (Nat.not_le.mpr hindex),
    siblings_length (by rwa [List.length_map]), List.length_map]

variable [DecidableEq H]

/-- An accepted proof is about some chunk, and its index has this chunk's address. -/
lemma exists_chunk_of_verify (hfree : hashes.CollisionFree)
    (h : verifyMerkleProof hashes (hashes.hashLeaf chunk) path (computeSegmentRoot hashes chunks)
      index = true) :
    ∃ k, chunks[k]? = some chunk ∧ bits path.length index = address chunks.length chunks.length k := by
  rw [verifyMerkleProof, decide_eq_true_eq, climb_eq] at h
  by_cases hchunks : chunks = []
  · subst hchunks
    exact absurd h (climbBy_ne_empty hfree (hfree.leaf_ne_empty _))
  · obtain ⟨t, ht, hroot⟩ := exists_tree hashes hchunks
    have hat := at?_of_climbBy hfree.toCollisionFree (bits_length _ _) (h.trans hroot)
    obtain ⟨k, hk, haddress⟩ := exists_leaf_of_at? (Nat.le_succ _) ht hat
    exact ⟨k, hk, by rwa [List.reverse_reverse] at haddress⟩

/-- Whether `verify_merkle_proof` accepts what `get_proof` gives for the chunk at an index, under the
    root that `build` gives. -/
def provesAt (hashes : SegmentHashes H) (chunks : List (List UInt8)) (index : Nat)
    (chunk : List UInt8) : Bool :=
  let builder := ofChunks hashes chunks
  verifyMerkleProof hashes (hashes.hashLeaf chunk) (builder.getProof hashes index)
    (builder.build hashes) index

/-- The proof of a paired leaf is accepted; nothing is assumed of the hash functions. -/
lemma provesAt_of_paired (hchunk : chunks[index]? = some chunk)
    (hpaired : Paired chunks.length index) : provesAt hashes chunks index chunk = true := by
  have hindex : index < chunks.length := (List.getElem?_eq_some_iff.mp hchunk).1
  have hleaf : (chunks.map hashes.hashLeaf)[index]? = some (hashes.hashLeaf chunk) := by
    rw [List.getElem?_map, hchunk, Option.map_some]
  have hlength : (siblings hashes.hashInternal chunks.length (chunks.map hashes.hashLeaf)
      index).length = (address chunks.length chunks.length index).length := by
    rw [siblings_length (by rwa [List.length_map]), List.length_map]
  have hclimb : reduce hashes.hashInternal chunks.length (chunks.map hashes.hashLeaf) = [_] :=
    climbBy_siblings (by rw [List.length_map]; omega) hleaf
  have hempty : (chunks.map hashes.hashLeaf).isEmpty = false := by
    cases chunks with
    | nil => exact absurd hindex (Nat.not_lt_zero _)
    | cons first rest => rfl
  rw [List.length_map] at hclimb
  simp only [provesAt]
  rw [verifyMerkleProof, decide_eq_true_eq, climb_eq, MerkleTreeBuilder.getProof, leaves_ofChunks,
    List.length_map, if_neg (Nat.not_le.mpr hindex), hlength,
    address_of_paired (Nat.le_succ _) hindex hpaired, bits_length,
    ← address_of_paired (Nat.le_succ _) hindex hpaired, MerkleTreeBuilder.build, leaves_ofChunks,
    computeMerkleRootFromLeaves, hempty, List.length_map, hclimb]
  rfl

/-- The proof of a leaf that is passed on alone at some level is not accepted. -/
lemma paired_of_provesAt (hfree : hashes.CollisionFree) (hindex : index < chunks.length)
    (h : provesAt hashes chunks index chunk = true) : Paired chunks.length index := by
  obtain ⟨k, hk, haddress⟩ := exists_chunk_of_verify hfree h
  rw [getProof_length hindex] at haddress
  have hlt : k < chunks.length := (List.getElem?_eq_some_iff.mp hk).1
  exact (eq_of_address_eq_bits (Nat.le_succ _) hindex hlt haddress.symm).2

/-- What `build_proof` returns. -/
lemma buildProof_eq_ok {reader : SegmentReader H} {leafIndex : UInt32} {proof : SegmentProof H}
    (h : reader.buildProof hashes segmentId leafIndex = .ok proof) :
    ∃ chunkIndex chunks, reader.loadChunkIndex segmentId = .ok chunkIndex ∧
      chunkIndex.length = chunks.length ∧ chunks[leafIndex.toNat]? = some proof.chunkData ∧
      proof.chunkData.length = proof.chunkLength.toNat ∧ proof.leafIndex = leafIndex ∧
      proof.merklePath = (ofChunks hashes chunks).getProof hashes leafIndex.toNat ∧
      proof.segmentRoot = computeSegmentRoot hashes chunks := by
  simp only [SegmentReader.buildProof, SegmentReader.buildMerkleBuilder, eq_ok] at h
  obtain ⟨chunkIndex, hindex, record, hrecord, _, ⟨chunks, hchunks, rfl⟩, root, _, hroot, data, hdata,
    rfl⟩ := h
  have hread := mapResult_eq_ok.mp hchunks
  obtain ⟨chunk, hchunk, hsame⟩ := forall₂_getElem? hread hrecord
  obtain rfl : data = chunk := Except.ok.inj (hdata.symm.trans hsame)
  have hlength : data.length = record.length.toNat := by
    simp only [SegmentReader.read, eq_ok] at hdata
    obtain ⟨file, _, hfits, rfl⟩ := hdata
    rw [List.length_take, List.length_drop]
    omega
  exact ⟨chunkIndex, chunks, hindex, hread.length_eq, hchunk, hlength, rfl, rfl, hroot.symm⟩

end Accepted

/-! ## Completeness -/

/-- **Which honest proofs are accepted**: the proof of the chunk at `index` is accepted if every
    ancestor of its leaf below the root has a sibling, whatever the hash functions are; where these
    have no collisions it is rejected otherwise.  The same holds of whatever `build_proof`
    returns. -/
theorem segment_proof_complete_iff [DecidableEq H] (hashes : SegmentHashes H) :
    (∀ (chunks : List (List UInt8)) (index : Nat) (chunk : List UInt8), chunks[index]? = some chunk →
      (Paired chunks.length index → provesAt hashes chunks index chunk = true) ∧
      (hashes.CollisionFree → ¬Paired chunks.length index →
        provesAt hashes chunks index chunk = false)) ∧
    ∀ (reader : SegmentReader H) (segmentId leafIndex : UInt32) (proof : SegmentProof H),
      reader.buildProof hashes segmentId leafIndex = .ok proof →
      ∃ chunkIndex, reader.loadChunkIndex segmentId = .ok chunkIndex ∧
        (Paired chunkIndex.length leafIndex.toNat → proof.verify hashes = true) ∧
        (hashes.CollisionFree → ¬Paired chunkIndex.length leafIndex.toNat →
          proof.verify hashes = false) := by
  have hleaves : ∀ chunks index chunk, chunks[index]? = some chunk →
      (Paired chunks.length index → provesAt hashes chunks index chunk = true) ∧
      (hashes.CollisionFree → ¬Paired chunks.length index →
        provesAt hashes chunks index chunk = false) := by
    intro chunks index chunk hchunk
    have hindex : index < chunks.length := (List.getElem?_eq_some_iff.mp hchunk).1
    refine ⟨provesAt_of_paired hchunk, fun hfree halone => ?_⟩
    exact Bool.eq_false_of_not_eq_true fun haccepted =>
      halone (paired_of_provesAt hfree hindex haccepted)
  refine ⟨hleaves, fun reader segmentId leafIndex proof hproof => ?_⟩
  obtain ⟨chunkIndex, chunks, hindex, hcount, hchunk, hlength, hleaf, hpath, hroot⟩ :=
    buildProof_eq_ok hproof
  refine ⟨chunkIndex, hindex, ?_⟩
  rw [SegmentProof.verify, if_neg (not_not_intro hlength), hleaf, hpath, hroot, hcount]
  exact hleaves chunks leafIndex.toNat proof.chunkData hchunk

/-- Hash values as terms: nothing collides. -/
inductive HashTerm where
  | leaf (data : List UInt8)
  | node (left right : HashTerm)
  | empty
  deriving DecidableEq

def termHashes : SegmentHashes HashTerm where
  hashLeaf := .leaf
  hashInternal := .node
  emptyRoot := .empty
  debug _ := "term"

lemma termHashes_collisionFree : termHashes.CollisionFree where
  leaf_injective _ _ h := HashTerm.leaf.inj h
  join_injective _ _ _ _ h := HashTerm.node.inj h
  leaf_ne_join := nofun
  leaf_ne_empty := nofun
  internal_ne_empty := nofun

def threeChunks : List (List UInt8) := [[1], [2], [3]]

/-- The odd chunk once and twice, which trees that hash it with itself confuse. -/
theorem segment_root_injective_repeated :
    computeSegmentRoot termHashes threeChunks ≠ computeSegmentRoot termHashes (threeChunks ++ [[3]]) := by
  intro h
  exact absurd (segment_root_injective termHashes termHashes_collisionFree h) (by decide)

/-- Segments under a BLAKE3 that hashes everything to zero. -/
def zeroHashes : SegmentHashes Hash := .ofBlake3 fun _ => FixedBytes.fill 32 0

/-- Among three chunks, the proof of the second is accepted under any hash, and that of the third is
    rejected if there are no collisions. -/
theorem segment_proof_complete_second :
    provesAt zeroHashes threeChunks 1 [2] = true ∧ provesAt termHashes threeChunks 2 [3] = false := by
  refine ⟨((segment_proof_complete_iff zeroHashes).1 threeChunks 1 [2] rfl).1 fun level hlevel => ?_,
    ((segment_proof_complete_iff termHashes).1 threeChunks 2 [3] rfl).2 termHashes_collisionFree
      fun hpaired => absurd (hpaired 0 (by decide)) (by decide)⟩
  match level with
  | 0 => decide
  | 1 => decide
  | level + 2 =>
    have hthree : threeChunks.length = 3 := rfl
    have := Nat.one_le_two_pow (n := level)
    rw [hthree, Nat.pow_add] at hlevel
    omega

/-- **The proof of the third of three chunks is rejected**: its only sibling is on the left, its
    index is even. -/
theorem third_of_three_is_rejected :
    (ofChunks termHashes threeChunks).getProof termHashes 2 = [.node (.leaf [1]) (.leaf [2])] ∧
      provesAt termHashes threeChunks 2 [3] = false := by
  decide

/-! ## Soundness -/

/-- **What an accepted proof says**: with an index in range and a sibling for every level of the tree,
    it shows the chunk at that index.  Where no two chunks are equal, an accepted proof of another
    length, or with an index out of range, shows a chunk that is elsewhere. -/
theorem segment_proof_sound_iff [DecidableEq H] (hashes : SegmentHashes H)
    (hfree : hashes.CollisionFree) (chunks : List (List UInt8)) (proof : SegmentProof H)
    (hroot : proof.segmentRoot = computeSegmentRoot hashes chunks)
    (haccepted : proof.verify hashes = true) :
    (proof.leafIndex.toNat < chunks.length ∧ proof.merklePath.length = Nat.clog 2 chunks.length →
      chunks[proof.leafIndex.toNat]? = some proof.chunkData) ∧
    (chunks.Nodup → (chunks[proof.leafIndex.toNat]? = some proof.chunkData ↔
        proof.leafIndex.toNat < chunks.length ∧
          proof.merklePath.length = Nat.clog 2 chunks.length)) := by
  have hverify : verifyMerkleProof hashes (hashes.hashLeaf proof.chunkData) proof.merklePath
      (computeSegmentRoot hashes chunks) proof.leafIndex.toNat = true := by
    rw [SegmentProof.verify, hroot] at haccepted
    split_ifs at haccepted
    exact haccepted
  obtain ⟨k, hk, haddress⟩ := exists_chunk_of_verify hfree hverify
  have hlt : k < chunks.length := (List.getElem?_eq_some_iff.mp hk).1
  have hlength : proof.merklePath.length = (address chunks.length chunks.length k).length := by
    rw [← haddress, bits_length]
  have hshown : proof.leafIndex.toNat < chunks.length ∧
      proof.merklePath.length = Nat.clog 2 chunks.length →
      chunks[proof.leafIndex.toNat]? = some proof.chunkData := by
    rintro ⟨hindex, hfull⟩
    have hpaired := (address_length (Nat.le_succ _) hlt).2 (hlength.symm.trans hfull)
    rw [address_of_paired (Nat.le_succ _) hlt hpaired, hfull] at haddress
    have hbound : chunks.length ≤ 2 ^ Nat.clog 2 chunks.length := Nat.le_pow_clog (by decide) _
    rw [eq_of_bits_eq (hindex.trans_le hbound) (hlt.trans_le hbound) haddress]
    exact hk
  refine ⟨hshown, fun hnodup => ⟨fun hplace => ?_, hshown⟩⟩
  have hindex : proof.leafIndex.toNat < chunks.length := (List.getElem?_eq_some_iff.mp hplace).1
  -- equal chunks are the same chunk, so the address is the index's own
  obtain rfl : k = proof.leafIndex.toNat :=
    (List.getElem?_inj hlt hnodup).mp (hk.trans hplace.symm)
  rw [hlength] at haddress
  have hpaired := (eq_of_address_eq_bits (Nat.le_succ _) hlt hlt haddress.symm).2
  rw [hlength, address_of_paired (Nat.le_succ _) hlt hpaired, bits_length]
  exact ⟨hindex, rfl⟩

/-- A proof of a chunk of two bytes or fewer. -/
def sampleProof (leafIndex : UInt32) (chunkData : List UInt8) (merklePath : List HashTerm)
    (segmentRoot : HashTerm) : SegmentProof HashTerm :=
  ⟨0, leafIndex, chunkData, 0, UInt32.ofNat chunkData.length, merklePath, segmentRoot⟩

/-- With two siblings in a tree of three leaves, index 1 is the second chunk. -/
theorem segment_proof_sound_second :
    let proof := sampleProof 1 [2] [.leaf [1], .leaf [3]]
      (computeSegmentRoot termHashes threeChunks)
    proof.verify termHashes = true ∧ threeChunks[proof.leafIndex.toNat]? = some proof.chunkData := by
  refine ⟨by decide, ?_⟩
  refine (segment_proof_sound_iff termHashes termHashes_collisionFree threeChunks _ rfl
    (by decide)).1 ⟨by decide, ?_⟩
  decide

/-- **Other places for the same chunk**: the third of three chunks is accepted at index 1, where the
    second one is; and the only chunk of a segment is accepted at index 5. -/
theorem misplaced_chunks_are_accepted :
    (sampleProof 1 [3] [.node (.leaf [1]) (.leaf [2])]
      (computeSegmentRoot termHashes threeChunks)).verify termHashes = true ∧
    threeChunks[1]? ≠ some [3] ∧
    (sampleProof 5 [1] [] (computeSegmentRoot termHashes [[1]])).verify termHashes = true := by
  decide

end Myelin.State
