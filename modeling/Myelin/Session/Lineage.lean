/-
  Who owns a handoff: resolving ownership through sealed predecessors.

  A session owns the handoffs its predecessors issued as long as every step back is a sealed,
  state-preserving succession.  `continuation_lineage` walks BACK over predecessor references that
  a genesis may simply claim; what makes the walk trustworthy is that each step requires the
  predecessor's head to be sealed by exactly the session the walk came from.  Read forwards these
  seals are a partial function on sessions (`sealedBy`), so from one issuer there is one maximal
  path and at most one unsealed session on it (`unsealed_owner_unique`).
-/
import Myelin.Lib.Loop
import Myelin.Session.Record

namespace Myelin.Session

open Lib Consensus

/-- The reads lifecycle checks make of a store. -/
structure SessionStore where
  loadGenesis : Hash32 → Except StoreError SessionGenesis
  loadHead : Hash32 → Except StoreError SessionHead
  loadBlock : Hash32 → UInt64 → Except StoreError FinalisedBlockRecord

/-- Bound on the work needed to resolve one inherited obligation. -/
def maxHandoffOwnerDepth : Nat := 32

/-! ## The walk -/

/-- Loop variables of `continuation_lineage`. -/
structure LineageState where
  config : SessionConfig
  lineage : List HandoffBlockReference
  visited : List Hash32

/-- Loop variables before the first pass. -/
def LineageState.start (owner : SessionConfig) : LineageState := ⟨owner, [], [owner.sessionId]⟩

variable (env : SessionEnv) (store : SessionStore)

/-- Read the session a predecessor reference names, and check that it was sealed by `config`. -/
def lineageStep (config : SessionConfig) (predecessor : PredecessorReference) :
    Except SessionError (SessionConfig × HandoffBlockReference) := do
  let source ← (store.loadGenesis predecessor.sessionId).mapError .store
  let block ← (store.loadBlock predecessor.sessionId predecessor.finalHeight).mapError .store
  block.validateResources env source.config
  let declaration ← okOr block.successor (.continuity "owner lineage has no successor")
  declaration.validateSource env source.config (block.frameInput.root env)
  let head ← (store.loadHead predecessor.sessionId).mapError .store
  ensure (declaration.transition.state = .continue ∧ declaration.targetConfig = config ∧
      declaration.sourceHeight = block.block.number ∧
      declaration.sourceStateRoot = block.block.stateRootAfter ∧
      block.block.sessionId = source.config.sessionId ∧
      block.block.applicationProfileCommitment = source.config.applicationProfile.commitment env ∧
      block.consensusModuleCommitment = source.config.consensusModuleCommitment ∧
      declaration.commitment env ∈ block.block.dataCommitments ∧
      head.finalisedHeight = some block.block.number ∧
      head.blockHash = block.block.hash env.crypto ∧
      head.stateRoot = block.block.stateRootAfter ∧
      head.sealedBySuccessor = some config.sessionId)
    (.continuity "handoff ownership requires exact state-preserving canonical succession")
  let target ← (store.loadGenesis config.sessionId).mapError .store
  ensure (target.config = config) (.continuity "owner genesis differs from successor declaration")
  declaration.transition.checkSourceSnapshot env target.stateSnapshot
  pure (source.config, HandoffBlockReference.fromBlock env block.block)

/-- One pass of the `while` loop of `continuation_lineage`. -/
def lineageBody (origin : Hash32) (state : LineageState) :
    Except SessionError (LineageState ⊕ List HandoffBlockReference) := do
  if state.config.sessionId = origin then
    pure (.inr state.lineage)
  else do
    ensure (state.lineage.length ≠ maxHandoffOwnerDepth)
      (.continuity "handoff owner lineage exceeds depth limit")
    let predecessor ← okOr state.config.predecessor
      (.continuity "lifecycle session is not a successor of the handoff source")
    ensure (predecessor.sessionId ∉ state.visited) (.continuity "cyclic handoff owner lineage")
    let (source, reference) ← lineageStep env store state.config predecessor
    pure (.inl ⟨source, state.lineage ++ [reference], predecessor.sessionId :: state.visited⟩)

variable {env store} {origin : Hash32}

/-- What a pass that goes on has found. -/
lemma lineageBody_inl (h : lineageBody env store origin state = .ok (.inl next)) :
    state.lineage.length ≠ maxHandoffOwnerDepth ∧ ∃ predecessor reference,
      state.config.predecessor = some predecessor ∧
        lineageStep env store state.config predecessor = .ok (next.config, reference) ∧
          next.lineage = state.lineage ++ [reference] := by
  unfold lineageBody at h
  split at h
  case isTrue => simp at h
  case isFalse =>
    simp only [eq_ok] at h
    obtain ⟨hdepth, predecessor, hpredecessor, -, ⟨source, reference⟩, hstep, hnext⟩ := h
    cases hnext
    exact ⟨hdepth, predecessor, reference, hpredecessor, hstep, rfl⟩

variable {lineage : List HandoffBlockReference}

/-- A pass returns only at the origin. -/
lemma lineageBody_inr (h : lineageBody env store origin state = .ok (.inr lineage)) :
    state.config.sessionId = origin ∧ state.lineage = lineage := by
  unfold lineageBody at h
  split at h
  case isTrue horigin =>
    rw [pure_eq_ok, Sum.inr.injEq] at h
    exact ⟨horigin, h⟩
  case isFalse =>
    simp only [eq_ok] at h
    obtain ⟨-, _, -, -, _, -, hnext⟩ := h
    cases hnext

/-- Whatever the store holds, the walk makes at most `maxHandoffOwnerDepth` steps back. -/
lemma continuationLoop_terminates (env : SessionEnv) (store : SessionStore) (owner : SessionConfig)
    (origin : Hash32) : ∃ result,
      loop (lineageBody env store origin) (maxHandoffOwnerDepth + 1) (.start owner) = some result := by
  refine exists_loop_eq_some (I := fun state => state.lineage.length ≤ maxHandoffOwnerDepth)
    (B := fun state => maxHandoffOwnerDepth - state.lineage.length) ?_ (Nat.zero_le _)
    (Nat.lt_succ_of_le (Nat.sub_le _ _))
  intro state next hle h
  obtain ⟨hne, -, reference, -, -, hlineage⟩ := lineageBody_inl h
  simp only [hlineage, List.length_append, List.length_singleton]
  omega

/-- Sealing blocks from the nearest predecessor back to `origin`. -/
def continuationLineage (env : SessionEnv) (store : SessionStore) (owner : SessionConfig)
    (origin : Hash32) : Except SessionError (List HandoffBlockReference) :=
  (loop (lineageBody env store origin) (maxHandoffOwnerDepth + 1) (.start owner)).get
    (Option.isSome_iff_exists.mpr (continuationLoop_terminates env store owner origin))

lemma loop_continuationLineage (env : SessionEnv) (store : SessionStore) (owner : SessionConfig)
    (origin : Hash32) :
    loop (lineageBody env store origin) (maxHandoffOwnerDepth + 1) (.start owner) =
      some (continuationLineage env store owner origin) := by
  rw [continuationLineage, Option.some_get]

variable {owner : SessionConfig}

/-- Each pass that goes on adds one sealing block, so a lineage has at most
    `maxHandoffOwnerDepth` of them. -/
lemma continuationLineage_length (h : continuationLineage env store owner origin = .ok lineage) :
    lineage.length ≤ maxHandoffOwnerDepth := by
  have hloop := h ▸ loop_continuationLineage env store owner origin
  refine loop_ok_of_invariant (I := fun state => state.lineage.length ≤ maxHandoffOwnerDepth)
    (Q := fun lineage => lineage.length ≤ maxHandoffOwnerDepth) ?_ ?_ (Nat.zero_le _) hloop
  · intro state next hle hbody
    obtain ⟨hne, -, reference, -, -, hlineage⟩ := lineageBody_inl hbody
    rw [hlineage, List.length_append, List.length_singleton]
    omega
  · intro state result hle hbody
    obtain ⟨-, rfl⟩ := lineageBody_inr hbody
    exact hle

/-- A session without a predecessor descends from itself alone. -/
lemma continuationLineage_root (hroot : owner.predecessor = none)
    (h : continuationLineage env store owner origin = .ok lineage) : owner.sessionId = origin := by
  have hloop := h ▸ loop_continuationLineage env store owner origin
  refine loop_ok_of_invariant (I := fun state => state.config = owner)
    (Q := fun _ => owner.sessionId = origin) ?_ ?_ rfl hloop
  · rintro state next rfl hbody
    obtain ⟨-, predecessor, _, hpredecessor, -⟩ := lineageBody_inl hbody
    exact absurd (hroot.symm.trans hpredecessor) nofun
  · rintro state result rfl hbody
    exact (lineageBody_inr hbody).1

/-- Resolve ownership through immutable, byte-preserving successor declarations. -/
def handoffOwnerLineage (env : SessionEnv) (store : SessionStore) (owner : SessionConfig)
    (handoff : SessionHandoff) : Except SessionError (List HandoffBlockReference) := do
  let lineage ← continuationLineage env store owner handoff.sourceSessionId
  let source ← (store.loadGenesis handoff.sourceSessionId).mapError .store
  ensure (source.config.applicationProfile.commitment env =
        handoff.sourceApplicationProfileCommitment ∧
      source.config.consensusModuleCommitment = handoff.sourceConsensusModuleCommitment ∧
      ∀ blockSeal ∈ lineage.getLast?, handoff.sourceHeight ≤ blockSeal.height)
    (.continuity "handoff owner lineage does not reach its exact issuer")
  pure lineage

/-- Validate the actor's lineage and the causal position of a refund's earlier cancellation. -/
def validateHandoffAction (env : SessionEnv) (store : SessionStore) (owner : SessionConfig)
    (height : UInt64) (action : ResolvedHandoffAction) :
    Except SessionError (List HandoffBlockReference) := do
  action.validateFor env owner.sessionId height
  let lineage ← handoffOwnerLineage env store owner action.handoff
  ensure (∀ block ∈ action.cancelledAt, block.sessionId = owner.sessionId ∨
      ∃ blockSeal ∈ lineage, blockSeal.sessionId = block.sessionId ∧ block.height ≤ blockSeal.height)
    (.continuity "refund cancellation is not in the owner's earlier lineage")
  pure lineage

/-- Check the immutable target block which justifies source lock retirement. -/
def validateConsumptionRecord (env : SessionEnv) (block : HandoffBlockReference)
    (handoffId : Hash32) (record : FinalisedBlockRecord) : Except SessionError Unit := do
  block.validate
  ensure (HandoffBlockReference.fromBlock env record.block = block ∧
      record.consumedHandoffIds.count handoffId = 1)
    (.continuity "retirement consumption reference does not match the exact target block")

/-! ## One unsealed owner -/

/-- The successor that sealed a session, if any. -/
def SessionStore.sealedBy (store : SessionStore) (sessionId : Hash32) : Option Hash32 :=
  match store.loadHead sessionId with
  | .ok head => head.sealedBySuccessor
  | .error _ => none

/-- `next` is the session that sealed `sessionId`. -/
def SessionStore.Seals (store : SessionStore) (sessionId next : Hash32) : Prop :=
  store.sealedBy sessionId = some next

lemma SessionStore.seals_rightUnique (store : SessionStore) : Relator.RightUnique store.Seals :=
  fun _ _ _ h₁ h₂ => Option.some_inj.mp (h₁.symm.trans h₂)

/-- A step back runs against a seal.  That the genesis read really is the predecessor's follows
    from the declaration, not from the store. -/
lemma lineageStep_seals (hpredecessor : config.predecessor = some predecessor)
    (h : lineageStep env store config predecessor = .ok (source, reference)) :
    store.Seals source.sessionId config.sessionId := by
  simp only [lineageStep, eq_ok, Prod.mk.injEq] at h
  obtain ⟨genesis, -, _, -, -, declaration, -, hdeclared, head, hhead, hchecks, _, -, -, -, rfl, -⟩ := h
  obtain ⟨-, rfl, -, -, -, -, -, -, -, -, -, hsealed⟩ := hchecks
  simp only [SuccessorDeclaration.validateSource, eq_ok] at hdeclared
  obtain ⟨hvalid, ⟨hsource, -⟩, -⟩ := hdeclared
  have hreference := hpredecessor.symm.trans (SuccessorDeclaration.validate_ok hvalid).2
  have hid : predecessor.sessionId = genesis.config.sessionId :=
    (congrArg PredecessorReference.sessionId (Option.some_inj.mp hreference)).trans hsource
  unfold SessionStore.Seals SessionStore.sealedBy
  rw [← hid, hhead]
  exact hsealed

/-- An accepted lineage is a path of seals from the origin to the owner. -/
lemma seals_of_continuationLineage (h : continuationLineage env store owner origin = .ok lineage) :
    Relation.ReflTransGen store.Seals origin owner.sessionId := by
  have hloop := h ▸ loop_continuationLineage env store owner origin
  refine loop_ok_of_invariant
    (I := fun state => Relation.ReflTransGen store.Seals state.config.sessionId owner.sessionId)
    (Q := fun _ => Relation.ReflTransGen store.Seals origin owner.sessionId) ?_ ?_ .refl hloop
  · intro state next hpath hbody
    obtain ⟨-, predecessor, reference, hpredecessor, hstep, -⟩ := lineageBody_inl hbody
    exact .head (lineageStep_seals hpredecessor hstep) hpath
  · intro state result hpath hbody
    obtain ⟨rfl, -⟩ := lineageBody_inr hbody
    exact hpath

lemma continuationLineage_of_owner (h : handoffOwnerLineage env store owner handoff = .ok lineage) :
    continuationLineage env store owner handoff.sourceSessionId = .ok lineage := by
  simp only [handoffOwnerLineage, eq_ok] at h
  obtain ⟨_, hlineage, _, -, -, rfl⟩ := h
  exact hlineage

lemma handoffOwnerLineage_of_action
    (h : validateHandoffAction env store owner height action = .ok lineage) :
    handoffOwnerLineage env store owner action.handoff = .ok lineage := by
  simp only [validateHandoffAction, eq_ok] at h
  obtain ⟨-, _, hlineage, -, rfl⟩ := h
  exact hlineage

/-- `owner` passes as the current source-side owner of a handoff. -/
def AcceptedOwner (env : SessionEnv) (store : SessionStore) (handoff : SessionHandoff)
    (owner : SessionConfig) : Prop :=
  (∃ lineage, handoffOwnerLineage env store owner handoff = .ok lineage) ∨
    ∃ height action lineage, action.handoff = handoff ∧
      validateHandoffAction env store owner height action = .ok lineage

/-- A session of the store that no successor has sealed. -/
def SessionStore.Unsealed (store : SessionStore) (owner : SessionConfig) : Prop :=
  (∃ genesis, store.loadGenesis owner.sessionId = .ok genesis ∧ genesis.config = owner) ∧
    ∃ head, store.loadHead owner.sessionId = .ok head ∧ head.sealedBySuccessor = none

lemma AcceptedOwner.seals (h : AcceptedOwner env store handoff owner) :
    Relation.ReflTransGen store.Seals handoff.sourceSessionId owner.sessionId := by
  rcases h with ⟨lineage, haccepted⟩ | ⟨height, action, lineage, rfl, haccepted⟩
  · exact seals_of_continuationLineage (continuationLineage_of_owner haccepted)
  · exact seals_of_continuationLineage
      (continuationLineage_of_owner (handoffOwnerLineage_of_action haccepted))

/-- A session at which the seals stop is the end of every path through it. -/
lemma eq_of_seals_of_unsealed (hpath : Relation.ReflTransGen store.Seals first last)
    (hunsealed : store.sealedBy first = none) : first = last := by
  rcases hpath.cases_head with h | ⟨next, hnext, -⟩
  · exact h
  · exact absurd (hnext.symm.trans hunsealed) nofun

/-- From one origin the seals lead to at most one unsealed session. -/
lemma unsealed_owner_unique (hfirst : Relation.ReflTransGen store.Seals origin first.sessionId)
    (hsecond : Relation.ReflTransGen store.Seals origin second.sessionId)
    (hunsealed₁ : store.Unsealed first) (hunsealed₂ : store.Unsealed second) : first = second := by
  have hend : ∀ {owner : SessionConfig}, store.Unsealed owner → store.sealedBy owner.sessionId = none := by
    rintro owner ⟨-, head, hhead, hsealed⟩
    rw [SessionStore.sealedBy, hhead]
    exact hsealed
  have hid : first.sessionId = second.sessionId := by
    rcases hfirst.total_of_right_unique store.seals_rightUnique hsecond with hpath | hpath
    · exact eq_of_seals_of_unsealed hpath (hend hunsealed₁)
    · exact (eq_of_seals_of_unsealed hpath (hend hunsealed₂)).symm
  obtain ⟨⟨genesis₁, hgenesis₁, rfl⟩, -⟩ := hunsealed₁
  obtain ⟨⟨genesis₂, hgenesis₂, rfl⟩, -⟩ := hunsealed₂
  rw [hid, hgenesis₂] at hgenesis₁
  cases hgenesis₁
  rfl

end Myelin.Session
