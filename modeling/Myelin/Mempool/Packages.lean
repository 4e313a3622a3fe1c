/-
  Packages can be executed.

  `add` compares ONE root: the pool's own for a transaction without parents, the result root of its
  only parent for another.  If roots are collision free, a transaction was thus verified on what its
  lineage leaves of the base state (`Lib.Lineage`).  Two entries with a common outpoint in their
  footprints are related.  No outpoint is spent twice and no two entries have one id, so one of them
  spends what the other creates.  If the creator arrived first, it is the parent.  If it arrived later,
  the outpoint was live in the base state when the spender came, and must have been spent in the state
  the creator was verified on: the spender is among its ancestors (`Pool.related`).  With that every
  order that puts parents first executes (`packages_executable`).
-/
import Myelin.Lib.Lineage
import Myelin.Mempool.Bookkeeping
import Myelin.State.Schedule

namespace Myelin.Mempool

open Lib Exec State
open FixedBytes (fill)

variable {F : Type} [CommGroup F] {hashes : CellHashes F} {blake3 : List UInt8 → Hash}
variable {inner : PoolInner} {entry other : PoolEntry} {o : OutPoint}

/-! ## Admission proofs and where they come from -/

/-- A successful call of `verify_transaction` on some engine. -/
structure Admission (hashes : CellHashes F) (blake3 : List UInt8 → Hash) where
  engine : StateTransitionEngine hashes
  tx : CellTx
  context : StateTransitionContext
  verifier : CellScriptVerifier
  proof : VerifiedStateTransaction
  verified : (engine.verifyTransaction blake3 tx context verifier).1 = .ok proof

/-- The state the transaction would have left. -/
def Admission.after (a : Admission hashes blake3) : CellStateTree hashes :=
  (a.engine.applyTransaction blake3 a.tx a.context a.verifier).2.state

/-- What the proof says of the call. -/
structure Admission.Backed (a : Admission hashes blake3) : Prop where
  tx : a.proof.tx = a.tx
  before : a.proof.stateRoot = a.engine.state.root.1
  after : a.proof.stateRootAfter = a.after.root.1
  settled : settle blake3 a.context a.verifier a.tx a.engine =
    (some (a.proof.fee, a.proof.cycles), ⟨a.after⟩)

lemma Admission.backed (a : Admission hashes blake3) : a.Backed := by
  obtain ⟨receipt, hreceipt, hproof⟩ := map_eq_ok.mp a.verified
  have hcalled := called blake3 a.engine a.tx a.context a.verifier
  have hafter : (a.engine.applyTransaction blake3 a.tx a.context a.verifier).2 = ⟨a.after⟩ := rfl
  have hsettled : settle blake3 a.context a.verifier a.tx a.engine =
      (paid (a.engine.applyTransaction blake3 a.tx a.context a.verifier).1, ⟨a.after⟩) := rfl
  generalize a.engine.applyTransaction blake3 a.tx a.context a.verifier = result at *
  cases hcalled with
  | refused e _ _ => cases hreceipt
  | applied _ next happly =>
    obtain rfl := Except.ok.inj hreceipt
    obtain ⟨hbefore, hnext⟩ := applyTransaction_roots happly
    have hlast : next.root.2 = a.after := congrArg StateTransitionEngine.state hafter
    refine ⟨by rw [← hproof], ?_, ?_, by rw [hsettled, ← hproof]; rfl⟩
    · rw [← hproof]
      exact hbefore.trans (SameCells.of_root _).root
    · rw [← hproof, ← hlast]
      exact hnext.trans (SameCells.of_root next).root.symm

/-- A call on a pool with the admission behind the proof. -/
inductive PackageCall (hashes : CellHashes F) (blake3 : List UInt8 → Hash) where
  | add (admission : Admission hashes blake3)
  | removePackage (txid : Hash)

/-- The call the pool sees. -/
def PackageCall.call : PackageCall hashes blake3 → PoolCall
  | .add admission => .add admission.proof
  | .removePackage txid => .removePackage txid

/-- The states a call speaks of. -/
def PackageCall.states : PackageCall hashes blake3 → List (CellStateTree hashes)
  | .add admission => [admission.engine.state, admission.after]
  | .removePackage _ => []

/-- Among some states, those with the same root have the same cells. -/
def CollisionFree (states : List (CellStateTree hashes)) : Prop :=
  ∀ s ∈ states, ∀ t ∈ states, s.root.1 = t.root.1 → s.cells = t.cells

/-! ## Roots -/

/-- The proof an entry was made from. -/
def PoolEntry.proof (entry : PoolEntry) : VerifiedStateTransaction :=
  ⟨entry.tx, entry.txid, entry.admittedStateRoot, entry.resultingStateRoot, entry.fee, entry.cycles⟩

/-- Entries were admitted against the base root, or against the result of their parent. -/
structure Rooted (blake3 : List UInt8 → Hash) (base : Hash) (txs : List PoolEntry) : Prop where
  identified : ∀ entry ∈ txs, computeTxid blake3 entry.proof.tx = entry.txid
  root : ∀ entry ∈ txs, entry.dependencies = [] → entry.proof.stateRoot = base
  parent : ∀ entry ∈ txs, ∀ parent ∈ txs, parent.txid ∈ entry.dependencies →
    entry.proof.stateRoot = parent.proof.stateRootAfter
  /-- Whoever arrived earlier and created an input is a parent. -/
  creator : txs.Pairwise fun parent entry =>
    (∃ o ∈ spends entry.proof.tx, o.txHash = parent.txid) → parent.txid ∈ entry.dependencies

lemma Rooted.without (h : Rooted blake3 base inner.txs) (hgone : Without gone inner next) :
    Rooted blake3 base next.txs where
  identified entry hentry := by
    obtain ⟨old, hold, -, rfl⟩ := mem_strip.mp (hgone.txs ▸ hentry)
    exact h.identified old hold
  root entry hentry hnone := by
    obtain ⟨old, hold, -, rfl⟩ := mem_strip.mp (hgone.txs ▸ hentry)
    exact h.root old hold hnone
  parent entry hentry parent hparent hnamed := by
    obtain ⟨old, hold, -, rfl⟩ := mem_strip.mp (hgone.txs ▸ hentry)
    obtain ⟨oldParent, hother, -, rfl⟩ := mem_strip.mp (hgone.txs ▸ hparent)
    exact h.parent old hold oldParent hother hnamed
  creator := by
    rw [hgone.txs, strip, List.pairwise_map]
    exact (h.creator.sublist List.filter_sublist).imp fun hcreator => hcreator

section Add

variable {pool : CellPool} {admitted : VerifiedStateTransaction} {evicted : SortedMap Hash Unit}
  {dependencies : List Hash} {mid : PoolInner}

/-- The root that `add` has compared. -/
lemma Judged.parent_root (h : Judged blake3 pool admitted evicted dependencies)
    (hpool : Consistent pool.inner) {parent : PoolEntry} (hparent : parent ∈ pool.inner.txs)
    (hnamed : parent.txid ∈ dependencies) : admitted.stateRoot = parent.resultingStateRoot := by
  have hroot := h.root
  match dependencies, checkRoot_length h.root, hnamed, hroot with
  | [txid], _, hnamed, hroot =>
    obtain rfl := List.mem_singleton.mp hnamed
    simp only [checkRoot, eq_ok] at hroot
    obtain ⟨entry, hfind, heq⟩ := hroot
    obtain ⟨hentry, hsame⟩ := (find_eq_some hpool.distinct).mp hfind
    rw [heq, eq_of_txid hpool.distinct hentry hparent hsame]

lemma Rooted.add (hmid : Rooted blake3 pool.baseStateRoot mid.txs) (hpool : Consistent pool.inner)
    (hindexed : Indexed inner) (hjudged : Judged blake3 pool admitted evicted dependencies)
    (hgone : Without evicted.keys pool.inner mid)
    (h : Admitted admitted evicted dependencies mid inner) :
    Rooted blake3 pool.baseStateRoot inner.txs where
  identified entry hentry := by
    rcases h.mem_txs.mp hentry with ⟨old, hold, rfl⟩ | rfl
    · exact hmid.identified old hold
    · exact hjudged.identified
  root entry hentry hnone := by
    rcases h.mem_txs.mp hentry with ⟨old, hold, rfl⟩ | rfl
    · exact hmid.root old hold hnone
    · obtain rfl : dependencies = [] := hnone
      show admitted.stateRoot = _
      simpa [checkRoot] using hjudged.root
  parent entry hentry parent hparent hnamed := by
    rcases h.mem_txs.mp hentry with ⟨old, hold, rfl⟩ | rfl
    · rcases h.mem_txs.mp hparent with ⟨other, hother, rfl⟩ | rfl
      · exact hmid.parent old hold other hother hnamed
      · -- nobody names the last entry
        have hordered := hindexed.ordered
        rw [h.txs, List.pairwise_append] at hordered
        exact absurd hnamed (hordered.2.2 _ (List.mem_map_of_mem hold) _ List.mem_cons_self)
    · rcases h.mem_txs.mp hparent with ⟨other, hother, rfl⟩ | rfl
      · obtain ⟨old, hold, -, rfl⟩ := mem_strip.mp (hgone.txs ▸ hother)
        exact @Judged.parent_root _ _ _ _ _ hjudged hpool old hold hnamed
      · exact absurd hnamed (hindexed.irreflexive _ hentry)
  creator := by
    rw [h.txs, List.pairwise_append]
    refine ⟨?_, List.pairwise_singleton _ _, ?_⟩
    · rw [List.pairwise_map]
      exact hmid.creator
    · intro entry hentry last hlast hspends
      obtain ⟨other, hother, rfl⟩ := List.mem_map.mp hentry
      obtain ⟨old, hold, hkept, rfl⟩ := mem_strip.mp (hgone.txs ▸ hother)
      rw [List.mem_singleton.mp hlast] at hspends ⊢
      exact (hjudged.parents _).mpr ⟨hkept, ⟨old, hold, rfl⟩, hspends⟩

end Add

/-- What a run keeps: the books, the roots, and that every entry comes from a call. -/
structure Traced (blake3 : List UInt8 → Hash) (base : Hash) (calls : List PoolCall) (pool : CellPool) :
    Prop where
  kept : Kept pool
  baseRoot : pool.baseStateRoot = base
  rooted : Rooted blake3 base pool.inner.txs
  origin : ∀ entry ∈ pool.inner.txs, PoolCall.add entry.proof ∈ calls

lemma Traced.call {base : Hash} {calls : List PoolCall} {pool next : CellPool}
    (h : Traced blake3 base calls pool) {call : PoolCall} (hok : pool.call blake3 call = .ok next) :
    Traced blake3 base (calls ++ [call]) next := by
  have hkept := h.kept.call hok
  have hconsistent : Consistent pool.inner := h.kept.indexed.toConsistent
  have hrooted := h.baseRoot ▸ h.rooted
  cases call with
  | add admitted =>
    obtain ⟨evicted, dependencies, removed, mid, -, hjudged, -, hgone, hadmitted, hpool⟩ :=
      add_eq_ok hconsistent hok
    refine ⟨hkept, by rw [hpool]; exact h.baseRoot, ?_, fun entry hentry => ?_⟩
    · exact h.baseRoot ▸ (hrooted.without hgone).add hconsistent hkept.indexed hjudged hgone hadmitted
    · rcases hadmitted.mem_txs.mp hentry with ⟨other, hother, rfl⟩ | rfl
      · obtain ⟨old, hold, -, rfl⟩ := mem_strip.mp (hgone.txs ▸ hother)
        exact List.mem_append_left _ (h.origin old hold)
      · exact List.mem_append_right _ List.mem_cons_self
  | removePackage txid =>
    obtain ⟨gone, _, mid, -, hgone, -, rfl⟩ := removePackage_eq_ok hconsistent hok
    refine ⟨hkept, h.baseRoot, h.rooted.without hgone, fun entry hentry => ?_⟩
    obtain ⟨old, hold, -, rfl⟩ := mem_strip.mp (hgone.txs ▸ hentry)
    exact List.mem_append_left _ (h.origin old hold)

lemma traced_run (maxSize : UInt64) (base : Hash) (calls : List PoolCall) :
    Traced blake3 base calls ((CellPool.new maxSize base).run blake3 calls) := by
  induction calls using List.reverseRecOn with
  | nil =>
    exact ⟨kept_new maxSize base, rfl, ⟨nofun, nofun, nofun, .nil⟩, nofun⟩
  | append_singleton calls call ih =>
    rcases run_snoc_cases (CellPool.new maxSize base) calls call with ⟨_, -, hsame⟩ | ⟨next, hok, hnext⟩
    · rw [hsame]
      exact ⟨ih.kept, ih.baseRoot, ih.rooted,
        fun entry hentry => List.mem_append_left _ (ih.origin entry hentry)⟩
    · exact hnext ▸ ih.call hok

/-! ## Lineages in a pool -/

/-- The parent of an entry. -/
def parentOf (txs : List PoolEntry) (entry : PoolEntry) : Option PoolEntry :=
  entry.dependencies.head?.bind (find txs)

section Lineages

lemma parentOf_eq_some (h : Indexed inner) (hentry : entry ∈ inner.txs) :
    parentOf inner.txs entry = some parent ↔
      parent ∈ inner.txs ∧ parent.txid ∈ entry.dependencies := by
  have hsingle := h.single entry hentry
  unfold parentOf
  match entry.dependencies, hsingle with
  | [], _ => simp
  | [txid], _ => simp [find_eq_some h.distinct]

lemma parentOf_eq_none (h : Indexed inner) (hentry : entry ∈ inner.txs)
    (hnone : parentOf inner.txs entry = none) : entry.dependencies = [] := by
  refine List.eq_nil_iff_forall_not_mem.mpr fun txid hnamed => ?_
  obtain ⟨parent, hparent, rfl, -⟩ := h.parents entry hentry txid hnamed
  have hsome := (parentOf_eq_some h hentry).mpr ⟨hparent, hnamed⟩
  rw [hnone] at hsome
  cases hsome

/-- Every entry after the ones it depends on. -/
structure PackageOrder (txs order : List PoolEntry) : Prop where
  perm : order.Perm txs
  respects : order.Pairwise fun entry later => later.txid ∉ entry.dependencies

lemma PackageOrder.parentsFirst (h : PackageOrder inner.txs order) (hindexed : Indexed inner) :
    ParentsFirst (parentOf inner.txs) order := by
  rintro before entry after horder parent hparent
  have hentry : entry ∈ inner.txs := h.perm.mem_iff.mp (by rw [horder]; simp)
  obtain ⟨hmem, hnamed⟩ := (parentOf_eq_some hindexed hentry).mp hparent
  have hplace : parent ∈ before ++ entry :: after := horder ▸ h.perm.mem_iff.mpr hmem
  rcases List.mem_append.mp hplace with hbefore | hrest
  · exact hbefore
  · rcases List.mem_cons.mp hrest with rfl | hafter
    · exact absurd hnamed (hindexed.irreflexive _ hentry)
    · have hlater := h.respects
      rw [horder] at hlater
      have hcons := (List.pairwise_append.mp hlater).2.1
      exact absurd hnamed ((List.pairwise_cons.mp hcons).1 parent hafter)

/-- The order of arrival is one. -/
lemma Indexed.packageOrder (h : Indexed inner) : PackageOrder inner.txs inner.txs :=
  ⟨.refl _, h.ordered⟩

end Lineages

/-! ## Execution -/

/-- The outpoints a transaction creates. -/
def createdPoints (blake3 : List UInt8 → Hash) (tx : CellTx) : List OutPoint :=
  (numberedOutputs tx).map fun output => outputPoint (computeTxid blake3 tx) output.2

lemma mem_footprint :
    o ∈ footprint blake3 tx ↔ o ∈ spends tx ∨ o ∈ createdPoints blake3 tx := List.mem_append

section Execution

variable (admission : PoolEntry → Admission hashes blake3)

/-- Apply an entry as it was verified. -/
def execute (entry : PoolEntry) (engine : StateTransitionEngine hashes) :
    Option (UInt64 × UInt64) × StateTransitionEngine hashes :=
  settle blake3 (admission entry).context (admission entry).verifier entry.tx engine

/-- The cell at an outpoint. -/
def liveCell (engine : StateTransitionEngine hashes) (o : OutPoint) : Option CellEntry :=
  engine.state.cells.get? o

lemma execute_local : Local (execute admission) liveCell
    (fun entry o => o ∈ footprint blake3 entry.tx)
    (fun entry o => (written hashes blake3 (admission entry).context entry.tx).get? o) where
  result entry s t hsame := settle_congr hsame
  next entry s o hsuccess := by
    have hleft := @get?_settle F _ hashes blake3 (admission entry).context (admission entry).verifier
      s entry.tx o
    have hpaid : (settle blake3 (admission entry).context (admission entry).verifier entry.tx s).1 ≠
        none := hsuccess
    simp only [hpaid, ne_eq, not_false_eq_true, true_and] at hleft
    exact hleft

/-- Every entry has an admission of the run behind it. -/
def Sourced (calls : List (PackageCall hashes blake3)) (txs : List PoolEntry) : Prop :=
  ∀ entry ∈ txs, .add (admission entry) ∈ calls ∧ (admission entry).proof = entry.proof

variable {admission} {base : CellStateTree hashes} {calls : List (PackageCall hashes blake3)}

section

variable (hsourced : Sourced admission calls inner.txs)
include hsourced

lemma Sourced.success (hentry : entry ∈ inner.txs) :
    execute admission entry (admission entry).engine =
      (some (entry.fee, entry.cycles), ⟨(admission entry).after⟩) := by
  obtain ⟨-, hproof⟩ := hsourced entry hentry
  obtain ⟨htx, -, -, hsettled⟩ := (admission entry).backed
  have hsame : (admission entry).tx = entry.tx := by rw [← htx, hproof]; rfl
  rw [execute, ← hsame, hsettled, hproof]
  rfl

/-- Entries were verified where their parents left off. -/
lemma Sourced.checked
    (hfree : CollisionFree (base :: calls.flatMap PackageCall.states)) (hindexed : Indexed inner)
    (hrooted : Rooted blake3 base.root.1 inner.txs) (hentry : entry ∈ inner.txs) :
    Checked (execute admission) liveCell (parentOf inner.txs) ⟨base⟩ (fun e => (admission e).engine)
      (fun e => (e.fee, e.cycles)) entry := by
  have hstate : ∀ e ∈ inner.txs, (admission e).engine.state ∈ base :: calls.flatMap PackageCall.states ∧
      (admission e).after ∈ base :: calls.flatMap PackageCall.states := by
    intro e he
    have hcall := (hsourced e he).1
    constructor
    · exact List.mem_cons_of_mem _ (List.mem_flatMap.mpr ⟨_, hcall, List.mem_cons_self⟩)
    · exact List.mem_cons_of_mem _ (List.mem_flatMap.mpr ⟨_, hcall,
        List.mem_cons_of_mem _ List.mem_cons_self⟩)
  have hbefore := (admission entry).backed.before
  rw [(hsourced entry hentry).2] at hbefore
  refine ⟨fun hnone => ?_, fun parent hsome => ?_, by rw [hsourced.success hentry]⟩
  · have hroot := hrooted.root entry hentry (parentOf_eq_none hindexed hentry hnone)
    have hcells := hfree _ (hstate entry hentry).1 base List.mem_cons_self (hbefore.symm.trans hroot)
    funext o
    rw [liveCell, liveCell, hcells]
  · obtain ⟨hparent, hnamed⟩ := (parentOf_eq_some hindexed hentry).mp hsome
    have hroot := hrooted.parent entry hentry parent hparent hnamed
    have hafter := (admission parent).backed.after
    rw [(hsourced parent hparent).2] at hafter
    have hcells := hfree _ (hstate entry hentry).1 _ (hstate parent hparent).2
      ((hbefore.symm.trans hroot).trans hafter)
    funext o
    rw [hsourced.success hparent, liveCell, liveCell, hcells]

/-- An entry that spends an outpoint found it live; one that creates it found nothing there. -/
lemma Sourced.found (hentry : entry ∈ inner.txs) :
    (o ∈ spends entry.tx → liveCell (admission entry).engine o ≠ none) ∧
    (o ∈ createdPoints blake3 entry.tx → liveCell (admission entry).engine o = none) := by
  have hsuccess : (execute admission entry (admission entry).engine).1 ≠ none := by
    rw [hsourced.success hentry]
    exact Option.some_ne_none _
  rcases settle_cases (admission entry).engine entry.tx with
    ⟨hnone, -⟩ | ⟨next, resolved, created, happlied, -, -⟩
  · exact absurd hnone hsuccess
  have hbefore : (admission entry).engine.state.root.2.cells = (admission entry).engine.state.cells :=
    (SameCells.of_root _).cells
  constructor
  · intro ho
    have hresolved : o ∈ resolved.map (·.outpoint) := happlied.inputs ▸ ho
    obtain ⟨input, hinput, rfl⟩ := List.mem_map.mp hresolved
    have hlive := happlied.live input hinput
    rw [liveCell, ← hbefore, hlive]
    exact Option.some_ne_none _
  · intro ho
    obtain ⟨output, houtput, rfl⟩ := List.mem_map.mp ho
    have hcreated := happlied.fresh _ (happlied.outputs ▸ List.mem_map_of_mem houtput)
    rw [liveCell, ← hbefore]
    exact hcreated

end

/-- No outpoint has two spenders. -/
lemma Consistent.spender_unique (h : Consistent inner) (hentry : entry ∈ inner.txs)
    (hother : other ∈ inner.txs) (ho : o ∈ spends entry.tx) (hsame : o ∈ spends other.tx) :
    entry = other := by
  have hspender := (h.spent o _).mpr ⟨entry, hentry, rfl, ho⟩
  have hagain := (h.spent o _).mpr ⟨other, hother, rfl, hsame⟩
  exact eq_of_txid h.distinct hentry hother (Option.some.inj (hspender.symm.trans hagain))

/-- … nor two creators. -/
lemma Rooted.creator_unique {root : Hash} (h : Rooted blake3 root inner.txs)
    (hindexed : Indexed inner) (hentry : entry ∈ inner.txs) (hother : other ∈ inner.txs)
    (ho : o ∈ createdPoints blake3 entry.tx) (hsame : o ∈ createdPoints blake3 other.tx) :
    entry = other := by
  have hhash : ∀ e ∈ inner.txs, o ∈ createdPoints blake3 e.tx → o.txHash = e.txid := by
    intro e he hcreates
    obtain ⟨output, -, rfl⟩ := List.mem_map.mp hcreates
    exact h.identified e he
  exact eq_of_txid hindexed.distinct hentry hother
    ((hhash entry hentry ho).symm.trans (hhash other hother hsame))

section Related

variable (hsourced : Sourced admission calls inner.txs)
  (hfree : CollisionFree (base :: calls.flatMap PackageCall.states)) (hindexed : Indexed inner)
  (hrooted : Rooted blake3 base.root.1 inner.txs)

include hsourced hfree hindexed hrooted

/-- Whoever spends an outpoint and whoever creates it are related. -/
lemma Sourced.related_creator (hspender : spender ∈ inner.txs) (hcreator : creator ∈ inner.txs)
    (ho : o ∈ spends spender.tx) (hcreates : o ∈ createdPoints blake3 creator.tx) :
    Ancestor (parentOf inner.txs) creator spender ∨ Ancestor (parentOf inner.txs) spender creator := by
  have hfirst := hindexed.packageOrder.parentsFirst hindexed
  have hnodup : inner.txs.Nodup := hindexed.distinct.of_map _
  obtain ⟨before, after, htxs⟩ := List.append_of_mem hspender
  have hplace : creator ∈ before ++ spender :: after := htxs ▸ hcreator
  -- what an entry was verified on, if neither of the two is among its ancestors
  have huntouched : ∀ entry ∈ inner.txs, ∀ chain, Lineage (parentOf inner.txs) entry chain →
      (∀ i ∈ chain, i ∈ inner.txs ∧ i ≠ spender ∧ i ≠ creator) →
      liveCell (admission entry).engine o = liveCell ⟨base⟩ o := by
    intro entry hentry chain hchain hothers
    have hchecked : ∀ i ∈ inner.txs, Checked (execute admission) liveCell (parentOf inner.txs) ⟨base⟩
        (fun e => (admission e).engine) (fun e => (e.fee, e.cycles)) i :=
      fun i hi => hsourced.checked hfree hindexed hrooted hi
    have hpre := Checked.read_pre (execute_local admission) hchecked
      (fun i hi p hsome => ((parentOf_eq_some hindexed hi).mp hsome).1) hchain hentry o
    refine hpre.trans (overlay_untouched (fun i hi htouch => ?_) _)
    obtain ⟨hmem, hspends, hmakes⟩ := hothers i hi
    rcases mem_footprint.mp htouch with hconsumed | hcreated
    · exact hspends (hindexed.spender_unique hmem hspender hconsumed ho)
    · exact hmakes (hrooted.creator_unique hindexed hmem hcreator hcreated hcreates)
  rcases List.mem_append.mp hplace with hearlier | hrest
  · -- the creator was there first, so it is the parent
    left
    have hhash : o.txHash = creator.txid := by
      obtain ⟨output, -, rfl⟩ := List.mem_map.mp hcreates
      exact hrooted.identified creator hcreator
    have hpairs := hrooted.creator
    rw [htxs] at hpairs
    have hnamed := (List.pairwise_append.mp hpairs).2.2 creator hearlier spender List.mem_cons_self
      ⟨o, ho, hhash⟩
    obtain ⟨first, last, hsplit⟩ := List.append_of_mem hcreator
    obtain ⟨chain, hchain, -⟩ := hfirst.lineage hsplit
    exact ⟨chain ++ [creator], .child ((parentOf_eq_some hindexed hspender).mpr ⟨hcreator, hnamed⟩)
      hchain, by simp⟩
  · right
    have hne : creator ≠ spender := by
      rintro rfl
      exact (hsourced.found hspender).1 ho ((hsourced.found hspender).2 hcreates)
    have hlater : creator ∈ after := (List.mem_cons.mp hrest).resolve_left hne
    rw [htxs] at hnodup
    obtain ⟨-, hback, hapart⟩ := List.nodup_append.mp hnodup
    -- the spender found the outpoint live, and no ancestor of it had touched it
    have hlive : liveCell ⟨base⟩ o ≠ none := by
      obtain ⟨chain, hchain, hsub⟩ := hfirst.lineage htxs
      rw [← huntouched spender hspender chain hchain fun i hi => ?_]
      · exact (hsourced.found hspender).1 ho
      · have hi := hsub.subset hi
        refine ⟨by rw [htxs]; exact List.mem_append_left _ hi, ?_, ?_⟩
        · exact hapart i hi spender List.mem_cons_self
        · exact hapart i hi creator (List.mem_cons_of_mem _ hlater)
    -- the creator found nothing there
    obtain ⟨first, last, hsplit⟩ := List.append_of_mem hcreator
    obtain ⟨chain, hchain, hsub⟩ := hfirst.lineage hsplit
    by_contra hunrelated
    have hcreatorFresh : creator ∉ first := by
      intro hmem
      rw [← htxs, hsplit] at hnodup
      exact (List.nodup_append.mp hnodup).2.2 creator hmem creator List.mem_cons_self rfl
    have hgone := huntouched creator hcreator chain hchain fun i hi =>
      ⟨by rw [hsplit]; exact List.mem_append_left _ (hsub.subset hi),
        fun heq => hunrelated ⟨chain, hchain, heq ▸ hi⟩,
        fun heq => hcreatorFresh (heq ▸ hsub.subset hi)⟩
    exact hlive (hgone.symm.trans ((hsourced.found hcreator).2 hcreates))

/-- **Entries that touch one outpoint are related.** -/
theorem Sourced.related (hentry : entry ∈ inner.txs) (hother : other ∈ inner.txs)
    (hne : entry ≠ other) (ho : o ∈ footprint blake3 entry.tx)
    (hsame : o ∈ footprint blake3 other.tx) :
    Ancestor (parentOf inner.txs) entry other ∨ Ancestor (parentOf inner.txs) other entry := by
  rcases mem_footprint.mp ho with hspends | hcreates <;>
    rcases mem_footprint.mp hsame with hother_spends | hother_creates
  · exact absurd (hindexed.spender_unique hentry hother hspends hother_spends) hne
  · exact (hsourced.related_creator hfree hindexed hrooted hentry hother hspends hother_creates).symm
  · exact hsourced.related_creator hfree hindexed hrooted hother hentry hother_spends hcreates
  · exact absurd (hrooted.creator_unique hindexed hentry hother hcreates hother_creates) hne

end Related

/-- **Package executability**: in every pool that calls make of an empty one over a base state, no
    outpoint is spent by two entries, every entry has an admission of the run behind it, and the
    entries succeed on the base state in every order that puts each after the ones it depends on, as
    they were verified, with the fee and cycles the entry has. -/
theorem packages_executable (maxSize : UInt64) (base : CellStateTree hashes)
    (calls : List (PackageCall hashes blake3))
    (hfree : CollisionFree (base :: calls.flatMap PackageCall.states)) :
    let txs := ((CellPool.new maxSize base.root.1).run blake3 (calls.map PackageCall.call)).inner.txs
    (∀ entry ∈ txs, ∀ other ∈ txs, ∀ o ∈ spends entry.tx, o ∈ spends other.tx → entry = other) ∧
    (∀ entry ∈ txs, ∃ admission, .add admission ∈ calls ∧ admission.proof = entry.proof) ∧
    ∀ admission : PoolEntry → Admission hashes blake3, Sourced admission calls txs →
      ∀ order, PackageOrder txs order → (runAll (execute admission) order ⟨base⟩).1 =
          order.map fun entry => (entry, some (entry.fee, entry.cycles)) := by
  intro txs
  have htraced := @traced_run blake3 maxSize base.root.1 (calls.map PackageCall.call)
  have hindexed := htraced.kept.indexed
  refine ⟨?_, fun entry hentry => ?_, fun admission hsourced order horder => ?_⟩
  · intro entry hentry other hother o ho hsame
    exact hindexed.spender_unique hentry hother ho hsame
  · obtain ⟨call, hcall, heq⟩ := List.mem_map.mp (htraced.origin entry hentry)
    cases call with
    | add admission => exact ⟨admission, hcall, PoolCall.add.inj heq⟩
    | removePackage txid => cases heq
  · have hmem : ∀ entry ∈ order, entry ∈ txs := fun entry => horder.perm.mem_iff.mp
    refine (execute_local admission).runAll_checked
      (fun entry hentry => hsourced.checked hfree hindexed htraced.rooted (hmem entry hentry)) ?_
      (horder.parentsFirst hindexed) fun entry hentry other hother hne o ho hsame => ?_
    · exact horder.perm.nodup_iff.mpr (hindexed.distinct.of_map _)
    · exact hsourced.related hfree hindexed htraced.rooted (hmem entry hentry) (hmem other hother) hne
        ho hsame

end Execution

/-! ### A parent and its child -/

/-- Hash functions that tell some states apart: a root is the sum of the first bytes of the live
    cells' transaction ids. -/
def tagHashes : CellHashes (Multiplicative ℤ) where
  ckbBlake2b256 _ := fill 32 0
  merkleBranchHash bytes := fill 32 (bytes.getD 16 0)
  dataToElement bytes := .ofAdd (bytes.getD 0 0).toNat
  muHashFinalize f := fill 32 (UInt8.ofNat f.toAdd.toNat)

/-- One live cell of capacity 1000. -/
def familyBase : CellStateTree tagHashes :=
  CellStateTree.new.insert (externalCell 0)
    (CellEntry.fromOutput tagHashes (plainOutput 1000) [] 0 false)

/-- Spend one cell to one output. -/
def passOn (version : UInt32) (o : OutPoint) (capacity : UInt64) : CellTx :=
  ⟨version, [⟨o, 0⟩], [], [], [plainOutput capacity], [[]], []⟩

/-- The parent spends the cell, … -/
def familyParent : Admission tagHashes versionHash :=
  ⟨⟨familyBase⟩, passOn 1 (externalCell 0) 900, ⟨0, false⟩, fun _ _ => .ok 5,
    ⟨passOn 1 (externalCell 0) 900, fill 32 1, fill 32 9, fill 32 1, 100, 5⟩, by decide +kernel⟩

/-- … and the child what the parent has created. -/
def familyChild : Admission tagHashes versionHash :=
  ⟨⟨familyParent.after⟩, passOn 2 ⟨fill 32 1, 0⟩ 700, ⟨0, false⟩, fun _ _ => .ok 6,
    ⟨passOn 2 ⟨fill 32 1, 0⟩ 700, fill 32 2, fill 32 1, fill 32 2, 200, 6⟩, by decide +kernel⟩

theorem packages_executable_family :
    let calls := [.add familyParent, .add familyChild]
    let txs := ((CellPool.new 10 familyBase.root.1).run versionHash
      (calls.map PackageCall.call)).inner.txs
    let admission := fun entry : PoolEntry =>
      if entry.txid = fill 32 1 then familyParent else familyChild
    CollisionFree (familyBase :: calls.flatMap PackageCall.states) ∧
    txs.map (fun entry => (entry.dependencies, entry.fee)) = [([], 100), ([fill 32 1], 200)] ∧
    (runAll (execute admission) txs ⟨familyBase⟩).1 =
      txs.map fun entry => (entry, some (entry.fee, entry.cycles)) := by
  intro calls txs admission
  have hfree : CollisionFree (familyBase :: calls.flatMap PackageCall.states) := by
    unfold CollisionFree
    decide +kernel
  have hproofs : txs.map (·.proof) = [familyParent.proof, familyChild.proof] := by decide +kernel
  have hsourced : Sourced admission calls txs := by
    intro entry hentry
    have hmem : entry.proof ∈ [familyParent.proof, familyChild.proof] :=
      hproofs ▸ List.mem_map_of_mem hentry
    have hid : entry.txid = entry.proof.txid := rfl
    have hne : familyChild.proof.txid ≠ fill 32 1 := by decide
    rcases List.mem_pair.mp hmem with hparent | hchild
    · simp [admission, hid, calls, hparent, familyParent]
    · simp [admission, hid, hne, calls, hchild]
  have horder : PackageOrder txs txs := ⟨.refl _, by decide +kernel⟩
  exact ⟨hfree, by decide +kernel,
    (packages_executable 10 familyBase calls hfree).2.2 admission hsourced txs horder⟩

end Myelin.Mempool
