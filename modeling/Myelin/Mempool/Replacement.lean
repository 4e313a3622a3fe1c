/-
  Replacement: what an admission takes out of the pool, and what it pays for that.

  `descendants_including` follows the children that entries list; in a pool between calls that is
  the relation "names as a parent" the other way round (`mem_children_iff_dependsOn`), so what is
  evicted is the conflicting entries and everything that descends from them (`mem_evicted_iff`).
  Both sums of `validate_replacement` are checked, so what it compares are the exact totals.
-/
import Myelin.Mempool.Bookkeeping

namespace Myelin.Mempool

open Lib Exec State
open FixedBytes (fill)

/-- The id of an entry that spends an input of the transaction, or descends from such an entry. -/
def Replaced (txs : List PoolEntry) (tx : CellTx) (txid : Hash) : Prop :=
  ∃ entry ∈ txs, (∃ o ∈ spends tx, o ∈ spends entry.tx) ∧
    Relation.ReflTransGen (fun parent child => DependsOn txs child parent) entry.txid txid

/-- An entry up to its children. -/
def PoolEntry.childless (entry : PoolEntry) : PoolEntry := { entry with dependents := [] }

variable {blake3 : List UInt8 → Hash} {pool : CellPool} {admitted : VerifiedStateTransaction}
  {evicted : SortedMap Hash Unit} {dependencies : List Hash}

/-! ## What is evicted -/

lemma mem_children_iff_dependsOn {inner : PoolInner} (h : Indexed inner) :
    child ∈ children inner.txs parent ↔ DependsOn inner.txs child parent := by
  rw [mem_children_iff h.toConsistent]
  constructor
  · rintro ⟨entry, hentry, rfl, hlisted⟩
    exact h.children entry hentry child hlisted
  · rintro ⟨entry, hentry, rfl, hnamed⟩
    exact h.parents entry hentry parent hnamed

/-- What is evicted: the conflicting entries and all that descends from them. -/
lemma mem_evicted_iff (h : Indexed pool.inner)
    (hjudge : judge blake3 pool admitted = .ok (evicted, dependencies)) :
    txid ∈ evicted.keys ↔ Replaced pool.inner.txs admitted.tx txid := by
  have hjudged := judge_eq_ok h.toConsistent hjudge
  constructor
  · simp only [judge, eq_ok, Prod.mk.injEq] at hjudge
    obtain ⟨-, -, -, -, -, -, rfl, -⟩ := hjudge
    refine Worklist.closure_induction (fun id hid => ?_) (fun id hid child hchild => ?_) txid
    · rw [SortedMap.mem_keys_ofKeys, List.mem_filterMap] at hid
      obtain ⟨o, ho, hspent⟩ := hid
      obtain ⟨entry, hentry, rfl, hspends⟩ := (h.spent o id).mp hspent
      exact ⟨entry, hentry, ⟨o, ho, hspends⟩, .refl⟩
    · obtain ⟨entry, hentry, hconflict, hpath⟩ := hid
      exact ⟨entry, hentry, hconflict, hpath.tail ((mem_children_iff_dependsOn h).mp hchild)⟩
  · rintro ⟨entry, hentry, ⟨o, ho, hspends⟩, hpath⟩
    induction hpath with
    | refl => exact hjudged.conflicts entry hentry o ho hspends
    | tail _ hnamed ih =>
      obtain ⟨child, hchild, rfl, hparent⟩ := hnamed
      obtain ⟨parent, hmem, rfl, hlisted⟩ := h.parents child hchild _ hparent
      exact hjudged.closed parent hmem ih child.txid hlisted

/-! ## What is paid -/

/-- The totals are the sums over the entries found. -/
lemma replacedTotals_eq_ok (h : replacedTotals txs gone = .ok (fee, size)) :
    fee = ((gone.filterMap (find txs)).map (·.fee.toNat)).sum ∧
      size = ((gone.filterMap (find txs)).map fun e => effectiveSize e.tx e.cycles).sum := by
  induction gone using List.reverseRecOn generalizing fee size with
  | nil =>
    simp only [replacedTotals, List.foldlM_nil, pure_eq_ok, Prod.mk.injEq] at h
    exact ⟨h.1.symm, h.2.symm⟩
  | append_singleton gone txid ih =>
    simp only [replacedTotals, List.foldlM_append, List.foldlM_cons, List.foldlM_nil, eq_ok,
      Prod.exists, Prod.mk.injEq] at h
    obtain ⟨fee, size, hgone, _, _, ⟨entry, hfind, -, -, rfl, rfl⟩, rfl, rfl⟩ := h
    obtain ⟨rfl, rfl⟩ := ih hgone
    simp [List.filterMap_append, hfind]

/-- The entries found under distinct ids are those that have one of these ids. -/
lemma filterMap_find_perm {txs : List PoolEntry} (hdistinct : (txs.map (·.txid)).Nodup)
    {gone : List Hash} (hgone : gone.Nodup) :
    (gone.filterMap (find txs)).Perm (txs.filter (·.txid ∈ gone)) := by
  refine (List.perm_ext_iff_of_nodup ?_ (hdistinct.of_map.filter _)).mpr fun entry => ?_
  · refine hgone.filterMap fun a b entry ha hb => ?_
    exact ((find_eq_some hdistinct).mp ha).2.symm.trans ((find_eq_some hdistinct).mp hb).2
  · simp only [List.mem_filterMap, find_eq_some hdistinct, List.mem_filter, decide_eq_true_eq]
    constructor
    · rintro ⟨_, hid, hentry, rfl⟩
      exact ⟨hentry, hid⟩
    · rintro ⟨hentry, hid⟩
      exact ⟨_, hid, hentry, rfl⟩

/-- A replacement pays more than what it evicts. -/
lemma evicted_paid (h : Consistent pool.inner)
    (hjudge : judge blake3 pool admitted = .ok (evicted, dependencies)) :
    let removed := pool.inner.txs.filter (·.txid ∈ evicted.keys)
    removed ≠ [] → (removed.map (·.fee.toNat)).sum < admitted.fee.toNat ∧
      (removed.map (·.fee.toNat)).sum * effectiveSize admitted.tx admitted.cycles <
        admitted.fee.toNat * (removed.map fun e => effectiveSize e.tx e.cycles).sum := by
  intro removed hremoved
  obtain ⟨entry, hentry⟩ := List.exists_mem_of_ne_nil _ hremoved
  have hkeys : evicted.len ≠ 0 := by
    have hid : entry.txid ∈ evicted.keys := by simpa using (List.mem_filter.mp hentry).2
    intro hnone
    rw [SortedMap.keys, List.eq_nil_of_length_eq_zero hnone] at hid
    exact List.not_mem_nil hid
  simp only [judge, eq_ok, Prod.mk.injEq] at hjudge
  obtain ⟨-, -, -, -, hpaid, -, heq, -⟩ := hjudge
  rw [heq, checkReplacement, if_pos hkeys] at hpaid
  simp only [validateReplacement, eq_ok, Prod.exists] at hpaid
  obtain ⟨fee, size, htotals, hmore, hdenser⟩ := hpaid
  obtain ⟨rfl, rfl⟩ := replacedTotals_eq_ok htotals
  have hperm := filterMap_find_perm h.distinct evicted.nodup_keys
  have hsum : ∀ f : PoolEntry → Nat,
      ((evicted.keys.filterMap (find pool.inner.txs)).map f).sum = (removed.map f).sum :=
    fun f => (hperm.map f).sum_eq
  rw [hsum] at hmore
  rw [hsum, hsum] at hdenser
  exact ⟨hmore, hdenser⟩

/-! ## The whole call -/

/-- An admission changes no other entry but in its children. -/
lemma Admitted.map_childless (hgone : Without evicted.keys pool.inner mid)
    (h : Admitted admitted evicted dependencies mid next) :
    next.txs.map (·.childless) = (pool.inner.txs.filter (·.txid ∉ evicted.keys)).map (·.childless) ++
      [entryOf admitted dependencies] := by
  rw [h.txs, hgone.txs, strip, List.map_append, List.map_map, List.map_map]
  rfl

/-- Whatever exit a failing `add` takes, the guarded pool is as it was.  One that succeeds takes out
    exactly the conflicting entries with all their descendants, keeps every other entry up to its
    children, and pays more than what it takes out, in total and per byte. -/
theorem replacement_atomic (blake3 : List UInt8 → Hash) (maxSize : UInt64) (root : Hash)
    (calls : List PoolCall) (admitted : VerifiedStateTransaction) :
    let pool := (CellPool.new maxSize root).run blake3 calls
    let after := (add blake3 admitted pool).2
    (∀ fault, (add blake3 admitted pool).1 = .error fault → after = pool) ∧
    ∀ txid, (add blake3 admitted pool).1 = .ok txid →
      ∃ (gone : List Hash) (dependencies : List Hash),
        (∀ id, id ∈ gone ↔ Replaced pool.inner.txs admitted.tx id) ∧
        after.inner.txs.map (·.childless) =
          (pool.inner.txs.filter (·.txid ∉ gone)).map (·.childless) ++
            [entryOf admitted dependencies] ∧
        let removed := pool.inner.txs.filter (·.txid ∈ gone)
        removed ≠ [] → (removed.map (·.fee.toNat)).sum < admitted.fee.toNat ∧
          (removed.map (·.fee.toNat)).sum * effectiveSize admitted.tx admitted.cycles <
            admitted.fee.toNat * (removed.map fun e => effectiveSize e.tx e.cycles).sum := by
  intro pool after
  have hexec : (PoolCall.add admitted).exec blake3 pool =
      ((add blake3 admitted pool).1.map fun _ => (), after) := rfl
  refine ⟨fun fault hfault => ?_, fun txid hadd => ?_⟩
  · have hfailed : ((PoolCall.add admitted).exec blake3 pool).1 = .error fault := by
      rw [hexec, hfault]
      rfl
    exact PoolCall.exec_error hfailed
  · have hcall : pool.call blake3 (.add admitted) = .ok after := by
      rw [CellPool.call, hexec, hadd]
      rfl
    have hindexed : Indexed pool.inner := (kept_run maxSize root calls).indexed
    obtain ⟨evicted, dependencies, _, mid, hjudge, -, -, hgone, hadmitted, -⟩ :=
      add_eq_ok hindexed.toConsistent hcall
    exact ⟨evicted.keys, dependencies, fun _ => mem_evicted_iff hindexed hjudge,
      hadmitted.map_childless hgone, evicted_paid hindexed.toConsistent hjudge⟩

/-- A transaction that spends one cell, verified against some root. -/
def spending (n : UInt32) (point : OutPoint) (root : UInt8) (fee : UInt64) : VerifiedStateTransaction :=
  let tx := touching n [point] []
  ⟨tx, computeTxid versionHash tx, fill 32 root, fill 32 (root + 1), fee, 1⟩

/-- A parent with its child, and a bystander. -/
def familyCalls : List PoolCall :=
  [.add (spending 1 (externalCell 0) 0 10), .add (spending 2 ⟨fill 32 1, 0⟩ 1 5),
    .add (spending 3 (externalCell 1) 0 1)]

/-- A rival of the parent that pays as much as the family is refused, and one that pays more takes
    the place of both. -/
theorem replacement_atomic_rival :
    let pool := (CellPool.new 10 (fill 32 0)).run versionHash familyCalls
    let rival := spending 4 (externalCell 0) 0
    pool.inner.txs.map (·.fee) = [10, 5, 1] ∧ (add versionHash (rival 15) pool).2 = pool ∧
      (add versionHash (rival 16) pool).1 = .ok (fill 32 4) ∧
      (add versionHash (rival 16) pool).2.inner.txs.map (·.fee) = [1, 16] := by
  intro pool rival
  refine ⟨by decide +kernel, ?_, by decide +kernel, by decide +kernel⟩
  exact (replacement_atomic versionHash 10 (fill 32 0) familyCalls (rival 15)).1
    (.refused (.rbfFailed "replacement fee 15 must exceed evicted package fee 15")) (by decide +kernel)

end Myelin.Mempool
