/-
  The pool's books: what its three structures say of each other in every run.

  Taking a set of entries out leaves the others as they were, without the ids of that set among their
  children and without its outpoints (`Without`).  This needs no order of removal.  If the set contains
  the children of its members, as `descendants_including` makes it, then also every parent that an
  entry names is still there (`Indexed.without`).

  The totals are words.  `total_fee` is added with saturation and subtracted plainly, so it is the sum
  of the fees only as long as that sum fits (`Room`); what is subtracted from a saturated total later
  is too much.
-/
import Myelin.Exec.Plans
import Myelin.Mempool.Pool
import Myelin.State.Conservation

namespace Myelin.Mempool

open Lib Exec State Function

variable {txs : List PoolEntry} {gone txids : List Hash} {inner mid : PoolInner}
  {removed : List CellTx} {evicted : SortedMap Hash Unit} {tx : CellTx} {pool : CellPool}
  {blake3 : List UInt8 → Hash} {f : PoolEntry → Nat} {stats : PoolStats}
  {verdict : SortedMap Hash Unit × List Hash}

/-! ## Entries by id -/

section Entries

variable {txid : Hash} {entry : PoolEntry}

lemma find_eq_some (hdistinct : (txs.map (·.txid)).Nodup) :
    find txs txid = some entry ↔ entry ∈ txs ∧ entry.txid = txid := by
  refine ⟨fun h => mem_of_find?_key h, ?_⟩
  rintro ⟨hmem, rfl⟩
  exact find?_key_of_mem hdistinct hmem

lemma find_eq_none : find txs txid = none ↔ ∀ entry ∈ txs, entry.txid ≠ txid := by
  simp [find, List.find?_eq_none]

lemma eq_of_txid (hdistinct : (txs.map (·.txid)).Nodup) (hentry : entry ∈ txs)
    (hother : other ∈ txs) (h : entry.txid = other.txid) : entry = other :=
  List.inj_on_of_nodup_map hdistinct hentry hother h

/-- Changing the entries under at most one id. -/
lemma foldl_change {ids : List Hash} (hids : ids.length ≤ 1) (f : PoolEntry → PoolEntry) :
    ids.foldl (fun txs id => change id f txs) txs =
      txs.map fun entry => if entry.txid ∈ ids then f entry else entry := by
  match ids, hids with
  | [], _ => simp
  | [id], _ => simp [change]

end Entries

/-! ## Taking entries out -/

/-- An entry without some children. -/
def PoolEntry.orphan (gone : List Hash) (entry : PoolEntry) : PoolEntry :=
  { entry with dependents := entry.dependents.filter (· ∉ gone) }

/-- The other entries, without the children that are gone. -/
def strip (gone : List Hash) (txs : List PoolEntry) : List PoolEntry :=
  (txs.filter (·.txid ∉ gone)).map (·.orphan gone)

lemma strip_singleton (txid : Hash) (txs : List PoolEntry) :
    strip [txid] txs = (txs.filter (·.txid ≠ txid)).map (·.orphan [txid]) :=
  congrArg (List.map _) (List.filter_congr fun entry _ => by simp)

lemma mem_strip :
    entry ∈ strip gone txs ↔ ∃ old ∈ txs, old.txid ∉ gone ∧ old.orphan gone = entry := by
  simp [strip, and_assoc]

lemma PoolEntry.orphan_orphan (first second : List Hash) (entry : PoolEntry) :
    (entry.orphan first).orphan second = entry.orphan (first ++ second) := by
  have hchildren : (entry.dependents.filter (· ∉ first)).filter (· ∉ second) =
      entry.dependents.filter (· ∉ first ++ second) := by
    rw [List.filter_filter]
    exact List.filter_congr fun txid _ => by simp [Bool.and_comm]
  simp only [PoolEntry.orphan, hchildren]

lemma PoolEntry.orphan_of_not_mem {entry : PoolEntry} {txid : Hash} (h : txid ∉ entry.dependents) :
    entry.orphan [txid] = entry := by
  have hchildren : entry.dependents.filter (· ∉ [txid]) = entry.dependents :=
    List.filter_eq_self.mpr fun child hchild => by simpa using fun heq : child = txid => h (heq ▸ hchild)
  rw [PoolEntry.orphan, hchildren]

lemma strip_strip (first second : List Hash) (txs : List PoolEntry) :
    strip second (strip first txs) = strip (first ++ second) txs := by
  have hfilter : txs.filter (fun entry => entry.txid ∉ first ++ second) =
      (txs.filter (·.txid ∉ first)).filter (·.txid ∉ second) := by
    rw [List.filter_filter]
    exact List.filter_congr fun entry _ => by simp [Bool.and_comm]
  rw [strip, strip, strip, hfilter, List.filter_map, List.map_map]
  exact List.map_congr_left fun entry _ => entry.orphan_orphan first second

/-- Only some entries are gone, and every trace of them. -/
structure Without (gone : List Hash) (inner next : PoolInner) : Prop where
  txs : next.txs = strip gone inner.txs
  spent : ∀ o, next.spentOutputs.get? o = (inner.spentOutputs.get? o).filter (· ∉ gone)

/-- What holds of the books at every moment, also while a package is taken apart. -/
structure Consistent (inner : PoolInner) : Prop where
  distinct : (inner.txs.map (·.txid)).Nodup
  /-- The spender of an outpoint is the entry that has it as an input. -/
  spent : ∀ o txid, inner.spentOutputs.get? o = some txid ↔
    ∃ entry ∈ inner.txs, entry.txid = txid ∧ o ∈ spends entry.tx
  /-- A child is an entry, and names its parent. -/
  children : ∀ parent ∈ inner.txs, ∀ txid ∈ parent.dependents,
    ∃ entry ∈ inner.txs, entry.txid = txid ∧ parent.txid ∈ entry.dependencies
  single : ∀ entry ∈ inner.txs, entry.dependencies.length ≤ 1

section Removal

variable {next : PoolInner} {first second : List Hash} {txid : Hash}

lemma Without.trans (h : Without first inner mid) (k : Without second mid next) :
    Without (first ++ second) inner next where
  txs := by rw [k.txs, h.txs, strip_strip]
  spent o := by
    rw [k.spent, h.spent]
    cases inner.spentOutputs.get? o with
    | none => rfl
    | some spender => by_cases hmem : spender ∈ first <;> simp [Option.filter, hmem]

/-- Books stay in order when entries are taken out. -/
lemma Consistent.without (h : Consistent inner) (hgone : Without gone inner next) :
    Consistent next where
  distinct := by
    rw [hgone.txs, strip, List.map_map]
    exact h.distinct.sublist (List.filter_sublist.map _)
  spent o spender := by
    rw [hgone.spent, hgone.txs, Option.filter_eq_some_iff, h.spent]
    constructor
    · rintro ⟨⟨entry, hmem, rfl, ho⟩, hkept⟩
      exact ⟨_, mem_strip.mpr ⟨entry, hmem, by simpa using hkept, rfl⟩, rfl, ho⟩
    · rintro ⟨_, hmem, rfl, ho⟩
      obtain ⟨entry, hentry, hkept, rfl⟩ := mem_strip.mp hmem
      exact ⟨⟨entry, hentry, rfl, ho⟩, decide_eq_true hkept⟩
  children parent hparent child hchild := by
    rw [hgone.txs] at hparent ⊢
    obtain ⟨old, hold, hkept, rfl⟩ := mem_strip.mp hparent
    obtain ⟨hlisted, hpresent⟩ := List.mem_filter.mp hchild
    obtain ⟨entry, hentry, rfl, hnamed⟩ := h.children old hold child hlisted
    exact ⟨_, mem_strip.mpr ⟨entry, hentry, by simpa using hpresent, rfl⟩, rfl, hnamed⟩
  single entry hentry := by
    rw [hgone.txs] at hentry
    obtain ⟨old, hold, -, rfl⟩ := mem_strip.mp hentry
    exact h.single old hold

/-- Erasing the outpoints of one spender. -/
lemma get?_foldl_release (points : List OutPoint) (spent : SortedMap OutPoint Hash) (o : OutPoint) :
    (points.foldl (fun spent outpoint =>
      if spent.get? outpoint = some txid then spent.erase outpoint else spent) spent).get? o =
      if o ∈ points ∧ spent.get? o = some txid then none else spent.get? o := by
  induction points generalizing spent with
  | nil => simp
  | cons point points ih =>
    rw [List.foldl_cons, ih]
    by_cases hpoint : spent.get? point = some txid
    · rw [if_pos hpoint, SortedMap.get?_erase]
      by_cases ho : o = point <;> simp [ho, hpoint]
    · rw [if_neg hpoint]
      by_cases ho : o = point <;> simp [ho, hpoint]

/-- **Taking one entry out** leaves no trace of it. -/
theorem removeOne_without (h : Consistent inner) {removed : Option CellTx}
    (hok : removeOne inner txid = .ok (removed, next)) : Without [txid] inner next := by
  unfold removeOne at hok
  split at hok
  · -- nothing to remove: nobody has a child or an outpoint of that id
    next hnone =>
    obtain ⟨-, rfl⟩ := Prod.mk.inj (Except.ok.inj hok)
    have habsent : ∀ entry ∈ inner.txs, entry.txid ≠ txid := find_eq_none.mp hnone
    refine ⟨?_, fun o => ?_⟩
    · have hkept : inner.txs.filter (·.txid ≠ txid) = inner.txs :=
        List.filter_eq_self.mpr fun entry hentry => by simpa using habsent entry hentry
      have hsame : inner.txs.map (·.orphan [txid]) = inner.txs.map id := by
        refine List.map_congr_left fun entry hentry => ?_
        refine PoolEntry.orphan_of_not_mem fun hchild => ?_
        obtain ⟨child, hmem, heq, -⟩ := h.children entry hentry txid hchild
        exact habsent child hmem heq
      rw [strip_singleton, hkept, hsame, List.map_id]
    · cases hspent : inner.spentOutputs.get? o with
      | none => rfl
      | some spender =>
        obtain ⟨entry, hentry, rfl, -⟩ := (h.spent o spender).mp hspent
        simp [Option.filter, habsent entry hentry]
  · next entry hfind =>
    obtain ⟨hentry, rfl⟩ := (find_eq_some h.distinct).mp hfind
    simp only [eq_ok, Prod.mk.injEq] at hok
    obtain ⟨stats, -, -, rfl⟩ := hok
    refine ⟨?_, fun o => ?_⟩
    · -- the child is in its parents' lists only
      show List.foldl _ _ _ = _
      rw [foldl_change (h.single entry hentry), strip_singleton]
      refine List.map_congr_left fun other hother => ?_
      split_ifs with hparent
      · simp [PoolEntry.orphan]
      · refine (PoolEntry.orphan_of_not_mem fun hchild => hparent ?_).symm
        obtain ⟨child, hmem, heq, hnamed⟩ := h.children other (List.mem_filter.mp hother).1 _ hchild
        exact eq_of_txid h.distinct hmem hentry heq ▸ hnamed
    · show SortedMap.get? (List.foldl _ _ _) o = _
      rw [get?_foldl_release]
      cases hspent : inner.spentOutputs.get? o with
      | none => simp
      | some spender =>
        obtain ⟨owner, howner, rfl, ho⟩ := (h.spent o spender).mp hspent
        by_cases heq : owner.txid = entry.txid
        · obtain rfl := eq_of_txid h.distinct howner hentry heq
          simp [ho, Option.filter]
        · simp [heq, Option.filter]

lemma removeAll_snoc :
    removeAll inner (txids ++ [txid]) = .ok (removed, next) ↔ ∃ before mid tx,
      removeAll inner txids = .ok (before, mid) ∧ removeOne mid txid = .ok (tx, next) ∧
      before ++ tx.toList = removed := by
  simp only [removeAll, List.foldlM_append, List.foldlM_cons, List.foldlM_nil, eq_ok, Prod.exists]
  aesop

/-- **Taking several out**, one after the other in whatever order. -/
theorem removeAll_without (h : Consistent inner)
    (hok : removeAll inner txids = .ok (removed, next)) : Without txids inner next := by
  induction txids using List.reverseRecOn generalizing removed next with
  | nil =>
    obtain ⟨-, rfl⟩ := Prod.mk.inj (Except.ok.inj hok)
    refine ⟨?_, fun o => ?_⟩
    · simp [strip, PoolEntry.orphan]
    · cases inner.spentOutputs.get? o <;> simp [Option.filter]
  | append_singleton txids txid ih =>
    obtain ⟨before, mid, tx, hmid, hlast, -⟩ := removeAll_snoc.mp hok
    have hgone : Without txids inner mid := ih hmid
    exact hgone.trans (removeOne_without (h.without hgone) hlast)

end Removal

/-! ## Between calls -/

/-- Books of a pool between calls. -/
structure Indexed (inner : PoolInner) : Prop extends Consistent inner where
  /-- A parent is an entry, and lists its child. -/
  parents : ∀ entry ∈ inner.txs, ∀ txid ∈ entry.dependencies,
    ∃ parent ∈ inner.txs, parent.txid = txid ∧ entry.txid ∈ parent.dependents
  /-- Parents arrive first. -/
  ordered : inner.txs.Pairwise fun entry later => later.txid ∉ entry.dependencies
  irreflexive : ∀ entry ∈ inner.txs, entry.txid ∉ entry.dependencies

/-- The children of members are members. -/
def Closed (txs : List PoolEntry) (gone : List Hash) : Prop :=
  ∀ entry ∈ txs, entry.txid ∈ gone → ∀ child ∈ entry.dependents, child ∈ gone

lemma Indexed.without (h : Indexed inner) (hclosed : Closed inner.txs gone)
    (hgone : Without gone inner next) : Indexed next where
  toConsistent := h.toConsistent.without hgone
  parents entry hentry txid hparent := by
    rw [hgone.txs] at hentry ⊢
    obtain ⟨old, hold, hkept, rfl⟩ := mem_strip.mp hentry
    obtain ⟨parent, hmem, rfl, hlisted⟩ := h.parents old hold txid hparent
    -- a parent that is gone has taken its children along
    have hstays : parent.txid ∉ gone := fun hin => hkept (hclosed parent hmem hin _ hlisted)
    refine ⟨_, mem_strip.mpr ⟨parent, hmem, hstays, rfl⟩, rfl, ?_⟩
    exact List.mem_filter.mpr ⟨hlisted, decide_eq_true hkept⟩
  ordered := by
    rw [hgone.txs, strip, List.pairwise_map]
    exact (h.ordered.sublist List.filter_sublist).imp fun hlater => hlater
  irreflexive entry hentry := by
    rw [hgone.txs] at hentry
    obtain ⟨old, hold, -, rfl⟩ := mem_strip.mp hentry
    exact h.irreflexive old hold

/-! ## Descendants -/

section Descendants

variable {roots : SortedMap Hash Unit}

lemma mem_children_iff (h : Consistent inner) :
    child ∈ children inner.txs txid ↔
      ∃ entry ∈ inner.txs, entry.txid = txid ∧ child ∈ entry.dependents := by
  unfold children
  cases hfind : find inner.txs txid with
  | none =>
    refine iff_of_false List.not_mem_nil ?_
    rintro ⟨entry, hentry, heq, -⟩
    exact find_eq_none.mp hfind entry hentry heq
  | some entry =>
    obtain ⟨hentry, rfl⟩ := (find_eq_some h.distinct).mp hfind
    refine ⟨fun hchild => ⟨entry, hentry, rfl, hchild⟩, ?_⟩
    rintro ⟨other, hother, heq, hchild⟩
    exact eq_of_txid h.distinct hother hentry heq ▸ hchild

/-- The package of some roots: it contains them, it is closed, and all of it is in the pool if the
    roots are. -/
lemma descendantsIncluding_spec (h : Consistent inner)
    (hroots : ∀ txid ∈ roots.keys, ∃ entry ∈ inner.txs, entry.txid = txid) :
    (∀ txid ∈ roots.keys, txid ∈ (descendantsIncluding inner.txs roots).keys) ∧
    Closed inner.txs (descendantsIncluding inner.txs roots).keys ∧
    ∀ txid ∈ (descendantsIncluding inner.txs roots).keys, ∃ entry ∈ inner.txs, entry.txid = txid := by
  have hall : ∀ txid, ∀ child ∈ children inner.txs txid,
      child ∈ inner.txs.flatMap (·.dependents) := by
    intro txid child hchild
    obtain ⟨entry, hentry, -, hlisted⟩ := (mem_children_iff h).mp hchild
    exact List.mem_flatMap.mpr ⟨entry, hentry, hlisted⟩
  obtain ⟨hrooted, hclosed⟩ := Worklist.closure_closed hall (Nat.le_refl _)
  refine ⟨hrooted, fun entry hentry hin child hchild => ?_, ?_⟩
  · exact hclosed entry.txid hin child ((mem_children_iff h).mpr ⟨entry, hentry, rfl, hchild⟩)
  · refine Worklist.closure_induction hroots fun txid _ child hchild => ?_
    obtain ⟨entry, hentry, -, hlisted⟩ := (mem_children_iff h).mp hchild
    obtain ⟨other, hother, heq, -⟩ := h.children entry hentry child hlisted
    exact ⟨other, hother, heq⟩

end Descendants

/-! ## Admission -/

/-- What a transaction that is admitted has passed. -/
structure Judged (blake3 : List UInt8 → Hash) (pool : CellPool) (admitted : VerifiedStateTransaction)
    (evicted : SortedMap Hash Unit) (dependencies : List Hash) : Prop where
  identified : computeTxid blake3 admitted.tx = admitted.txid
  fresh : ∀ entry ∈ pool.inner.txs, entry.txid ≠ admitted.txid
  /-- Whoever spends one of its inputs is evicted, … -/
  conflicts : ∀ entry ∈ pool.inner.txs, ∀ o ∈ spends admitted.tx, o ∈ spends entry.tx →
    entry.txid ∈ evicted.keys
  /-- … with everything that descends from it. -/
  closed : Closed pool.inner.txs evicted.keys
  present : ∀ txid ∈ evicted.keys, ∃ entry ∈ pool.inner.txs, entry.txid = txid
  space : pool.inner.txs.length - evicted.len < pool.maxSize.toNat
  /-- The parents are the remaining entries that created an input. -/
  parents : ∀ txid, txid ∈ dependencies ↔ txid ∉ evicted.keys ∧
    (∃ entry ∈ pool.inner.txs, entry.txid = txid) ∧ ∃ o ∈ spends admitted.tx, o.txHash = txid
  root : checkRoot pool admitted.stateRoot dependencies = .ok ()

lemma mem_parents :
    txid ∈ parents txs evicted tx ↔ txid ∉ evicted.keys ∧
      (∃ entry ∈ txs, entry.txid = txid) ∧ ∃ o ∈ spends tx, o.txHash = txid := by
  simp only [parents, SortedMap.mem_keys_ofKeys, List.mem_filterMap, Option.map_eq_some_iff, spends,
    List.mem_map]
  constructor
  · rintro ⟨input, hinput, parent, hfind, rfl⟩
    have hpassed := List.find?_some hfind
    simp only [decide_eq_true_eq] at hpassed
    exact ⟨hpassed.1, ⟨parent, List.mem_of_find?_eq_some hfind, rfl⟩, _, ⟨input, hinput, rfl⟩, hpassed.2⟩
  · rintro ⟨hkept, ⟨entry, hentry, rfl⟩, _, ⟨input, hinput, rfl⟩, hcreated⟩
    -- the first entry that passes has the id of the input's transaction, like this one
    cases hfind : txs.find? fun parent =>
        decide (parent.txid ∉ evicted.keys ∧ input.previousOutput.txHash = parent.txid) with
    | none =>
      have hrefused := List.find?_eq_none.mp hfind entry hentry
      simp [hkept, hcreated] at hrefused
    | some parent =>
      have hpassed := List.find?_some hfind
      simp only [decide_eq_true_eq] at hpassed
      exact ⟨input, hinput, parent, hfind, hpassed.2.symm.trans hcreated⟩

lemma checkRoot_length (h : checkRoot pool root dependencies = .ok ()) :
    dependencies.length ≤ 1 := by
  match dependencies, h with
  | [], _ => simp
  | [_], _ => simp

lemma judge_eq_ok (hpool : Consistent pool.inner)
    (h : judge blake3 pool admitted = .ok (evicted, dependencies)) :
    Judged blake3 pool admitted evicted dependencies := by
  simp only [judge, eq_ok, Prod.mk.injEq] at h
  obtain ⟨hid, -, hfresh, hspace, -, hroot, rfl, rfl⟩ := h
  have hconflicting : ∀ txid ∈ (SortedMap.ofKeys ((spends admitted.tx).filterMap fun outpoint =>
      pool.inner.spentOutputs.get? outpoint)).keys, ∃ entry ∈ pool.inner.txs, entry.txid = txid := by
    intro txid hmem
    rw [SortedMap.mem_keys_ofKeys, List.mem_filterMap] at hmem
    obtain ⟨o, -, hspent⟩ := hmem
    obtain ⟨entry, hentry, heq, -⟩ := (hpool.spent o txid).mp hspent
    exact ⟨entry, hentry, heq⟩
  obtain ⟨hrooted, hclosed, hpresent⟩ := descendantsIncluding_spec hpool hconflicting
  refine ⟨hid, find_eq_none.mp hfresh, fun entry hentry o ho hspends => ?_, hclosed, hpresent,
    hspace, fun txid => mem_parents, hroot⟩
  refine hrooted _ (SortedMap.mem_keys_ofKeys.mpr (List.mem_filterMap.mpr ⟨o, ho, ?_⟩))
  exact (hpool.spent o _).mpr ⟨entry, hentry, rfl, hspends⟩

/-- A parent with the new child, another entry as it is. -/
def PoolEntry.adopt (dependencies : List Hash) (txid : Hash) (entry : PoolEntry) : PoolEntry :=
  { entry with dependents :=
      if entry.txid ∈ dependencies then (addChild txid entry).dependents else entry.dependents }

lemma PoolEntry.mem_adopt_dependents (dependencies : List Hash) (txid : Hash) (entry : PoolEntry) :
    child ∈ (entry.adopt dependencies txid).dependents ↔
      child ∈ entry.dependents ∨ child = txid ∧ entry.txid ∈ dependencies := by
  simp only [adopt]
  split_ifs with h
  · simp [addChild, h]
  · simp [h]

/-- What `add` leaves behind: the evicted package is gone, and the new entry stands last. -/
structure Admitted (admitted : VerifiedStateTransaction) (evicted : SortedMap Hash Unit)
    (dependencies : List Hash) (mid next : PoolInner) : Prop where
  txs : next.txs =
    mid.txs.map (·.adopt dependencies admitted.txid) ++ [entryOf admitted dependencies]
  spent : ∀ o, next.spentOutputs.get? o =
    if o ∈ spends admitted.tx then some admitted.txid else mid.spentOutputs.get? o
  stats : mid.stats.add admitted.tx admitted.fee (evicted.len ≠ 0) = .ok next.stats

lemma get?_foldl_claim (points : List OutPoint) (txid : Hash) (spent : SortedMap OutPoint Hash)
    (o : OutPoint) :
    (points.foldl (fun spent outpoint => spent.insert outpoint txid) spent).get? o =
      if o ∈ points then some txid else spent.get? o := by
  induction points generalizing spent with
  | nil => simp
  | cons point points ih =>
    rw [List.foldl_cons, ih, SortedMap.get?_insert]
    by_cases ho : o = point <;> simp [ho]

section Add

variable {next : CellPool} {admitted : VerifiedStateTransaction} {dependencies : List Hash}

lemma add_eq_ok (hpool : Consistent pool.inner) (h : pool.call blake3 (.add admitted) = .ok next) :
    ∃ evicted dependencies removed mid, judge blake3 pool admitted = .ok (evicted, dependencies) ∧
      Judged blake3 pool admitted evicted dependencies ∧
      removeAll pool.inner evicted.keys = .ok (removed, mid) ∧
      Without evicted.keys pool.inner mid ∧
      Admitted admitted evicted dependencies mid next.inner ∧
      next = { pool with inner := next.inner } := by
  simp only [call_add, nextInner, eq_ok, Prod.exists] at h
  obtain ⟨evicted, dependencies, hjudge, _, ⟨removed, mid, hremove, stats, hstats, rfl⟩, rfl⟩ := h
  have hjudged := judge_eq_ok hpool hjudge
  refine ⟨evicted, dependencies, removed, mid, hjudge, hjudged, hremove,
    removeAll_without hpool hremove, ⟨?_, fun o => ?_, hstats⟩, rfl⟩
  · show List.foldl _ _ _ ++ _ = _
    rw [foldl_change (checkRoot_length hjudged.root)]
    refine congrArg (· ++ _) (List.map_congr_left fun entry _ => ?_)
    unfold PoolEntry.adopt
    split_ifs <;> rfl
  · exact get?_foldl_claim _ _ _ o

/-! An entry that stays has another id, and none of the new inputs; every parent stays. -/

variable {entry : PoolEntry}

section

variable (h : Judged blake3 pool admitted evicted dependencies)
  (hgone : Without evicted.keys pool.inner mid)
include h hgone

lemma Judged.mid_ne (hentry : entry ∈ mid.txs) : entry.txid ≠ admitted.txid := by
  obtain ⟨old, hmem, -, rfl⟩ := mem_strip.mp (hgone.txs ▸ hentry)
  exact h.fresh old hmem

lemma Judged.mid_free (hentry : entry ∈ mid.txs) (ho : o ∈ spends entry.tx) :
    o ∉ spends admitted.tx := by
  intro hspends
  obtain ⟨old, hmem, hkept, rfl⟩ := mem_strip.mp (hgone.txs ▸ hentry)
  exact hkept (h.conflicts old hmem o hspends ho)

lemma Judged.parent_stays (htxid : txid ∈ dependencies) : ∃ entry ∈ mid.txs, entry.txid = txid := by
  obtain ⟨hkept, ⟨entry, hentry, rfl⟩, -⟩ := (h.parents txid).mp htxid
  refine ⟨entry.orphan evicted.keys, ?_, rfl⟩
  rw [hgone.txs]
  exact mem_strip.mpr ⟨entry, hentry, hkept, rfl⟩

end

lemma Admitted.mem_txs (h : Admitted admitted evicted dependencies mid inner) :
    entry ∈ inner.txs ↔ (∃ old ∈ mid.txs, old.adopt dependencies admitted.txid = entry) ∨
        entry = entryOf admitted dependencies := by
  rw [h.txs, List.mem_append, List.mem_map, List.mem_singleton]

lemma Consistent.add (hmid : Consistent mid)
    (hjudged : Judged blake3 pool admitted evicted dependencies)
    (hgone : Without evicted.keys pool.inner mid)
    (h : Admitted admitted evicted dependencies mid inner) : Consistent inner where
  distinct := by
    have hnodup : ((mid.txs.map (·.adopt dependencies admitted.txid)).map (·.txid)).Nodup := by
      rw [List.map_map]
      exact hmid.distinct
    rw [h.txs]
    refine nodup_map_snoc hnodup fun hmem => ?_
    simp only [List.mem_map, exists_exists_and_eq_and] at hmem
    obtain ⟨entry, hentry, heq⟩ := hmem
    exact hjudged.mid_ne hgone hentry heq
  spent o txid := by
    rw [h.spent]
    split_ifs with ho
    · rw [Option.some_inj]
      constructor
      · rintro rfl
        exact ⟨_, h.mem_txs.mpr (.inr rfl), rfl, ho⟩
      · rintro ⟨entry, hentry, rfl, hspends⟩
        rcases h.mem_txs.mp hentry with ⟨old, hmem, rfl⟩ | rfl
        · exact absurd ho (hjudged.mid_free hgone hmem hspends)
        · rfl
    · rw [hmid.spent]
      constructor
      · rintro ⟨entry, hentry, rfl, hspends⟩
        exact ⟨_, h.mem_txs.mpr (.inl ⟨entry, hentry, rfl⟩), rfl, hspends⟩
      · rintro ⟨entry, hentry, rfl, hspends⟩
        rcases h.mem_txs.mp hentry with ⟨old, hmem, rfl⟩ | rfl
        · exact ⟨old, hmem, rfl, hspends⟩
        · exact absurd hspends ho
  children parent hparent child hchild := by
    rcases h.mem_txs.mp hparent with ⟨old, hold, rfl⟩ | rfl
    · rcases (old.mem_adopt_dependents _ _).mp hchild with hlisted | ⟨rfl, hnamed⟩
      · obtain ⟨entry, hentry, rfl, hnamed⟩ := hmid.children old hold child hlisted
        exact ⟨_, h.mem_txs.mpr (.inl ⟨entry, hentry, rfl⟩), rfl, hnamed⟩
      · exact ⟨_, h.mem_txs.mpr (.inr rfl), rfl, hnamed⟩
    · exact absurd hchild List.not_mem_nil
  single entry hentry := by
    rcases h.mem_txs.mp hentry with ⟨old, hmem, rfl⟩ | rfl
    · exact hmid.single old hmem
    · exact checkRoot_length hjudged.root

/-- **Admission keeps the books.** -/
theorem Indexed.add (hmid : Indexed mid)
    (hjudged : Judged blake3 pool admitted evicted dependencies)
    (hgone : Without evicted.keys pool.inner mid)
    (h : Admitted admitted evicted dependencies mid inner) : Indexed inner where
  toConsistent := hmid.toConsistent.add hjudged hgone h
  parents entry hentry txid hnamed := by
    rcases h.mem_txs.mp hentry with ⟨old, hold, rfl⟩ | rfl
    · obtain ⟨parent, hparent, rfl, hlisted⟩ := hmid.parents old hold txid hnamed
      exact ⟨_, h.mem_txs.mpr (.inl ⟨parent, hparent, rfl⟩), rfl,
        (parent.mem_adopt_dependents _ _).mpr (.inl hlisted)⟩
    · obtain ⟨parent, hparent, rfl⟩ := hjudged.parent_stays hgone hnamed
      exact ⟨_, h.mem_txs.mpr (.inl ⟨parent, hparent, rfl⟩), rfl,
        (parent.mem_adopt_dependents _ _).mpr (.inr ⟨rfl, hnamed⟩)⟩
  ordered := by
    rw [h.txs, List.pairwise_append]
    refine ⟨?_, List.pairwise_singleton _ _, ?_⟩
    · rw [List.pairwise_map]
      exact hmid.ordered
    · -- nobody has named the new entry so far
      intro entry hentry last hlast hnamed
      obtain ⟨old, hmem, rfl⟩ := List.mem_map.mp hentry
      rw [List.mem_singleton.mp hlast] at hnamed
      obtain ⟨parent, hparent, heq, -⟩ := hmid.parents old hmem _ hnamed
      exact hjudged.mid_ne hgone hparent heq
  irreflexive entry hentry := by
    rcases h.mem_txs.mp hentry with ⟨old, hmem, rfl⟩ | rfl
    · exact hmid.irreflexive old hmem
    · intro hself
      obtain ⟨parent, hparent, heq⟩ := hjudged.parent_stays hgone hself
      exact hjudged.mid_ne hgone hparent heq

end Add

/-! ## Totals -/

/-- The totals are those of the entries. -/
structure Tallied (inner : PoolInner) : Prop where
  txs : inner.stats.totalTxs.toNat = inner.txs.length
  size : inner.stats.totalSize.toNat = (inner.txs.map (·.tx.serializedSize.toNat)).sum
  fee : inner.stats.totalFee.toNat = (inner.txs.map (·.fee.toNat)).sum

/-- Entries came and went. -/
structure Counted (inner : PoolInner) : Prop where
  txs : inner.stats.txsRemoved.toNat + inner.txs.length = inner.stats.txsAdded.toNat
  rbf : inner.stats.rbfCount.toNat ≤ inner.stats.txsAdded.toNat

variable {a b : UInt64}

lemma plus_eq_ok : plus a b = .ok c ↔ c.toNat = a.toNat + b.toNat := by
  rw [plus, okOr_eq_ok, checkedAdd_eq_some]

lemma minus_eq_ok : minus a b = .ok c ↔ c.toNat + b.toNat = a.toNat := by
  rw [minus, okOr_eq_ok, checkedSub_eq_some]

lemma exists_plus (h : a.toNat + b.toNat < 2 ^ 64) : ∃ c, plus a b = .ok c :=
  ⟨UInt64.ofNat (a.toNat + b.toNat), plus_eq_ok.mpr (toNat_word h)⟩

lemma exists_minus (h : b.toNat ≤ a.toNat) : ∃ c, minus a b = .ok c := by
  refine ⟨UInt64.ofNat (a.toNat - b.toNat), minus_eq_ok.mpr ?_⟩
  have hlt := a.toNat_lt
  rw [toNat_word (by omega)]
  omega

section Totals

variable {next : PoolInner} {txid : Hash} {entry : PoolEntry}

/-- Sums over the entries with one of them taken out. -/
lemma sum_strip_one (hdistinct : (inner.txs.map (·.txid)).Nodup) (hentry : entry ∈ inner.txs)
    (hf : ∀ gone e, f (e.orphan gone) = f e) :
    (inner.txs.map f).sum = f entry + ((strip [entry.txid] inner.txs).map f).sum := by
  rw [((perm_cons_filter_key hdistinct hentry).map f).sum_eq, List.map_cons, List.sum_cons,
    strip_singleton, List.map_map]
  congr 2
  exact List.map_congr_left fun other _ => (hf _ _).symm

/-- What one entry contributes to the totals. -/
lemma totals_strip_one (h : Consistent inner) (hentry : entry ∈ inner.txs) :
    inner.txs.length = 1 + (strip [entry.txid] inner.txs).length ∧
    (inner.txs.map (·.tx.serializedSize.toNat)).sum = entry.tx.serializedSize.toNat +
      ((strip [entry.txid] inner.txs).map (·.tx.serializedSize.toNat)).sum ∧
    (inner.txs.map (·.fee.toNat)).sum =
      entry.fee.toNat + ((strip [entry.txid] inner.txs).map (·.fee.toNat)).sum := by
  have hsum := sum_strip_one h.distinct hentry (f := fun _ => 1) fun _ _ => rfl
  exact ⟨by simpa using hsum, sum_strip_one h.distinct hentry fun _ _ => rfl,
    sum_strip_one h.distinct hentry fun _ _ => rfl⟩

lemma PoolStats.remove_eq_ok (h : stats.remove entry = .ok after) :
    after.totalTxs.toNat + 1 = stats.totalTxs.toNat ∧
    after.totalSize.toNat + entry.tx.serializedSize.toNat = stats.totalSize.toNat ∧
    after.totalFee.toNat + entry.fee.toNat = stats.totalFee.toNat ∧
    after.txsRemoved.toNat = stats.txsRemoved.toNat + 1 ∧
    after.txsAdded = stats.txsAdded ∧ after.rbfCount = stats.rbfCount := by
  simp only [PoolStats.remove, eq_ok, minus_eq_ok, plus_eq_ok] at h
  obtain ⟨_, htxs, _, hsize, _, hfee, _, hremoved, rfl⟩ := h
  exact ⟨htxs, hsize, hfee, hremoved, rfl, rfl⟩

lemma PoolStats.exists_remove (htxs : 1 ≤ stats.totalTxs.toNat)
    (hsize : entry.tx.serializedSize.toNat ≤ stats.totalSize.toNat)
    (hfee : entry.fee.toNat ≤ stats.totalFee.toNat)
    (hremoved : stats.txsRemoved.toNat + 1 < 2 ^ 64) : ∃ after, stats.remove entry = .ok after := by
  obtain ⟨txs, htxs⟩ := exists_minus (a := stats.totalTxs) (b := 1) htxs
  obtain ⟨size, hsize⟩ := exists_minus hsize
  obtain ⟨fee, hfee⟩ := exists_minus hfee
  obtain ⟨removed, hremoved⟩ := exists_plus (a := stats.txsRemoved) (b := 1) hremoved
  simp only [PoolStats.remove, htxs, hsize, hfee, hremoved]
  exact ⟨_, rfl⟩

variable {removed : Option CellTx}

/-- A removal does nothing, or takes one entry out of the totals. -/
lemma removeOne_stats (h : Consistent inner) (hok : removeOne inner txid = .ok (removed, next)) :
    next = inner ∨ ∃ entry ∈ inner.txs, next.txs = strip [entry.txid] inner.txs ∧
      inner.stats.remove entry = .ok next.stats := by
  have hgone : Without [txid] inner next := removeOne_without h hok
  unfold removeOne at hok
  split at hok
  · obtain ⟨-, rfl⟩ := Prod.mk.inj (Except.ok.inj hok)
    exact .inl rfl
  · next entry hfind =>
    obtain ⟨hentry, rfl⟩ := (find_eq_some h.distinct).mp hfind
    simp only [eq_ok, Prod.mk.injEq] at hok
    obtain ⟨stats, hstats, -, rfl⟩ := hok
    exact .inr ⟨entry, hentry, hgone.txs, hstats⟩

lemma Counted.removeOne (hcounted : Counted inner) (h : Consistent inner)
    (hok : removeOne inner txid = .ok (removed, next)) : Counted next := by
  rcases removeOne_stats h hok with rfl | ⟨entry, hentry, htxs, hstats⟩
  · exact hcounted
  · obtain ⟨hlength, -⟩ := totals_strip_one h hentry
    obtain ⟨-, -, -, hremoved, hadded, hrbf⟩ := PoolStats.remove_eq_ok hstats
    have hold := hcounted.txs
    refine ⟨?_, by rw [hadded, hrbf]; exact hcounted.rbf⟩
    rw [hadded, htxs]
    omega

lemma Tallied.removeOne (htallied : Tallied inner) (h : Consistent inner)
    (hok : removeOne inner txid = .ok (removed, next)) : Tallied next := by
  rcases removeOne_stats h hok with rfl | ⟨entry, hentry, htxs, hstats⟩
  · exact htallied
  · obtain ⟨hlength, hsizes, hfees⟩ := totals_strip_one h hentry
    obtain ⟨hcount, hsize, hfee, -⟩ := PoolStats.remove_eq_ok hstats
    obtain ⟨oldCount, oldSize, oldFee⟩ := htallied
    refine ⟨?_, ?_, ?_⟩ <;> rw [htxs] <;> omega

/-- Right totals can always be taken from. -/
lemma exists_removeOne (h : Consistent inner) (hcounted : Counted inner) (htallied : Tallied inner)
    (txid : Hash) : ∃ removed next, Mempool.removeOne inner txid = .ok (removed, next) := by
  unfold Mempool.removeOne
  cases hfind : find inner.txs txid with
  | none => exact ⟨none, inner, rfl⟩
  | some entry =>
    obtain ⟨hentry, rfl⟩ := (find_eq_some h.distinct).mp hfind
    obtain ⟨hlength, hsizes, hfees⟩ := totals_strip_one h hentry
    have hadded := inner.stats.txsAdded.toNat_lt
    have hremoved := hcounted.txs
    obtain ⟨hcount, hsize, hfee⟩ := htallied
    obtain ⟨after, hafter⟩ := @PoolStats.exists_remove inner.stats entry (by omega) (by omega)
      (by omega) (by omega)
    simp only [hafter]
    exact ⟨_, _, rfl⟩

/-- What each removal keeps, a series of them keeps. -/
lemma removeAll_induction {I : PoolInner → Prop}
    (hstep : ∀ inner txid removed next, Consistent inner → I inner →
      Mempool.removeOne inner txid = .ok (removed, next) → I next) (h : Consistent inner)
    (hI : I inner) {removed : List CellTx} (hok : removeAll inner txids = .ok (removed, next)) :
    I next := by
  induction txids using List.reverseRecOn generalizing removed next with
  | nil =>
    obtain ⟨-, rfl⟩ := Prod.mk.inj (Except.ok.inj hok)
    exact hI
  | append_singleton txids txid ih =>
    obtain ⟨before, mid, tx, hmid, hlast, -⟩ := removeAll_snoc.mp hok
    exact hstep mid txid tx _ (h.without (removeAll_without h hmid)) (ih hmid) hlast

lemma exists_removeAll (h : Consistent inner) (hcounted : Counted inner) (htallied : Tallied inner)
    (txids : List Hash) : ∃ removed next, removeAll inner txids = .ok (removed, next) := by
  induction txids using List.reverseRecOn with
  | nil => exact ⟨[], inner, rfl⟩
  | append_singleton txids txid ih =>
    obtain ⟨removed, mid, hmid⟩ := ih
    have hconsistent : Consistent mid := h.without (removeAll_without h hmid)
    have hcounted' : Counted mid :=
      removeAll_induction (fun _ _ _ _ h k => k.removeOne h) h hcounted hmid
    have htallied' : Tallied mid :=
      removeAll_induction (fun _ _ _ _ h k => k.removeOne h) h htallied hmid
    obtain ⟨tx, next, hlast⟩ := exists_removeOne hconsistent hcounted' htallied' txid
    exact ⟨_, next, removeAll_snoc.mpr ⟨removed, mid, tx, hmid, hlast, rfl⟩⟩

/-- A package of distinct entries takes up its place in the pool. -/
lemma length_strip (hgone : gone.Nodup)
    (hpresent : ∀ txid ∈ gone, ∃ entry ∈ inner.txs, entry.txid = txid) :
    (strip gone inner.txs).length + gone.length ≤ inner.txs.length := by
  have hsubset : gone ⊆ (inner.txs.filter (·.txid ∈ gone)).map (·.txid) := by
    intro txid htxid
    obtain ⟨entry, hentry, rfl⟩ := hpresent txid htxid
    exact List.mem_map.mpr ⟨entry, List.mem_filter.mpr ⟨hentry, decide_eq_true htxid⟩, rfl⟩
  have hle := (List.subperm_of_subset hgone hsubset).length_le
  have hparts := List.length_eq_length_filter_add (l := inner.txs) fun entry => entry.txid ∈ gone
  have hothers : inner.txs.filter (fun entry => !decide (entry.txid ∈ gone)) =
      inner.txs.filter (·.txid ∉ gone) := List.filter_congr fun entry _ => by simp
  rw [List.length_map] at hle
  rw [hothers] at hparts
  rw [strip, List.length_map]
  omega

lemma saturatingAdd_toNat (a b : UInt64) :
    (saturatingAdd a b).toNat = min (a.toNat + b.toNat) (2 ^ 64 - 1) := by
  unfold saturatingAdd
  cases hsum : checkedAdd a b with
  | none =>
    have hlarge := checkedAdd_eq_none.mp hsum
    have hmax : (18446744073709551615 : UInt64).toNat = 2 ^ 64 - 1 := by decide
    rw [Option.getD_none, hmax]
    omega
  | some c =>
    have hexact := checkedAdd_eq_some.mp hsum
    have hlt := c.toNat_lt
    rw [Option.getD_some]
    omega

lemma PoolStats.add_eq_ok (h : stats.add tx fee replaces = .ok after) :
    after.totalTxs.toNat = stats.totalTxs.toNat + 1 ∧
    after.totalSize.toNat = stats.totalSize.toNat + tx.serializedSize.toNat ∧
    after.totalFee.toNat = min (stats.totalFee.toNat + fee.toNat) (2 ^ 64 - 1) ∧
    after.txsRemoved = stats.txsRemoved ∧
    after.txsAdded.toNat = stats.txsAdded.toNat + 1 ∧
    after.rbfCount.toNat ≤ stats.rbfCount.toNat + 1 := by
  simp only [PoolStats.add, eq_ok, plus_eq_ok] at h
  obtain ⟨_, htxs, _, hsize, _, hadded, _, hrbf, rfl⟩ := h
  refine ⟨htxs, hsize, saturatingAdd_toNat _ _, rfl, hadded, ?_⟩
  cases replaces <;> simp at hrbf ⊢ <;> omega

lemma PoolStats.exists_add (fee : UInt64) (replaces : Bool)
    (htxs : stats.totalTxs.toNat + 1 < 2 ^ 64)
    (hsize : stats.totalSize.toNat + tx.serializedSize.toNat < 2 ^ 64)
    (hadded : stats.txsAdded.toNat + 1 < 2 ^ 64)
    (hrbf : stats.rbfCount.toNat ≤ stats.txsAdded.toNat) :
    ∃ after, stats.add tx fee replaces = .ok after := by
  obtain ⟨txs, htxs⟩ := exists_plus (a := stats.totalTxs) (b := 1) htxs
  obtain ⟨size, hsize⟩ := exists_plus hsize
  obtain ⟨added, hadded'⟩ := exists_plus (a := stats.txsAdded) (b := 1) hadded
  have hone : (if replaces then 1 else 0 : UInt64).toNat ≤ 1 := by cases replaces <;> decide
  obtain ⟨rbf, hrbf⟩ := exists_plus (a := stats.rbfCount) (b := if replaces then 1 else 0) (by omega)
  simp only [PoolStats.add, htxs, hsize, hadded', hrbf]
  exact ⟨_, rfl⟩

end Totals

/-! ## Calls -/

section Calls

variable {next : CellPool}

/-- Everything about a pool between calls but the totals. -/
structure Kept (pool : CellPool) : Prop where
  indexed : Indexed pool.inner
  bounded : pool.inner.txs.length ≤ pool.maxSize.toNat
  counted : Counted pool.inner

/-- The sums after an admission fit their words. -/
def Room (blake3 : List UInt8 → Hash) (pool : CellPool) (admitted : VerifiedStateTransaction) : Prop :=
  ∀ evicted dependencies, judge blake3 pool admitted = .ok (evicted, dependencies) →
    let staying := pool.inner.txs.filter (·.txid ∉ evicted.keys)
    (staying.map (·.fee.toNat)).sum + admitted.fee.toNat < 2 ^ 64 ∧
    (staying.map (·.tx.serializedSize.toNat)).sum + admitted.tx.serializedSize.toNat < 2 ^ 64 ∧
    pool.inner.stats.txsAdded.toNat + 1 < 2 ^ 64

lemma sum_strip (hf : ∀ gone e, f (e.orphan gone) = f e) :
    ((strip gone txs).map f).sum = ((txs.filter (·.txid ∉ gone)).map f).sum := by
  rw [strip, List.map_map]
  exact congrArg List.sum (List.map_congr_left fun entry _ => hf gone entry)

variable {dependencies : List Hash}

lemma Counted.admitted {admitted : VerifiedStateTransaction} (hmid : Counted mid)
    (h : Admitted admitted evicted dependencies mid inner) : Counted inner := by
  obtain ⟨-, -, -, hremoved, hadded, hrbf⟩ := PoolStats.add_eq_ok h.stats
  have hold := hmid.txs
  have holdRbf := hmid.rbf
  refine ⟨?_, by omega⟩
  rw [h.txs, hremoved, List.length_append, List.length_map, List.length_singleton]
  omega

/-- An admission leaves the totals right exactly if the fees fit. -/
lemma Tallied.admitted_iff (hmid : Tallied mid)
    (h : Admitted admitted evicted dependencies mid inner) :
    Tallied inner ↔ (mid.txs.map (·.fee.toNat)).sum + admitted.fee.toNat < 2 ^ 64 := by
  obtain ⟨htxs, hsize, hfee, -⟩ := PoolStats.add_eq_ok h.stats
  have hfees : (inner.txs.map (·.fee.toNat)).sum =
      (mid.txs.map (·.fee.toNat)).sum + admitted.fee.toNat := by
    simp [h.txs, comp_def, entryOf, PoolEntry.adopt]
  have hsizes : (inner.txs.map (·.tx.serializedSize.toNat)).sum =
      (mid.txs.map (·.tx.serializedSize.toNat)).sum + admitted.tx.serializedSize.toNat := by
    simp [h.txs, comp_def, entryOf, PoolEntry.adopt]
  have hlength : inner.txs.length = mid.txs.length + 1 := by simp [h.txs]
  obtain ⟨oldTxs, oldSize, oldFee⟩ := hmid
  constructor
  · intro hnew
    have hright := hnew.fee
    omega
  · intro hfits
    refine ⟨?_, ?_, ?_⟩ <;> omega

/-- The entries that stay leave a place for the new one. -/
lemma Judged.length_mid (hjudged : Judged blake3 pool admitted evicted dependencies)
    (hgone : Without evicted.keys pool.inner mid) : mid.txs.length < pool.maxSize.toNat := by
  have hlength := @length_strip evicted.keys pool.inner evicted.nodup_keys hjudged.present
  have hspace := hjudged.space
  have hlen : evicted.keys.length = evicted.len := List.length_map _
  rw [hgone.txs]
  omega

/-- A removed package is a closed set of entries. -/
lemma removePackage_eq_ok (hpool : Consistent pool.inner)
    (h : pool.call blake3 (.removePackage txid) = .ok next) :
    ∃ gone removed mid, removeAll pool.inner gone = .ok (removed, mid) ∧ Without gone pool.inner mid ∧
      Closed pool.inner.txs gone ∧ next = { pool with inner := mid } := by
  simp only [call_removePackage, eq_ok, Prod.exists] at h
  obtain ⟨hpresent, removed, mid, hremove, rfl⟩ := h
  have hroots : ∀ root ∈ (SortedMap.ofKeys [txid]).keys, ∃ entry ∈ pool.inner.txs,
      entry.txid = root := by
    intro root hroot
    rw [SortedMap.mem_keys_ofKeys, List.mem_singleton] at hroot
    by_contra habsent
    refine hpresent (find_eq_none.mpr fun entry hentry heq => habsent ⟨entry, hentry, ?_⟩)
    rw [heq, hroot]
  obtain ⟨-, hclosed, -⟩ := descendantsIncluding_spec hpool hroots
  exact ⟨_, removed, mid, hremove, removeAll_without hpool hremove, hclosed, rfl⟩

/-- **Every call keeps the books.** -/
theorem Kept.call (h : Kept pool) {call : PoolCall} (hok : pool.call blake3 call = .ok next) :
    Kept next := by
  have hconsistent : Consistent pool.inner := h.indexed.toConsistent
  have hcounted : ∀ {txids removed mid}, removeAll pool.inner txids = .ok (removed, mid) → Counted mid :=
    fun hremove => removeAll_induction (fun _ _ _ _ h k => k.removeOne h) hconsistent h.counted hremove
  cases call with
  | add admitted =>
    obtain ⟨evicted, dependencies, removed, mid, -, hjudged, hremove, hgone, hadmitted, hpool⟩ :=
      add_eq_ok hconsistent hok
    refine ⟨(h.indexed.without hjudged.closed hgone).add hjudged hgone hadmitted, ?_,
      (hcounted hremove).admitted hadmitted⟩
    have hless := hjudged.length_mid hgone
    have hsize : next.maxSize = pool.maxSize := by rw [hpool]
    rw [hsize, hadmitted.txs, List.length_append, List.length_map, List.length_singleton]
    omega
  | removePackage txid =>
    obtain ⟨gone, _, mid, hremove, hgone, hclosed, rfl⟩ := removePackage_eq_ok hconsistent hok
    refine ⟨h.indexed.without hclosed hgone, ?_, hcounted hremove⟩
    have hless : mid.txs.length ≤ pool.inner.txs.length := by
      rw [hgone.txs, strip, List.length_map]
      exact List.length_filter_le _ _
    exact hless.trans h.bounded

lemma kept_new (maxSize : UInt64) (root : Hash) : Kept (CellPool.new maxSize root) where
  indexed := ⟨⟨List.nodup_nil, fun _ _ => iff_of_false nofun nofun, nofun, nofun⟩, nofun, .nil, nofun⟩
  bounded := Nat.zero_le _
  counted := ⟨rfl, Nat.le_refl _⟩

lemma run_snoc (pool : CellPool) (calls : List PoolCall) (call : PoolCall) :
    pool.run blake3 (calls ++ [call]) =
      (((pool.run blake3 calls).call blake3 call).toOption).getD (pool.run blake3 calls) := by
  rw [CellPool.run, List.foldl_append, CellPool.call]
  cases hcall : (call.exec blake3 (pool.run blake3 calls)).1 with
  | error fault => exact PoolCall.exec_error hcall
  | ok => rfl

/-- The next pool is the old one, or what the call has made of it. -/
lemma run_snoc_cases (pool : CellPool) (calls : List PoolCall) (call : PoolCall) :
    (∃ fault, (pool.run blake3 calls).call blake3 call = .error fault ∧
      pool.run blake3 (calls ++ [call]) = pool.run blake3 calls) ∨
    ∃ next, (pool.run blake3 calls).call blake3 call = .ok next ∧
      pool.run blake3 (calls ++ [call]) = next := by
  rw [run_snoc]
  cases hcall : (pool.run blake3 calls).call blake3 call with
  | error fault => exact .inl ⟨fault, rfl, rfl⟩
  | ok next => exact .inr ⟨next, rfl, rfl⟩

lemma kept_run (maxSize : UInt64) (root : Hash) (calls : List PoolCall) :
    Kept ((CellPool.new maxSize root).run blake3 calls) := by
  induction calls using List.reverseRecOn with
  | nil => exact kept_new maxSize root
  | append_singleton calls call ih =>
    rcases run_snoc_cases (CellPool.new maxSize root) calls call with ⟨_, -, hsame⟩ | ⟨next, hok, hnext⟩
    · exact hsame ▸ ih
    · exact hnext ▸ ih.call hok

/-! ## When the totals are right -/

def Fault.Panic (fault : Fault) : Prop := ∃ message, fault = .panicked message

def Fault.Refusal (fault : Fault) : Prop := ∃ error, fault = .refused error

lemma not_panic (error : MempoolError) : ¬(Fault.refused error).Panic := nofun

lemma not_refusal (message : String) : ¬(Fault.panicked message).Refusal := nofun

/-- The checks of an admission do not panic, … -/
lemma judge_avoids (admitted : VerifiedStateTransaction) :
    Avoids Fault.Panic (judge blake3 pool admitted) := by
  have htotals : ∀ txs evicted, Avoids Fault.Panic (replacedTotals txs evicted) := fun txs evicted =>
    avoids_foldlM (fun totals txid => .need (not_panic _) fun entry =>
      .check (not_panic _) <| (avoids_ensure (not_panic _)).bind fun _ => avoids_pure _) _ _
  have hreplacement : ∀ evicted, Avoids Fault.Panic (checkReplacement pool.inner admitted evicted) := by
    intro evicted
    unfold checkReplacement validateReplacement
    split_ifs
    · exact (htotals _ _).bind fun totals => .check (not_panic _) <| avoids_ensure (not_panic _)
    · exact avoids_ok ()
  have hroot : ∀ dependencies, Avoids Fault.Panic
      (checkRoot pool admitted.stateRoot dependencies) := by
    intro dependencies
    rcases dependencies with _ | ⟨_, _ | _⟩
    · exact avoids_ensure (not_panic _)
    · exact .need (not_panic _) fun _ => avoids_ensure (not_panic _)
    · exact avoids_error (not_panic _)
  exact .check (not_panic _) <| .check (not_panic _) <|
    .check (not_panic _) <| .check (not_panic _) <|
    (hreplacement _).bind fun _ => (hroot _).bind fun _ => avoids_pure _

/-- … and after them it can do nothing else. -/
lemma removeAll_avoids (inner : PoolInner) (txids : List Hash) :
    Avoids Fault.Refusal (removeAll inner txids) := by
  have hone : ∀ inner txid, Avoids Fault.Refusal (Mempool.removeOne inner txid) := by
    intro inner txid
    unfold Mempool.removeOne
    split
    · exact avoids_pure _
    · exact (Avoids.need (not_refusal _) fun _ => .need (not_refusal _) fun _ =>
        .need (not_refusal _) fun _ => .need (not_refusal _) fun _ =>
        avoids_pure _).bind fun _ => avoids_pure _
  exact avoids_foldlM (fun _ _ => (hone _ _).bind fun _ => avoids_pure _) _ _

lemma PoolStats.add_avoids (stats : PoolStats) (tx : CellTx) (fee : UInt64) (replaces : Bool) :
    Avoids Fault.Refusal (stats.add tx fee replaces) :=
  .need (not_refusal _) fun _ => .need (not_refusal _) fun _ =>
    .need (not_refusal _) fun _ => .need (not_refusal _) fun _ =>
    avoids_pure _

lemma add_of_judge (hjudge : judge blake3 pool admitted = .ok verdict) :
    Avoids Fault.Refusal (pool.call blake3 (.add admitted)) := by
  rw [call_add, hjudge]
  have hadmit : Avoids Fault.Refusal (nextInner pool.inner admitted verdict.1 verdict.2) :=
    (removeAll_avoids _ _).bind fun _ => (PoolStats.add_avoids _ _ _ _).bind fun _ => avoids_pure _
  exact hadmit.bind fun _ => avoids_pure _

variable (h : Kept pool)
include h

/-- What is left of the totals once the evicted package is out. -/
lemma Tallied.evict (htallied : Tallied pool.inner)
    (hremove : removeAll pool.inner gone = .ok (removed, mid)) :
    Tallied mid ∧ Counted mid ∧ mid.stats.txsAdded = pool.inner.stats.txsAdded ∧
    (mid.txs.map (·.fee.toNat)).sum =
      ((pool.inner.txs.filter (·.txid ∉ gone)).map (·.fee.toNat)).sum ∧
    (mid.txs.map (·.tx.serializedSize.toNat)).sum =
      ((pool.inner.txs.filter (·.txid ∉ gone)).map (·.tx.serializedSize.toNat)).sum := by
  have hconsistent : Consistent pool.inner := h.indexed.toConsistent
  have hgone : Without gone pool.inner mid := removeAll_without hconsistent hremove
  refine ⟨?_, ?_, ?_, ?_, ?_⟩
  · exact removeAll_induction (fun _ _ _ _ h k => k.removeOne h) hconsistent htallied hremove
  · exact removeAll_induction (fun _ _ _ _ h k => k.removeOne h) hconsistent h.counted hremove
  · refine removeAll_induction (I := fun inner => inner.stats.txsAdded = pool.inner.stats.txsAdded)
      (fun inner _ _ _ hinner hsame hok => ?_) hconsistent rfl hremove
    rcases removeOne_stats hinner hok with rfl | ⟨entry, -, -, hstats⟩
    · exact hsame
    · obtain ⟨-, -, -, -, hadded, -⟩ := PoolStats.remove_eq_ok hstats
      exact hadded.trans hsame
  · rw [hgone.txs, sum_strip fun _ _ => rfl]
  · rw [hgone.txs, sum_strip fun _ _ => rfl]

/-- With room, an admission that passes its checks goes through. -/
lemma Room.exists_add (hroom : Room blake3 pool admitted)
    (htallied : Tallied pool.inner) (hjudge : judge blake3 pool admitted = .ok verdict) :
    ∃ next, pool.call blake3 (.add admitted) = .ok next := by
  obtain ⟨evicted, dependencies⟩ := verdict
  have hconsistent : Consistent pool.inner := h.indexed.toConsistent
  obtain ⟨removed, mid, hremove⟩ := exists_removeAll hconsistent h.counted htallied evicted.keys
  obtain ⟨hmid, hcounted, hsame, hfees, hsizes⟩ := htallied.evict h hremove
  have hless := (judge_eq_ok hconsistent hjudge).length_mid (removeAll_without hconsistent hremove)
  have hmax := pool.maxSize.toNat_lt
  obtain ⟨-, hsizeRoom, haddedRoom⟩ := hroom evicted dependencies hjudge
  obtain ⟨hcount, hsize, -⟩ := hmid
  obtain ⟨stats, hstats⟩ := @PoolStats.exists_add admitted.tx mid.stats admitted.fee (evicted.len ≠ 0)
    (by omega) (by omega) (by rw [hsame]; exact haddedRoom) hcounted.rbf
  simp only [call_add, nextInner, eq_ok, Prod.exists]
  exact ⟨_, evicted, dependencies, hjudge, _, ⟨removed, mid, hremove, stats, hstats, rfl⟩, rfl⟩

/-- An admission leaves right totals exactly if the fees fit. -/
lemma Tallied.add_iff (htallied : Tallied pool.inner)
    (hadd : pool.call blake3 (.add admitted) = .ok next) :
    ∃ evicted dependencies, judge blake3 pool admitted = .ok (evicted, dependencies) ∧
      (Tallied next.inner ↔
        ((pool.inner.txs.filter (·.txid ∉ evicted.keys)).map (·.fee.toNat)).sum +
          admitted.fee.toNat < 2 ^ 64) ∧
      ((pool.inner.txs.filter (·.txid ∉ evicted.keys)).map (·.tx.serializedSize.toNat)).sum +
        admitted.tx.serializedSize.toNat < 2 ^ 64 ∧
      pool.inner.stats.txsAdded.toNat + 1 < 2 ^ 64 := by
  obtain ⟨evicted, dependencies, removed, mid, hjudge, -, hremove, -, hadmitted, -⟩ :=
    add_eq_ok h.indexed.toConsistent hadd
  obtain ⟨hmid, -, hsame, hfees, hsizes⟩ := htallied.evict h hremove
  obtain ⟨-, hsize, -, -, hadded, -⟩ := PoolStats.add_eq_ok hadmitted.stats
  have hsizeFits := next.inner.stats.totalSize.toNat_lt
  have haddedFits := next.inner.stats.txsAdded.toNat_lt
  refine ⟨evicted, dependencies, hjudge, ?_, ?_, ?_⟩
  · rw [hmid.admitted_iff hadmitted, hfees]
  · rw [← hsizes, ← hmid.size]
    omega
  · rw [← hsame]
    omega

/-- With room, a call on right totals does not panic and leaves right totals. -/
lemma Tallied.call (htallied : Tallied pool.inner) {call : PoolCall}
    (hroom : ∀ admitted, call = .add admitted → Room blake3 pool admitted) :
    Avoids Fault.Panic (pool.call blake3 call) ∧
      ∀ next, pool.call blake3 call = .ok next → Tallied next.inner := by
  have hconsistent : Consistent pool.inner := h.indexed.toConsistent
  cases call with
  | removePackage txid =>
    refine ⟨?_, fun next hok => ?_⟩
    · rw [call_removePackage]
      refine .check (not_panic _) ?_
      obtain ⟨removed, mid, hremove⟩ := exists_removeAll hconsistent h.counted htallied
        (descendantsIncluding pool.inner.txs (SortedMap.ofKeys [txid])).keys
      simp only [hremove]
      exact avoids_ok _
    · obtain ⟨gone, _, mid, hremove, -, -, rfl⟩ := removePackage_eq_ok hconsistent hok
      exact (htallied.evict h hremove).1
  | add admitted =>
    have hfits := hroom admitted rfl
    refine ⟨?_, fun next hok => ?_⟩
    · cases hjudge : judge blake3 pool admitted with
      | error fault =>
        rw [call_add, hjudge]
        exact avoids_error (judge_avoids admitted fault hjudge)
      | ok verdict =>
        obtain ⟨next, hnext⟩ := hfits.exists_add h htallied hjudge
        rw [hnext]
        exact avoids_ok _
    · obtain ⟨evicted, dependencies, hjudge, hiff, -⟩ := htallied.add_iff h hok
      exact hiff.mpr (hfits evicted dependencies hjudge).1

/-- Right totals before and after an admission, and no panic: there was room. -/
lemma room_of_tallied (htallied : Tallied pool.inner)
    (hcalm : Avoids Fault.Panic (pool.call blake3 (.add admitted)))
    (hnext : ∀ next, pool.call blake3 (.add admitted) = .ok next → Tallied next.inner) :
    Room blake3 pool admitted := by
  intro evicted dependencies hjudge
  cases hcall : pool.call blake3 (.add admitted) with
  | error fault =>
    -- neither a refusal nor a panic
    cases fault with
    | refused error => exact absurd ⟨error, rfl⟩ (add_of_judge hjudge _ hcall)
    | panicked message => exact absurd ⟨message, rfl⟩ (hcalm _ hcall)
  | ok next =>
    obtain ⟨evicted', dependencies', hjudge', hiff, hsizes, hadded⟩ := htallied.add_iff h hcall
    obtain ⟨rfl, rfl⟩ := Prod.mk.inj (Except.ok.inj (hjudge.symm.trans hjudge'))
    exact ⟨hiff.mp (hnext next hcall), hsizes, hadded⟩

end Calls

/-! ## Runs -/

/-- An entry names a parent. -/
def DependsOn (txs : List PoolEntry) (child parent : Hash) : Prop :=
  ∃ entry ∈ txs, entry.txid = child ∧ parent ∈ entry.dependencies

/-- The books of a pool, apart from its totals. -/
structure Booked (pool : CellPool) : Prop where
  distinct : (pool.inner.txs.map (·.txid)).Nodup
  spent : ∀ o txid, pool.inner.spentOutputs.get? o = some txid ↔
    ∃ entry ∈ pool.inner.txs, entry.txid = txid ∧ o ∈ spends entry.tx
  inverse : ∀ entry ∈ pool.inner.txs, ∀ parent ∈ pool.inner.txs,
    parent.txid ∈ entry.dependencies ↔ entry.txid ∈ parent.dependents
  present : ∀ entry ∈ pool.inner.txs, ∀ txid ∈ entry.dependencies ++ entry.dependents,
    ∃ other ∈ pool.inner.txs, other.txid = txid
  acyclic : ∀ txid, ¬Relation.TransGen (DependsOn pool.inner.txs) txid txid
  bounded : pool.inner.txs.length ≤ pool.maxSize.toNat

/-- Parents stand at smaller places. -/
lemma Indexed.place_lt (h : Indexed inner) (hdepends : DependsOn inner.txs child parent) :
    (inner.txs.map (·.txid)).idxOf parent < (inner.txs.map (·.txid)).idxOf child := by
  obtain ⟨entry, hentry, rfl, hnamed⟩ := hdepends
  obtain ⟨other, hother, rfl, -⟩ := h.parents entry hentry parent hnamed
  obtain ⟨i, hi, rfl⟩ := List.getElem_of_mem hentry
  obtain ⟨j, hj, rfl⟩ := List.getElem_of_mem hother
  have hplace : ∀ k (hk : k < inner.txs.length),
      (inner.txs.map (·.txid)).idxOf inner.txs[k].txid = k := by
    intro k hk
    have hat := h.distinct.idxOf_getElem k (by rw [List.length_map]; exact hk)
    rwa [List.getElem_map] at hat
  rw [hplace i hi, hplace j hj]
  -- neither itself nor a later entry
  by_contra hle
  rcases Nat.lt_or_ge i j with hlt | hge
  · exact List.pairwise_iff_getElem.mp h.ordered i j hi hj hlt hnamed
  · obtain rfl : i = j := by omega
    exact h.irreflexive _ hentry hnamed

lemma Kept.booked (h : Kept pool) : Booked pool where
  distinct := h.indexed.distinct
  spent := h.indexed.spent
  inverse entry hentry parent hparent := by
    constructor
    · intro hnamed
      obtain ⟨other, hother, heq, hlisted⟩ := h.indexed.parents entry hentry _ hnamed
      exact eq_of_txid h.indexed.distinct hother hparent heq ▸ hlisted
    · intro hlisted
      obtain ⟨other, hother, heq, hnamed⟩ := h.indexed.children parent hparent _ hlisted
      exact eq_of_txid h.indexed.distinct hother hentry heq ▸ hnamed
  present entry hentry txid hmem := by
    rcases List.mem_append.mp hmem with hnamed | hlisted
    · obtain ⟨parent, hparent, heq, -⟩ := h.indexed.parents entry hentry txid hnamed
      exact ⟨parent, hparent, heq⟩
    · obtain ⟨child, hchild, heq, -⟩ := h.indexed.children entry hentry txid hlisted
      exact ⟨child, hchild, heq⟩
  acyclic txid hcycle := by
    have hless : ∀ {a b}, Relation.TransGen (DependsOn pool.inner.txs) a b →
        (pool.inner.txs.map (·.txid)).idxOf b < (pool.inner.txs.map (·.txid)).idxOf a := by
      intro a b hpath
      induction hpath with
      | single hstep => exact h.indexed.place_lt hstep
      | tail _ hstep ih => exact (h.indexed.place_lt hstep).trans ih
    exact absurd (hless hcycle) (Nat.lt_irrefl _)
  bounded := h.bounded

/-- In every run the books are in order; and the totals are right after every call, and no call
    panics, exactly if the sums fit their words at every admission. -/
theorem pool_totals_iff (blake3 : List UInt8 → Hash) (maxSize : UInt64) (root : Hash)
    (calls : List PoolCall) :
    Booked ((CellPool.new maxSize root).run blake3 calls) ∧
    (((∀ before, before <+: calls → Tallied ((CellPool.new maxSize root).run blake3 before).inner) ∧
        ∀ before call, before ++ [call] <+: calls → ∀ message,
          ((CellPool.new maxSize root).run blake3 before).call blake3 call ≠
            .error (.panicked message)) ↔
      ∀ before admitted, before ++ [.add admitted] <+: calls →
        Room blake3 ((CellPool.new maxSize root).run blake3 before) admitted) := by
  have hkept := @kept_run blake3 maxSize root
  refine ⟨(hkept calls).booked, ?_, ?_⟩
  · rintro ⟨htallied, hcalm⟩ before admitted hin
    have hbefore : before <+: calls := (List.prefix_append before _).trans hin
    refine room_of_tallied (hkept before) (htallied before hbefore) ?_ fun next hok => ?_
    · rintro fault hfault ⟨message, rfl⟩
      exact hcalm before _ hin message hfault
    · have hafter := htallied _ hin
      rwa [run_snoc, hok] at hafter
  · intro hroom
    have htallied : ∀ before, before <+: calls →
        Tallied ((CellPool.new maxSize root).run blake3 before).inner := by
      intro before
      induction before using List.reverseRecOn with
      | nil => exact fun _ => ⟨rfl, rfl, rfl⟩
      | append_singleton before call ih =>
        intro hin
        have hold := ih ((List.prefix_append before _).trans hin)
        rcases run_snoc_cases (CellPool.new maxSize root) before call with
          ⟨_, -, hsame⟩ | ⟨next, hok, hnext⟩
        · exact hsame ▸ hold
        · rw [hnext]
          exact (hold.call (hkept before) fun admitted heq => hroom before admitted (heq ▸ hin)).2 next hok
    refine ⟨htallied, fun before call hin message hpanic => ?_⟩
    have hold := htallied before ((List.prefix_append before _).trans hin)
    exact (hold.call (hkept before) fun admitted heq => hroom before admitted (heq ▸ hin)).1 _ hpanic
      ⟨message, rfl⟩

/-- A cell of the largest capacity. -/
def richCell : CellEntry :=
  CellEntry.fromOutput blankHashes (plainOutput 18446744073709551615) [] 0 false

/-- Two such cells. -/
def richEngine : StateTransitionEngine blankHashes :=
  ⟨(CellStateTree.new.insert (externalCell 0) richCell).insert (externalCell 1) richCell⟩

/-- One of them spent without an output. -/
def richSpend (n : UInt32) : VerifiedStateTransaction :=
  ⟨touching n [externalCell n] [], computeTxid versionHash (touching n [externalCell n] []),
    richEngine.state.root.1, FixedBytes.fill 32 0, 18446744073709551615, 1⟩

/-- Two fees that do not fit a word together: the total stays at its largest value, the first removal
    takes all of it, and the second panics. -/
theorem saturated_fee_underflows :
    (∀ n ∈ [0, 1], (richEngine.verifyTransaction versionHash (touching n [externalCell n] [])
      ⟨0, false⟩ fun _ _ => .ok 1).1 = .ok (richSpend n)) ∧
    let pool := (CellPool.new 10 richEngine.state.root.1).run versionHash
      [.add (richSpend 0), .add (richSpend 1)]
    pool.inner.txs.map (·.fee) = [18446744073709551615, 18446744073709551615] ∧
      pool.inner.stats.totalFee = 18446744073709551615 ∧ ¬Tallied pool.inner ∧
      (pool.run versionHash [.removePackage (richSpend 0).txid]).call versionHash
        (.removePackage (richSpend 1).txid) =
        .error (.panicked "attempt to subtract with overflow") := by
  refine ⟨?_, ?_⟩
  · rw [List.forall_mem_cons, List.forall_mem_singleton]
    exact ⟨by decide +kernel, by decide +kernel⟩
  intro pool
  have hfees : pool.inner.txs.map (·.fee) = [18446744073709551615, 18446744073709551615] := by
    decide +kernel
  have htotal : pool.inner.stats.totalFee = 18446744073709551615 := by decide +kernel
  refine ⟨hfees, htotal, fun htallied => ?_, by decide +kernel⟩
  have hfee := htallied.fee
  rw [htotal, show (fun entry : PoolEntry => entry.fee.toNat) = UInt64.toNat ∘ (·.fee) from rfl,
    ← List.map_map, hfees] at hfee
  exact absurd hfee (by decide)

end Myelin.Mempool
