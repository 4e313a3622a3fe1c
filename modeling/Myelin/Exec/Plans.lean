/-
  Typed conflict domains on top of the CellDAG.

  A `SchedulerPlan` says which conflict domains a transaction accesses and how; it is bound to the
  transaction by its id and holds at most one access for each domain, `write` dominating.
  `build_with_scheduler_plans` enters all plans under their domains, walks the PAIRS of entries of
  each domain and asks for an edge unless both only read.  `can_parallel` decides the same question
  for two access lists alone; both come down to `Clash`.

    - `mem_conflictEdges`: the pairs the walk asks for are the clashing pairs, lower node first;
    - `canParallel_iff`: `can_parallel` is the absence of a clash, also on lists with repeated domains;
    - `conflict_scheduling`: so the two agree on every accepted batch.
-/
import Myelin.Exec.Dag

namespace Myelin.Exec

open Lib
open FixedBytes (fill)

variable (blake3 : List UInt8 → FixedBytes 32) {entry : ConflictEntry}

/-- Write dominates. -/
def AccessMode.join : AccessMode → AccessMode → AccessMode
  | .read, mode => mode
  | .write, _ => .write

/-- One access more, at most one for each conflict domain. -/
def aggregate (accesses : SortedMap (FixedBytes 32) AccessMode) (access : FixedBytes 32 × AccessMode) :
    SortedMap (FixedBytes 32) AccessMode :=
  accesses.insert access.1 (((accesses.get? access.1).getD .read).join access.2)

/-- Scheduler accesses bound to one raw transaction. -/
structure SchedulerPlan where
  txid : FixedBytes 32
  /-- At most one access for each conflict domain, sorted. -/
  accesses : SortedMap (FixedBytes 32) AccessMode

namespace SchedulerPlan

/-- A plan from resolved conflict domains. -/
def new (tx : CellTx) (accesses : List (FixedBytes 32 × AccessMode)) :
    Except DagError SchedulerPlan := do
  let aggregated ← accesses.foldlM (fun aggregated access => do
    ensure (access.1 ≠ fill 32 0) (DagError.invalidSchedulerPlan "zero conflict hash")
    pure (aggregate aggregated access)) SortedMap.empty
  pure ⟨computeTxid blake3 tx, aggregated⟩

/-- A plan without typed metadata. -/
def empty (tx : CellTx) : SchedulerPlan :=
  ⟨computeTxid blake3 tx, .empty⟩

end SchedulerPlan

/-- Enter a plan's accesses under its node. -/
def enter (conflicts : SortedMap (FixedBytes 32) (List ConflictEntry))
    (numbered : SchedulerPlan × NodeId) : SortedMap (FixedBytes 32) (List ConflictEntry) :=
  numbered.1.accesses.entries.foldl
    (fun conflicts access => conflicts.push access.1 ⟨numbered.2, access.2⟩) conflicts

/-- Check that a plan is bound to its transaction, and enter it. -/
def bindPlan (conflicts : SortedMap (FixedBytes 32) (List ConflictEntry))
    (numbered : (CellTx × SchedulerPlan) × NodeId) :
    Except DagError (SortedMap (FixedBytes 32) (List ConflictEntry)) := do
  let actualTxid := computeTxid blake3 numbered.1.1
  ensure (numbered.1.2.txid = actualTxid)
    (.schedulerPlanTxidMismatch numbered.2 actualTxid numbered.1.2.txid)
  pure (enter conflicts (numbered.1.2, numbered.2))

/-- Pairs of list entries, the earlier one first. -/
def pairs {α : Type} : List α → List (α × α)
  | [] => []
  | a :: rest => rest.map (a, ·) ++ pairs rest

/-- The edge between two accesses of one domain: none between reads, else to the higher node. -/
def conflictEdge (pair : ConflictEntry × ConflictEntry) : Option (NodeId × NodeId × DagEdge) :=
  if pair.1.mode = .read ∧ pair.2.mode = .read then none
  else if pair.1.nodeId < pair.2.nodeId then some (pair.1.nodeId, pair.2.nodeId, .dependency)
  else some (pair.2.nodeId, pair.1.nodeId, .dependency)

/-- All edges the conflict rules ask for. -/
def conflictEdges (conflicts : SortedMap (FixedBytes 32) (List ConflictEntry)) :
    List (NodeId × NodeId × DagEdge) :=
  conflicts.entries.flatMap fun domain => (pairs domain.2).filterMap conflictEdge

namespace CellDAG

/-- Build the DAG of a batch with typed conflict rules. -/
def buildWithSchedulerPlans (txs : List CellTx) (plans : List SchedulerPlan) :
    Except DagError CellDAG := do
  ensure (txs.length = plans.length) (.schedulerPlanCountMismatch txs.length plans.length)
  let dag ← build blake3 txs
  let conflicts ← (txs.zip plans).zipIdx.foldlM (bindPlan blake3) .empty
  let maps ← dag.maps.addEdges (conflictEdges conflicts)
  let layers ← maps.computeLayers dag.nodeCount
  pure ⟨dag.nodeCount, maps, conflicts, layers⟩

/-- Whether two transactions may share a layer, by their accesses. -/
def canParallel (accessesA accessesB : List (FixedBytes 32 × AccessMode)) : Bool :=
  let modes := accessesA.foldl aggregate .empty
  accessesB.all fun access =>
    match modes.get? access.1 with
    | some mode => !(mode = .write || access.2 = .write)
    | none => true

end CellDAG

/-! ## Clashing accesses -/

/-- Two access lists share a domain that one of them writes. -/
def Clash (a b : List (FixedBytes 32 × AccessMode)) : Prop :=
  ∃ domain modeA modeB, (domain, modeA) ∈ a ∧ (domain, modeB) ∈ b ∧
    (modeA = .write ∨ modeB = .write)

variable {blake3} {a b : List (FixedBytes 32 × AccessMode)}

lemma Clash.symm (h : Clash a b) : Clash b a := by
  obtain ⟨domain, modeA, modeB, ha, hb, hwrite⟩ := h
  exact ⟨domain, modeB, modeA, hb, ha, hwrite.symm⟩

@[simp] lemma AccessMode.join_eq_write {a b : AccessMode} :
    a.join b = .write ↔ a = .write ∨ b = .write := by
  cases a <;> simp [AccessMode.join]

variable {accesses : SortedMap (FixedBytes 32) AccessMode} {access : FixedBytes 32 × AccessMode}
  {domain : FixedBytes 32}

/-- A domain is written if it was, or if the access writes it. -/
lemma get?_aggregate_write :
    (aggregate accesses access).get? domain = some .write ↔
      accesses.get? domain = some .write ∨ (domain, .write) = access := by
  obtain ⟨key, mode⟩ := access
  rcases eq_or_ne domain key with rfl | hne
  · rw [aggregate, SortedMap.get?_insert_self, Option.some.injEq, AccessMode.join_eq_write]
    have hdefault : (accesses.get? domain).getD .read = .write ↔
        accesses.get? domain = some .write := by
      cases accesses.get? domain <;> simp
    simp [hdefault, eq_comm]
  · rw [aggregate, SortedMap.get?_insert_ne hne]
    simp [hne]

lemma get?_aggregate_none :
    (aggregate accesses access).get? domain = none ↔
      accesses.get? domain = none ∧ access.1 ≠ domain := by
  rcases eq_or_ne domain access.1 with rfl | hne
  · rw [aggregate, SortedMap.get?_insert_self]
    simp
  · rw [aggregate, SortedMap.get?_insert_ne hne]
    simp [hne.symm]

variable {list : List (FixedBytes 32 × AccessMode)}

/-- Aggregation keeps which domains are written. -/
lemma get?_foldl_write :
    (list.foldl aggregate accesses).get? domain = some .write ↔
      accesses.get? domain = some .write ∨ (domain, .write) ∈ list := by
  induction list generalizing accesses with
  | nil => simp
  | cons access rest ih => rw [List.foldl_cons, ih, get?_aggregate_write, List.mem_cons, or_assoc]

/-- Aggregation keeps which domains are accessed. -/
lemma get?_foldl_none :
    (list.foldl aggregate accesses).get? domain = none ↔
      accesses.get? domain = none ∧ ∀ access ∈ list, access.1 ≠ domain := by
  induction list generalizing accesses with
  | nil => simp
  | cons access rest ih =>
    rw [List.foldl_cons, ih, get?_aggregate_none, List.forall_mem_cons, and_assoc]

/-- A clash is a clash of the aggregated accesses. -/
lemma clash_aggregated : Clash (a.foldl aggregate .empty).entries b ↔ Clash a b := by
  have hwrite : ∀ domain, (domain, AccessMode.write) ∈ (a.foldl aggregate .empty).entries ↔
      (domain, AccessMode.write) ∈ a := by
    intro domain
    rw [← SortedMap.get?_eq_some, get?_foldl_write]
    simp
  have hkey : ∀ domain, (∃ mode, (domain, mode) ∈ (a.foldl aggregate .empty).entries) ↔
      ∃ mode, (domain, mode) ∈ a := by
    intro domain
    simp only [← SortedMap.get?_eq_some]
    rw [← Option.isSome_iff_exists, ← Option.ne_none_iff_isSome, ne_eq, get?_foldl_none]
    simp only [SortedMap.get?_empty, true_and, not_forall, not_not, exists_prop]
    exact ⟨fun ⟨access, hmem, hkey⟩ => ⟨access.2, hkey ▸ hmem⟩, fun ⟨mode, hmem⟩ => ⟨_, hmem, rfl⟩⟩
  constructor
  · rintro ⟨domain, modeA, modeB, ha, hb, rfl | rfl⟩
    · exact ⟨domain, _, modeB, (hwrite domain).mp ha, hb, .inl rfl⟩
    · obtain ⟨mode, hmode⟩ := (hkey domain).mp ⟨modeA, ha⟩
      exact ⟨domain, mode, _, hmode, hb, .inr rfl⟩
  · rintro ⟨domain, modeA, modeB, ha, hb, rfl | rfl⟩
    · exact ⟨domain, _, modeB, (hwrite domain).mpr ha, hb, .inl rfl⟩
    · obtain ⟨mode, hmode⟩ := (hkey domain).mpr ⟨modeA, ha⟩
      exact ⟨domain, mode, _, hmode, hb, .inr rfl⟩

/-- **What `can_parallel` decides.** -/
theorem canParallel_iff : CellDAG.canParallel a b = true ↔ ¬Clash a b := by
  rw [← clash_aggregated, CellDAG.canParallel, List.all_eq_true]
  constructor
  · rintro hall ⟨domain, modeA, modeB, ha, hb, hwrite⟩
    have hone := hall (domain, modeB) hb
    rw [SortedMap.get?_eq_some.mpr ha] at hone
    rcases hwrite with rfl | rfl <;> simp at hone
  · rintro hnone ⟨domain, modeB⟩ hb
    split
    · next modeA ha =>
      have hread : ¬(modeA = .write ∨ modeB = .write) := fun hwrite =>
        hnone ⟨domain, modeA, modeB, SortedMap.get?_eq_some.mp ha, hb, hwrite⟩
      simpa [not_or] using hread
    · rfl

/-- A plan holds its aggregated accesses. -/
lemma SchedulerPlan.new_eq_ok {accesses : List (FixedBytes 32 × AccessMode)}
    {plan : SchedulerPlan} (h : SchedulerPlan.new blake3 tx accesses = .ok plan) :
    plan.accesses = accesses.foldl aggregate .empty := by
  have hfold : ∀ (list : List (FixedBytes 32 × AccessMode)) (start final),
      list.foldlM (fun aggregated access => do
        ensure (access.1 ≠ fill 32 0) (DagError.invalidSchedulerPlan "zero conflict hash")
        pure (aggregate aggregated access)) start = .ok final → final = list.foldl aggregate start := by
    intro list
    induction list with
    | nil => intro start final h; exact (pure_eq_ok.mp h).symm
    | cons access rest ih =>
      intro start final h
      simp only [List.foldlM_cons, eq_ok] at h
      obtain ⟨_, ⟨-, rfl⟩, hrest⟩ := h
      exact ih _ _ hrest
  simp only [SchedulerPlan.new, eq_ok] at h
  obtain ⟨aggregated, haggregated, rfl⟩ := h
  exact hfold _ _ _ haggregated

/-! ## The pairwise walk -/

/-- In a list ordered by `R`, the pairs are the related entries. -/
lemma mem_pairs {α : Type} {R : α → α → Prop} (hasymm : ∀ a b, R a b → ¬R b a) {list : List α}
    (h : list.Pairwise R) {a b : α} : (a, b) ∈ pairs list ↔ a ∈ list ∧ b ∈ list ∧ R a b := by
  induction list with
  | nil => simp [pairs]
  | cons head rest ih =>
    obtain ⟨hhead, hrest⟩ := List.pairwise_cons.mp h
    rw [pairs, List.mem_append, ih hrest, List.mem_map]
    constructor
    · rintro (⟨_, hb, heq⟩ | ⟨ha, hb, hR⟩)
      · obtain ⟨rfl, rfl⟩ := Prod.mk.inj heq
        exact ⟨List.mem_cons_self, List.mem_cons_of_mem _ hb, hhead _ hb⟩
      · exact ⟨List.mem_cons_of_mem _ ha, List.mem_cons_of_mem _ hb, hR⟩
    · rintro ⟨ha, hb, hR⟩
      rcases List.mem_cons.mp ha with rfl | ha'
      · rcases List.mem_cons.mp hb with rfl | hb'
        · exact absurd hR (hasymm _ _ hR)
        · exact .inl ⟨b, hb', rfl⟩
      · rcases List.mem_cons.mp hb with rfl | hb'
        · exact absurd hR (hasymm _ _ (hhead a ha'))
        · exact .inr ⟨ha', hb', hR⟩

/-- What a plan adds under a domain. -/
def domainEntries (domain : FixedBytes 32) (numbered : SchedulerPlan × NodeId) :
    List ConflictEntry :=
  (numbered.1.accesses.entries.filter fun access => access.1 = domain).map
    fun access => ⟨numbered.2, access.2⟩

lemma mem_domainEntries :
    entry ∈ domainEntries domain numbered ↔
      entry.nodeId = numbered.2 ∧ (domain, entry.mode) ∈ numbered.1.accesses.entries := by
  simp only [domainEntries, List.mem_map, List.mem_filter, decide_eq_true_eq]
  constructor
  · rintro ⟨access, ⟨hmem, rfl⟩, rfl⟩
    exact ⟨rfl, hmem⟩
  · rintro ⟨hnode, hmem⟩
    exact ⟨(domain, entry.mode), ⟨hmem, rfl⟩, by rw [← hnode]⟩

lemma listAt_enter (conflicts : SortedMap (FixedBytes 32) (List ConflictEntry))
    (numbered : SchedulerPlan × NodeId) (domain : FixedBytes 32) :
    (enter conflicts numbered).listAt domain =
      conflicts.listAt domain ++ domainEntries domain numbered := by
  unfold enter domainEntries
  generalize numbered.1.accesses.entries = list
  induction list generalizing conflicts with
  | nil => simp
  | cons access rest ih =>
    rw [List.foldl_cons, ih]
    rcases eq_or_ne domain access.1 with rfl | hne
    · simp
    · simp [SortedMap.listAt_push_ne hne, hne.symm]

lemma listAt_foldl_enter (list : List (SchedulerPlan × NodeId))
    (conflicts : SortedMap (FixedBytes 32) (List ConflictEntry)) (domain : FixedBytes 32) :
    (list.foldl enter conflicts).listAt domain =
      conflicts.listAt domain ++ list.flatMap (domainEntries domain) := by
  induction list generalizing conflicts with
  | nil => simp
  | cons numbered rest ih =>
    rw [List.foldl_cons, ih, listAt_enter, List.flatMap_cons, List.append_assoc]

/-- All plans entered in turn. -/
def entered (plans : List SchedulerPlan) : SortedMap (FixedBytes 32) (List ConflictEntry) :=
  plans.zipIdx.foldl enter .empty

lemma mem_entered :
    entry ∈ (entered plans).listAt domain ↔
      ∃ plan, plans[entry.nodeId]? = some plan ∧ (domain, entry.mode) ∈ plan.accesses.entries := by
  simp only [entered, listAt_foldl_enter, SortedMap.listAt_empty, List.nil_append, List.mem_flatMap,
    mem_domainEntries, Prod.exists, List.mem_zipIdx_iff_getElem?]
  constructor
  · rintro ⟨plan, node, hplan, rfl, hmem⟩
    exact ⟨plan, hplan, hmem⟩
  · rintro ⟨plan, hplan, hmem⟩
    exact ⟨plan, _, hplan, rfl, hmem⟩

/-- The entries of a domain stand in the order of their nodes, one for each node. -/
lemma entered_sorted (plans : List SchedulerPlan) (domain : FixedBytes 32) :
    ((entered plans).listAt domain).Pairwise fun a b => a.nodeId < b.nodeId := by
  rw [entered, listAt_foldl_enter, SortedMap.listAt_empty, List.nil_append, List.pairwise_flatMap]
  constructor
  · -- a plan has one access for each domain
    intro numbered _
    refine List.pairwise_map.mpr ((numbered.1.accesses.sorted.filter _).imp_of_mem ?_)
    intro a b ha hb hlt
    have hsame : a.1 = b.1 := by
      rw [of_decide_eq_true (List.mem_filter.mp ha).2, of_decide_eq_true (List.mem_filter.mp hb).2]
    exact absurd (hsame ▸ hlt) (lt_irrefl _)
  · have hnodes : plans.zipIdx.Pairwise fun a b => a.2 < b.2 := by
      rw [← List.pairwise_map, List.zipIdx_map_snd]
      exact List.pairwise_lt_range'
    refine hnodes.imp fun hlt x hx y hy => ?_
    rw [(mem_domainEntries.mp hx).1, (mem_domainEntries.mp hy).1]
    exact hlt

/-- Two transactions of the batch have clashing plans. -/
def Conflicting (plans : List SchedulerPlan) (u v : NodeId) : Prop :=
  ∃ a b, plans[u]? = some a ∧ plans[v]? = some b ∧ Clash a.accesses.entries b.accesses.entries

/-- **The pairs the walk asks for** are the conflicting ones, from the lower to the higher node. -/
theorem mem_conflictEdges :
    (∃ edge, (u, v, edge) ∈ conflictEdges (entered plans)) ↔ u < v ∧ Conflicting plans u v := by
  have hpairs : ∀ domain (a b : ConflictEntry), (a, b) ∈ pairs ((entered plans).listAt domain) ↔
      a ∈ (entered plans).listAt domain ∧ b ∈ (entered plans).listAt domain ∧ a.nodeId < b.nodeId :=
    fun domain a b => mem_pairs (fun _ _ => Nat.lt_asymm) (entered_sorted plans domain)
  simp only [conflictEdges, List.mem_flatMap, List.mem_filterMap, Prod.exists]
  constructor
  · rintro ⟨edge, domain, entries, hentries, a, b, hpair, hedge⟩
    rw [← SortedMap.get?_eq_some] at hentries
    have hlist : entries = (entered plans).listAt domain := by
      rw [SortedMap.listAt, hentries, Option.getD_some]
    rw [hlist, hpairs] at hpair
    obtain ⟨ha, hb, hlt⟩ := hpair
    obtain ⟨planA, hplanA, hmemA⟩ := mem_entered.mp ha
    obtain ⟨planB, hplanB, hmemB⟩ := mem_entered.mp hb
    simp only [conflictEdge, if_pos hlt] at hedge
    split_ifs at hedge with hread
    obtain ⟨rfl, rfl, -⟩ : a.nodeId = u ∧ b.nodeId = v ∧ _ = edge := by simpa using hedge
    refine ⟨hlt, planA, planB, hplanA, hplanB, domain, a.mode, b.mode, hmemA, hmemB, ?_⟩
    cases hmodeA : a.mode <;> cases hmodeB : b.mode <;> simp_all
  · rintro ⟨hlt, planA, planB, hplanA, hplanB, domain, modeA, modeB, hmemA, hmemB, hwrite⟩
    have ha : (⟨u, modeA⟩ : ConflictEntry) ∈ (entered plans).listAt domain :=
      mem_entered.mpr ⟨planA, hplanA, hmemA⟩
    have hb : (⟨v, modeB⟩ : ConflictEntry) ∈ (entered plans).listAt domain :=
      mem_entered.mpr ⟨planB, hplanB, hmemB⟩
    obtain ⟨entries, hentries⟩ : ∃ entries, (entered plans).get? domain = some entries := by
      cases hget : (entered plans).get? domain with
      | none =>
        rw [SortedMap.listAt, hget] at ha
        cases ha
      | some entries => exact ⟨entries, rfl⟩
    have hlist : (entered plans).listAt domain = entries := by
      rw [SortedMap.listAt, hentries, Option.getD_some]
    refine ⟨.dependency, domain, entries, SortedMap.get?_eq_some.mp hentries, ⟨u, modeA⟩, ⟨v, modeB⟩,
      hlist ▸ (hpairs ..).mpr ⟨ha, hb, hlt⟩, ?_⟩
    have hnotRead : ¬(modeA = .read ∧ modeB = .read) := by
      rintro ⟨rfl, rfl⟩
      simp at hwrite
    simp only [conflictEdge, if_neg hnotRead, if_pos hlt]

/-! ## The batch with its plans -/

section Built

variable {txs : List CellTx} {plans : List SchedulerPlan}

lemma foldlM_bindPlan {list : List ((CellTx × SchedulerPlan) × NodeId)}
    (h : list.foldlM (bindPlan blake3) conflicts = .ok final) :
    final = (list.map fun numbered => (numbered.1.2, numbered.2)).foldl enter conflicts := by
  induction list generalizing conflicts with
  | nil => exact (pure_eq_ok.mp h).symm
  | cons numbered rest ih =>
    simp only [List.foldlM_cons, eq_ok, bindPlan] at h
    obtain ⟨_, ⟨-, rfl⟩, hrest⟩ := h
    exact ih hrest

/-- The edges of a batch with plans: dependencies, and conflicts from the lower to the higher node. -/
def Ordered (blake3 : List UInt8 → FixedBytes 32) (txs : List CellTx) (plans : List SchedulerPlan)
    (u v : NodeId) : Prop :=
  Feeds blake3 txs u v ∨ u < v ∧ Conflicting plans u v

/-- **What `build_with_scheduler_plans` accepts and returns.** -/
theorem buildWithSchedulerPlans_eq_ok {dag : CellDAG}
    (h : CellDAG.buildWithSchedulerPlans blake3 txs plans = .ok dag) :
    txs.length = plans.length ∧ (txs.flatMap consumedPoints).Nodup ∧
    dag.conflictHashConflicts = entered plans ∧ Scheduled txs (Ordered blake3 txs plans) dag := by
  simp only [CellDAG.buildWithSchedulerPlans, eq_ok] at h
  obtain ⟨hlength, base, hbase, conflicts, hconflicts, maps, hmaps, layers, hlayers, rfl⟩ := h
  obtain ⟨-, hconsumed, hscheduled⟩ := build_eq_ok hbase
  have hentered : conflicts = entered plans := by
    have hplans : ((txs.zip plans).zipIdx.map fun numbered => (numbered.1.2, numbered.2)) =
        plans.zipIdx := by
      have hmap := List.zipIdx_map (l := txs.zip plans) (k := 0) (f := Prod.snd)
      rw [List.map_snd_zip hlength.ge] at hmap
      rw [hmap]
      rfl
    rw [foldlM_bindPlan hconflicts, hplans]
    rfl
  subst hentered
  have hedges : ∀ u v, v ∈ maps.successors u ↔ Ordered blake3 txs plans u v := by
    intro u v
    rw [EdgeMaps.addEdges_eq_ok hmaps, mem_conflictEdges]
    exact or_congr_left (hscheduled.edges u v)
  have hbounded : ∀ u v, Ordered blake3 txs plans u v → u < txs.length ∧ v < txs.length := by
    rintro u v (hfeeds | ⟨_, a, b, ha, hb, _⟩)
    · exact hfeeds.bounded
    · rw [hlength]
      exact ⟨(List.getElem?_eq_some_iff.mp ha).1, (List.getElem?_eq_some_iff.mp hb).1⟩
  refine ⟨hlength, hconsumed, rfl, hscheduled.count, hedges, hbounded, ?_⟩
  rw [hscheduled.count] at hlayers
  exact (EdgeMaps.computeLayers_tight (fun u v hedge => hbounded u v ((hedges u v).mp hedge))
    hlayers).toLayered

/-- The conflict rules ask for an edge between two nodes. -/
def CellDAG.ConflictEdge (dag : CellDAG) (u v : NodeId) : Prop :=
  ∃ edge, (u, v, edge) ∈ conflictEdges dag.conflictHashConflicts ∨
    (v, u, edge) ∈ conflictEdges dag.conflictHashConflicts

/-- For two nodes of an accepted batch, `can_parallel` in either order says whether the conflict
    rules ask for an edge. -/
lemma canParallel_iff_not_conflictEdge {dag : CellDAG} {a b : SchedulerPlan}
    (hconflicts : dag.conflictHashConflicts = entered plans) (hlt : u < v) (ha : plans[u]? = some a)
    (hb : plans[v]? = some b) :
    (CellDAG.canParallel a.accesses.entries b.accesses.entries = true ↔ ¬dag.ConflictEdge u v) ∧
    (CellDAG.canParallel b.accesses.entries a.accesses.entries = true ↔ ¬dag.ConflictEdge u v) := by
  have hedge : dag.ConflictEdge u v ↔ Clash a.accesses.entries b.accesses.entries := by
    rw [CellDAG.ConflictEdge, hconflicts, exists_or, mem_conflictEdges, mem_conflictEdges]
    constructor
    · rintro (⟨-, a', b', ha', hb', hclash⟩ | ⟨hgt, -⟩)
      · obtain rfl := Option.some.inj (ha.symm.trans ha')
        obtain rfl := Option.some.inj (hb.symm.trans hb')
        exact hclash
      · exact absurd hgt (Nat.lt_asymm hlt)
    · intro hclash
      exact .inl ⟨hlt, a, b, ha, hb, hclash⟩
  rw [canParallel_iff, canParallel_iff, hedge]
  exact ⟨Iff.rfl, not_congr ⟨Clash.symm, Clash.symm⟩⟩

/-- **Conflict scheduling**: in an accepted batch, transactions with clashing plans are joined by an
    edge from the lower to the higher node and are in different layers; every edge is a conflict or a
    dependency; no cell is consumed twice; and `can_parallel`, on the accesses of two plans or on the
    lists these were made of, says whether the conflict rules ask for an edge, which is then there. -/
theorem conflict_scheduling {dag : CellDAG}
    (h : CellDAG.buildWithSchedulerPlans blake3 txs plans = .ok dag) :
    (∀ u v, u < v → Conflicting plans u v → v ∈ dag.successors u ∧
      ∀ layer ∈ dag.layers, ¬(u ∈ layer ∧ v ∈ layer)) ∧
    (∀ u v, v ∈ dag.successors u → u < v ∧ Conflicting plans u v ∨ Feeds blake3 txs u v) ∧
    (txs.flatMap consumedPoints).Nodup ∧
    ∀ u v a b, u < v → plans[u]? = some a → plans[v]? = some b →
      (CellDAG.canParallel a.accesses.entries b.accesses.entries = true ↔ ¬dag.ConflictEdge u v) ∧
      (CellDAG.canParallel b.accesses.entries a.accesses.entries = true ↔ ¬dag.ConflictEdge u v) ∧
      (v ∈ dag.successors u ↔ dag.ConflictEdge u v ∨ Feeds blake3 txs u v) ∧
      ∀ txA txB rawA rawB, SchedulerPlan.new blake3 txA rawA = .ok a →
        SchedulerPlan.new blake3 txB rawB = .ok b →
        (CellDAG.canParallel rawA rawB = true ↔ ¬dag.ConflictEdge u v) := by
  obtain ⟨-, hconsumed, hconflicts, hscheduled⟩ := buildWithSchedulerPlans_eq_ok h
  refine ⟨fun u v hlt hconflict => ?_, fun u v hedge => ?_, hconsumed, ?_⟩
  · have hedge := (hscheduled.edges u v).mpr (.inr ⟨hlt, hconflict⟩)
    exact ⟨hedge, fun layer hlayer ⟨hu, hv⟩ =>
      hscheduled.not_same_layer (.single hedge) hlayer hu hv⟩
  · exact ((hscheduled.edges u v).mp hedge).symm
  · intro u v a b hlt ha hb
    obtain ⟨hab, hba⟩ := canParallel_iff_not_conflictEdge hconflicts hlt ha hb
    refine ⟨hab, hba, ?_, ?_⟩
    · rw [hscheduled.edges, Ordered, or_comm, CellDAG.ConflictEdge, hconflicts, exists_or,
        mem_conflictEdges, mem_conflictEdges]
      exact or_congr_left (or_iff_left fun hgt => Nat.lt_asymm hlt hgt.1).symm
    · intro txA txB rawA rawB hA hB
      rw [← hab, canParallel_iff, canParallel_iff, SchedulerPlan.new_eq_ok hA,
        SchedulerPlan.new_eq_ok hB, clash_aggregated]
      refine not_congr ⟨fun hclash => ?_, fun hclash => ?_⟩
      · exact (clash_aggregated.mpr hclash.symm).symm
      · exact (clash_aggregated.mp hclash.symm).symm

end Built

/-- Stands in for BLAKE3 in samples: the low byte of the version becomes the id. -/
def versionHash (bytes : List UInt8) : FixedBytes 32 := fill 32 (bytes.getD 16 0)

/-- A transaction that consumes and reads the given cells. -/
def touching (version : UInt32) (consumed read : List OutPoint) : CellTx :=
  ⟨version, consumed.map (⟨·, 0⟩), read.map (⟨·, .code⟩), [], [], [], []⟩

/-- A cell that the batch does not produce. -/
def externalCell (index : UInt32) : OutPoint := ⟨fill 32 9, index⟩

/-- A plan that writes one domain. -/
def writePlan (version : UInt32) : SchedulerPlan :=
  ⟨computeTxid versionHash (touching version [externalCell version] []),
    SortedMap.empty.insert (fill 32 7) .write⟩

theorem conflict_scheduling_two_writers :
    ∃ dag, CellDAG.buildWithSchedulerPlans versionHash
      [touching 0 [externalCell 0] [], touching 1 [externalCell 1] []] [writePlan 0, writePlan 1] =
        .ok dag ∧
      1 ∈ dag.successors 0 ∧ ∀ layer ∈ dag.layers, ¬(0 ∈ layer ∧ 1 ∈ layer) := by
  have hok : succeeds (CellDAG.buildWithSchedulerPlans versionHash
      [touching 0 [externalCell 0] [], touching 1 [externalCell 1] []]
      [writePlan 0, writePlan 1]) = true := by decide +kernel
  obtain ⟨dag, hdag⟩ := succeeds_iff.mp hok
  refine ⟨dag, hdag, (conflict_scheduling hdag).1 0 1 Nat.one_pos ⟨_, _, rfl, rfl, ?_⟩⟩
  exact ⟨fill 32 7, .write, .write, List.mem_singleton.mpr rfl,
    List.mem_singleton.mpr rfl, .inl rfl⟩

end Myelin.Exec
