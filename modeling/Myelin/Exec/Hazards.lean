/-
  Reads and consumptions of one cell in the layers of a CellDAG.

  Two transactions of a batch that touch one outpoint, one of them by creating or consuming it,
  should be joined by a path and so never run in parallel (`HazardFree`).  A producer is joined to
  whoever uses its cells, and a second consumer is refused, so the only pairs left are a transaction
  that CONSUMES a cell and one that names it in `cell_deps`: for these `build` adds no edge.  They are
  in different layers exactly if other edges happen to join them (`hazardFree_iff`), and otherwise
  they may share a layer (`reader_beside_consumer`).
-/
import Myelin.Exec.Plans

namespace Myelin.Exec

open Lib Relation

/-- Two transactions touch one outpoint: one creates or consumes it, the other consumes or reads it. -/
def Hazard (blake3 : List UInt8 → FixedBytes 32) (txs : List CellTx) (u v : NodeId) : Prop :=
  u ≠ v ∧ ∃ a b o, txs[u]? = some a ∧ txs[v]? = some b ∧
    (o ∈ consumedPoints a ∨ o ∈ producedPoints blake3 a) ∧ (o ∈ consumedPoints b ∨ o ∈ readPoints b)

/-- Such transactions are joined by a path and lie in different layers. -/
def HazardFree (blake3 : List UInt8 → FixedBytes 32) (txs : List CellTx) (dag : CellDAG) : Prop :=
  ∀ u v, Hazard blake3 txs u v →
    (dag.Path u v ∨ dag.Path v u) ∧ ∀ layer ∈ dag.layers, ¬(u ∈ layer ∧ v ∈ layer)

/-- Whoever consumes a cell is ordered, one way or the other, against everyone else who reads it. -/
def ReadersOrdered (txs : List CellTx) (edge : NodeId → NodeId → Prop) : Prop :=
  ∀ u v a b o, u ≠ v → txs[u]? = some a → txs[v]? = some b → o ∈ consumedPoints a →
    o ∈ readPoints b → TransGen edge u v ∨ TransGen edge v u

section

variable {blake3 : List UInt8 → FixedBytes 32} {txs : List CellTx} {edge : NodeId → NodeId → Prop}
  {dag : CellDAG}

/-- A cell that is consumed once is consumed by one transaction. -/
lemma not_consumed_twice (h : (txs.flatMap consumedPoints).Nodup) {u v : NodeId} {a b : CellTx}
    {o : OutPoint} (hne : u ≠ v) (ha : txs[u]? = some a) (hb : txs[v]? = some b)
    (hconsumed : o ∈ consumedPoints a) : o ∉ consumedPoints b := by
  obtain ⟨hu, rfl⟩ := List.getElem?_eq_some_iff.mp ha
  obtain ⟨hv, rfl⟩ := List.getElem?_eq_some_iff.mp hb
  have hdisjoint := List.pairwise_iff_getElem.mp (List.nodup_flatMap.mp h).2
  rcases Nat.lt_or_gt_of_ne hne with hlt | hgt
  · exact fun hmem => hdisjoint u v hu hv hlt hconsumed hmem
  · exact fun hmem => hdisjoint v u hv hu hgt hmem hconsumed

lemma Scheduled.path_iff (h : Scheduled txs edge dag) : dag.Path u v ↔ TransGen edge u v := by
  have hsame : (fun u v => v ∈ dag.successors u) = edge := by
    funext u v
    exact propext (h.edges u v)
  rw [CellDAG.Path, hsame]

/-- Which pairs the edges leave open, for any set of edges that holds the dependencies. -/
lemma Scheduled.hazardFree_iff (h : Scheduled txs edge dag)
    (hconsumed : (txs.flatMap consumedPoints).Nodup)
    (hfeeds : ∀ u v, Feeds blake3 txs u v → edge u v) :
    HazardFree blake3 txs dag ↔ ReadersOrdered txs edge := by
  constructor
  · intro hfree u v a b o hne ha hb hconsumes hreads
    have hjoined := (hfree u v ⟨hne, a, b, o, ha, hb, .inl hconsumes, .inr hreads⟩).1
    rwa [h.path_iff, h.path_iff] at hjoined
  · rintro hreaders u v ⟨hne, a, b, o, ha, hb, hfirst, hsecond⟩
    have hjoined : dag.Path u v ∨ dag.Path v u := by
      rw [h.path_iff, h.path_iff]
      rcases hfirst with hconsumes | hproduces
      · rcases hsecond with htwice | hreads
        · exact absurd htwice (not_consumed_twice hconsumed hne ha hb hconsumes)
        · exact hreaders u v a b o hne ha hb hconsumes hreads
      · exact .inl (.single (hfeeds u v ⟨a, b, o, ha, hb, hproduces, hsecond⟩))
    refine ⟨hjoined, fun layer hlayer ⟨hu, hv⟩ => ?_⟩
    rcases hjoined with hpath | hpath
    · exact h.not_same_layer hpath hlayer hu hv
    · exact h.not_same_layer hpath hlayer hv hu

end

/-- **Read and consume hazards**: an accepted batch runs no two hazardous transactions in parallel
    exactly if every consumer of a cell is ordered against every other reader of it by the
    dependencies, or with plans by dependencies and conflicts, that the batch has anyway. -/
theorem hazards_joined_iff (blake3 : List UInt8 → FixedBytes 32) (txs : List CellTx) :
    (∀ dag, CellDAG.build blake3 txs = .ok dag →
      (HazardFree blake3 txs dag ↔ ReadersOrdered txs (Feeds blake3 txs))) ∧
    ∀ plans dag, CellDAG.buildWithSchedulerPlans blake3 txs plans = .ok dag →
      (HazardFree blake3 txs dag ↔ ReadersOrdered txs (Ordered blake3 txs plans)) := by
  constructor
  · intro dag h
    obtain ⟨-, hconsumed, hscheduled⟩ := build_eq_ok h
    exact hscheduled.hazardFree_iff hconsumed fun _ _ => id
  · intro plans dag h
    obtain ⟨-, hconsumed, -, hscheduled⟩ := buildWithSchedulerPlans_eq_ok h
    exact hscheduled.hazardFree_iff hconsumed fun _ _ => .inl

/-- A transaction that reads a cell and creates another. -/
def readingProducer : CellTx :=
  ⟨0, [], [⟨externalCell 0, .code⟩], [], [⟨⟨FixedBytes.fill 32 1, 0, []⟩, none, 0⟩], [[]], []⟩

/-- Its reader's output makes the consumer wait. -/
def laterConsumer : CellTx := touching 1 [externalCell 0, ⟨FixedBytes.fill 32 0, 0⟩] []

theorem hazards_joined_iff_produced :
    ∃ dag, CellDAG.build versionHash [readingProducer, laterConsumer] = .ok dag ∧
      HazardFree versionHash [readingProducer, laterConsumer] dag := by
  have hok : succeeds (CellDAG.build versionHash [readingProducer, laterConsumer]) = true := by
    decide +kernel
  obtain ⟨dag, hdag⟩ := succeeds_iff.mp hok
  refine ⟨dag, hdag, ((hazards_joined_iff _ _).1 dag hdag).mpr ?_⟩
  have hfeeds : Feeds versionHash [readingProducer, laterConsumer] 0 1 :=
    ⟨readingProducer, laterConsumer, ⟨FixedBytes.fill 32 0, 0⟩, rfl, rfl, by decide +kernel,
      .inl (by decide +kernel)⟩
  intro u v a b o hne ha hb hconsumes hreads
  match u, v with
  | 0, 0 => exact absurd rfl hne
  | 0, 1 => exact .inl (.single hfeeds)
  | 1, 0 => exact .inr (.single hfeeds)
  | 1, 1 => exact absurd rfl hne
  | _ + 2, _ => cases ha
  | _, _ + 2 => cases hb

/-- One transaction consumes a cell that another names in `cell_deps`; both are in one layer, with
    and without plans. -/
theorem reader_beside_consumer :
    let txs := [touching 0 [externalCell 0] [], touching 1 [externalCell 1] [externalCell 0]]
    (∃ dag, CellDAG.build versionHash txs = .ok dag ∧ dag.layers = [[0, 1]] ∧
      ¬HazardFree versionHash txs dag) ∧
    ∃ dag, CellDAG.buildWithSchedulerPlans versionHash txs
        (txs.map (SchedulerPlan.empty versionHash)) = .ok dag ∧ dag.layers = [[0, 1]] ∧
      ¬HazardFree versionHash txs dag := by
  intro txs
  have hhazard : Hazard versionHash txs 0 1 :=
    ⟨Nat.zero_ne_one, _, _, externalCell 0, rfl, rfl, .inl (by decide +kernel),
      .inr (by decide +kernel)⟩
  have hbeside : ∀ built : Except DagError CellDAG, built.map (·.layers) = .ok [[0, 1]] →
      ∃ dag, built = .ok dag ∧ dag.layers = [[0, 1]] ∧ ¬HazardFree versionHash txs dag := by
    intro built hbuilt
    obtain ⟨dag, hdag, hlayers⟩ := map_eq_ok.mp hbuilt
    refine ⟨dag, hdag, hlayers, fun hfree => ?_⟩
    have hapart := (hfree 0 1 hhazard).2 [0, 1] (hlayers ▸ List.mem_singleton_self _)
    exact hapart ⟨by decide, by decide⟩
  exact ⟨hbeside _ (by decide +kernel), hbeside _ (by decide +kernel)⟩

end Myelin.Exec
