/-
  CellDAG: the dependency graph of a batch and its parallel layers.

  `build` walks the batch twice.  The first walk registers which node produces which outpoint; the
  second TOUCHES outpoints, inputs and then cell dependencies of each transaction, and asks for an
  edge from the producer of each outpoint that the batch itself produces.  `build_with_scheduler_plans`
  then asks for an edge between any two nodes whose plans conflict.  An edge is stored once, in both
  directions, and never from a node to itself (`EdgeMaps`).

  `build_eq_ok` says what comes out: the edges are `Feeds` and nothing else, and the layers hold every
  node once with edges to later layers.  `Exec.Plans` adds the conflicts.

  There is no third kind of edge.  In particular a transaction that CONSUMES a cell and one that
  names the cell in `cell_deps` are not joined (`Exec.Hazards`).
-/
import Myelin.Exec.CellTx
import Myelin.Lib.Layers
import Myelin.Lib.SortedMap

namespace Myelin.Exec

open Lib

/-- Node of the transaction DAG. -/
abbrev NodeId := Nat

/-- DAG edge type. -/
inductive DagEdge where
  /-- A produces a cell that B consumes. -/
  | dependency
  /-- A produces a cell that B reads. -/
  | readDep
  deriving DecidableEq

/-- Access mode for conflict detection. -/
inductive AccessMode where
  | read
  | write
  deriving DecidableEq

/-- Conflict entry with access mode. -/
structure ConflictEntry where
  nodeId : NodeId
  mode : AccessMode
  deriving DecidableEq

/-- DAG construction errors. -/
inductive DagError where
  | cycleDetected
  | invalidRWSet (message : String)
  | doubleSpend (outPoint : OutPoint) (firstConsumer secondConsumer : NodeId)
  | duplicateTransaction (txid : FixedBytes 32) (firstNode duplicateNode : NodeId)
  | schedulerPlanCountMismatch (transactions plans : Nat)
  | schedulerPlanTxidMismatch (nodeId : NodeId) (expected actual : FixedBytes 32)
  | invalidSchedulerPlan (message : String)
  deriving DecidableEq

/-! ## What a transaction touches -/

/-- The outpoints a transaction consumes. -/
def consumedPoints (tx : CellTx) : List OutPoint := tx.inputs.map (·.previousOutput)

/-- The outpoints a transaction names in `cell_deps`. -/
def readPoints (tx : CellTx) : List OutPoint := tx.cellDeps.map (·.outPoint)

variable (blake3 : List UInt8 → FixedBytes 32)

/-- The outpoints a transaction creates, numbered as `idx as u32`. -/
def producedPoints (tx : CellTx) : List OutPoint :=
  (List.range tx.outputs.length).map fun index => ⟨computeTxid blake3 tx, UInt32.ofNat index⟩

/-! ## Edges -/

/-- The nodes an edge leads to. -/
def targets (edges : SortedMap NodeId (List (NodeId × DagEdge))) (u : NodeId) : List NodeId :=
  (edges.listAt u).map (·.1)

/-- Adjacency in both directions.  An edge is in both maps or in none, at most once, and joins
    different nodes. -/
structure EdgeMaps where
  edges : SortedMap NodeId (List (NodeId × DagEdge))
  reverseEdges : SortedMap NodeId (List NodeId)
  mirrored : ∀ u v, v ∈ targets edges u ↔ u ∈ reverseEdges.listAt v
  nodup : ∀ u, (targets edges u).Nodup
  nodupReverse : ∀ v, (reverseEdges.listAt v).Nodup
  irreflexive : ∀ u, u ∉ targets edges u

namespace EdgeMaps

/-- No edges. -/
def empty : EdgeMaps where
  edges := .empty
  reverseEdges := .empty
  mirrored := by simp [targets]
  nodup := by simp [targets]
  nodupReverse := by simp
  irreflexive := by simp [targets]

/-- The nodes an edge leads to. -/
def successors (maps : EdgeMaps) (u : NodeId) : List NodeId := targets maps.edges u

/-- The nodes an edge comes from. -/
def predecessors (maps : EdgeMaps) (v : NodeId) : List NodeId := maps.reverseEdges.listAt v

variable {edges : SortedMap NodeId (List (NodeId × DagEdge))} {u v : NodeId} {edge : DagEdge}

lemma targets_push_self : targets (edges.push u (v, edge)) u = targets edges u ++ [v] := by
  simp [targets]

lemma targets_push_ne (h : w ≠ u) : targets (edges.push u (v, edge)) w = targets edges w := by
  rw [targets, SortedMap.listAt_push_ne h, targets]

lemma mem_targets_push :
    x ∈ targets (edges.push u (v, edge)) w ↔ x ∈ targets edges w ∨ w = u ∧ x = v := by
  rcases eq_or_ne w u with rfl | hne
  · simp [targets_push_self]
  · rw [targets_push_ne hne]
    exact (or_iff_left fun h => hne h.1).symm

/-- A new edge between different nodes. -/
def link (maps : EdgeMaps) (u v : NodeId) (edge : DagEdge) (hne : u ≠ v)
    (hnew : v ∉ maps.successors u) : EdgeMaps where
  edges := maps.edges.push u (v, edge)
  reverseEdges := maps.reverseEdges.push v u
  mirrored w x := by
    rw [mem_targets_push, SortedMap.mem_listAt_push, maps.mirrored]
    exact or_congr_right and_comm
  nodup w := by
    rcases eq_or_ne w u with rfl | hw
    · rw [targets_push_self]
      exact List.nodup_append'.mpr ⟨maps.nodup w, List.nodup_singleton _,
        List.disjoint_singleton.mpr hnew⟩
    · rw [targets_push_ne hw]
      exact maps.nodup w
  nodupReverse x := by
    rcases eq_or_ne x v with rfl | hx
    · rw [SortedMap.listAt_push_self]
      exact List.nodup_append'.mpr ⟨maps.nodupReverse x, List.nodup_singleton _,
        List.disjoint_singleton.mpr fun hmem => hnew ((maps.mirrored u x).mpr hmem)⟩
    · rw [SortedMap.listAt_push_ne hx]
      exact maps.nodupReverse x
  irreflexive w := by
    rw [mem_targets_push]
    rintro (hold | ⟨rfl, rfl⟩)
    · exact maps.irreflexive w hold
    · exact hne rfl

/-- Ask for an edge. -/
def addEdge (maps : EdgeMaps) (u v : NodeId) (edge : DagEdge) : Except DagError EdgeMaps :=
  if hself : u = v then
    .error (.invalidRWSet s!"self-dependency for transaction node {u}")
  else if hold : v ∈ maps.successors u then .ok maps
  else .ok (maps.link u v edge hself hold)

variable {maps : EdgeMaps}

lemma addEdge_eq_ok (h : maps.addEdge u v edge = .ok next) (w x : NodeId) :
    x ∈ next.successors w ↔ x ∈ maps.successors w ∨ w = u ∧ x = v := by
  unfold addEdge at h
  split_ifs at h with hself hold
  · cases h
    exact (or_iff_left_of_imp fun ⟨hw, hx⟩ => hw ▸ hx ▸ hold).symm
  · cases h
    exact mem_targets_push

/-- Ask for edges in turn. -/
def addEdges (maps : EdgeMaps) (requests : List (NodeId × NodeId × DagEdge)) :
    Except DagError EdgeMaps :=
  requests.foldlM (fun maps request => maps.addEdge request.1 request.2.1 request.2.2) maps

/-- Whatever was asked for is there, and nothing else. -/
lemma addEdges_eq_ok {maps next : EdgeMaps} {requests : List (NodeId × NodeId × DagEdge)}
    (h : maps.addEdges requests = .ok next) (w x : NodeId) :
    x ∈ next.successors w ↔ x ∈ maps.successors w ∨ ∃ edge, (w, x, edge) ∈ requests := by
  induction requests generalizing maps with
  | nil =>
    obtain rfl := pure_eq_ok.mp h
    simp
  | cons request rest ih =>
    rw [addEdges, List.foldlM_cons, bind_eq_ok] at h
    obtain ⟨middle, hrequest, hrest⟩ := h
    obtain ⟨u, v, kind⟩ := request
    rw [ih hrest, addEdge_eq_ok hrequest, or_assoc]
    simp only [List.mem_cons, Prod.mk.injEq, exists_or]
    refine or_congr_right (or_congr_left ?_)
    exact ⟨fun ⟨hw, hx⟩ => ⟨kind, hw, hx, rfl⟩, fun ⟨_, hw, hx, _⟩ => ⟨hw, hx⟩⟩

/-- The layers of the graph on the nodes below `nodeCount`. -/
def computeLayers (nodeCount : Nat) (maps : EdgeMaps) : Except DagError (List (List NodeId)) :=
  if nodeCount = 0 then .ok []
  else
    (Layers.layers maps.successors
      ((List.range nodeCount).map fun node => (maps.predecessors node).length)).mapError fun
      | .outOfBounds successor => .invalidRWSet s!"successor node {successor} is out of bounds"
      | .tooEarly successor =>
          .invalidRWSet s!"successor node {successor} reached zero in-degree too early"
      | .cycle => .cycleDetected

variable {nodeCount : Nat}

/-- The in-degree counts the edges into a node. -/
lemma length_predecessors (hbound : ∀ u v, v ∈ maps.successors u → u < nodeCount) (v : NodeId) :
    (maps.predecessors v).length = Layers.edgesInto nodeCount maps.successors v := by
  have hcount : ∀ nodes : List NodeId, (nodes.flatMap maps.successors).count v =
      (nodes.filter fun u => v ∈ maps.successors u).length := by
    intro nodes
    induction nodes with
    | nil => rfl
    | cons u rest ih =>
      rw [List.flatMap_cons, List.count_append, ih, List.filter_cons]
      by_cases hedge : v ∈ maps.successors u
      · have hone : (maps.successors u).count v = 1 := List.count_eq_one_of_mem (maps.nodup u) hedge
        rw [hone, if_pos (decide_eq_true hedge), List.length_cons, Nat.add_comm]
      · rw [List.count_eq_zero_of_not_mem hedge, if_neg (by simpa using hedge), Nat.zero_add]
  rw [Layers.edgesInto, hcount]
  refine List.Perm.length_eq ((List.perm_ext_iff_of_nodup (maps.nodupReverse v)
    (List.nodup_range.filter _)).mpr fun u => ?_)
  rw [List.mem_filter, List.mem_range, decide_eq_true_eq, ← maps.mirrored]
  exact ⟨fun hedge => ⟨hbound u v hedge, hedge⟩, And.right⟩

/-- The layers, or a cycle. -/
lemma computeLayers_spec (hnodes : ∀ u v, v ∈ maps.successors u → u < nodeCount ∧ v < nodeCount) :
    (∃ layers, maps.computeLayers nodeCount = .ok layers ∧
      Layers.Tight nodeCount maps.successors layers) ∨
    maps.computeLayers nodeCount = .error .cycleDetected ∧
      ∃ v, Relation.TransGen (fun u v => v ∈ maps.successors u) v v := by
  unfold computeLayers
  split_ifs with hzero
  · subst hzero
    exact .inl ⟨[], rfl, ⟨.refl _, nofun⟩, nofun, .nil⟩
  · have hdegrees : ∀ v < nodeCount, ((List.range nodeCount).map fun node =>
        (maps.predecessors node).length).getD v 0 = Layers.edgesInto nodeCount maps.successors v := by
      intro v hv
      rw [List.getD_eq_getElem?_getD, List.getElem?_map, List.getElem?_range hv, Option.map_some,
        Option.getD_some, length_predecessors fun u v hedge => (hnodes u v hedge).1]
    rcases Layers.layers_spec (by rw [List.length_map, List.length_range]) hdegrees
      fun u v hedge => (hnodes u v hedge).2 with ⟨layers, hlayers, htight⟩ | ⟨hcycle, hpath⟩
    · exact .inl ⟨layers, by rw [hlayers]; rfl, htight⟩
    · exact .inr ⟨by rw [hcycle]; rfl, hpath⟩

lemma computeLayers_tight (hnodes : ∀ u v, v ∈ maps.successors u → u < nodeCount ∧ v < nodeCount)
    (h : maps.computeLayers nodeCount = .ok layers) :
    Layers.Tight nodeCount maps.successors layers := by
  rcases computeLayers_spec hnodes with ⟨_, hlayers, htight⟩ | ⟨hcycle, -⟩
  · cases hlayers.symm.trans h
    exact htight
  · cases hcycle.symm.trans h

/-- **Layering**: the loop ends; there are layers exactly if there is no cycle, and otherwise the
    error says so; the layers are sorted and hold every node once, and the number of a node's layer is
    the length of the longest path to it, so that edges lead to later layers. -/
theorem compute_layers_correct (maps : EdgeMaps) (nodeCount : Nat)
    (hnodes : ∀ u v, v ∈ maps.successors u → u < nodeCount ∧ v < nodeCount) :
    (∃ fuel result, loop (Layers.layerBody nodeCount maps.successors) fuel (.start
      ((List.range nodeCount).map fun node => (maps.predecessors node).length)) = some result) ∧
    ((∃ layers, maps.computeLayers nodeCount = .ok layers) ↔
      ∀ v, ¬Relation.TransGen (fun u v => v ∈ maps.successors u) v v) ∧
    (∀ error, maps.computeLayers nodeCount = .error error → error = .cycleDetected) ∧
    ∀ layers, maps.computeLayers nodeCount = .ok layers →
      layers.flatten.Perm (List.range nodeCount) ∧ (∀ layer ∈ layers, layer.Pairwise (· ≤ ·)) ∧
      (∀ (i : Nat) (layer : List NodeId), layers[i]? = some layer → ∀ v ∈ layer,
        IsGreatest {k | Layers.PathTo (fun u v => v ∈ maps.successors u) k v} i) ∧
      ∀ (i j : Nat) (first second : List NodeId), layers[i]? = some first →
        layers[j]? = some second → ∀ u ∈ first, ∀ v ∈ second, v ∈ maps.successors u → i < j := by
  have hsources : ∀ u v, v ∈ maps.successors u → u < nodeCount := fun u v hedge => (hnodes u v hedge).1
  refine ⟨⟨_, Layers.exists_layers ..⟩, ⟨?_, ?_⟩, ?_, ?_⟩
  · rintro ⟨layers, hlayers⟩
    exact (computeLayers_tight hnodes hlayers).acyclic hsources
  · intro hacyclic
    rcases computeLayers_spec hnodes with ⟨layers, hlayers, -⟩ | ⟨-, v, hpath⟩
    · exact ⟨layers, hlayers⟩
    · exact absurd hpath (hacyclic v)
  · intro error herror
    rcases computeLayers_spec hnodes with ⟨_, hlayers, -⟩ | ⟨hcycle, -⟩
    · cases hlayers.symm.trans herror
    · exact Except.error.inj (herror.symm.trans hcycle)
  · intro layers hlayers
    have htight := computeLayers_tight hnodes hlayers
    have hlongest := fun (i : Nat) (layer : List NodeId) (hlayer : layers[i]? = some layer) v hv =>
      htight.isGreatest hsources hlayer (v := v) hv
    refine ⟨htight.perm, htight.sorted, hlongest, ?_⟩
    intro i j first second hi hj u hu v hv hedge
    exact (hlongest j second hj v hv).2 (Layers.PathTo.step (hlongest i first hi u hu).1 hedge)

/-- A chain and a shortcut over it. -/
theorem compute_layers_correct_shortcut :
    ∃ maps, EdgeMaps.empty.addEdges [(0, 1, .dependency), (1, 2, .dependency), (0, 2, .readDep)] =
      .ok maps ∧ maps.computeLayers 3 = .ok [[0], [1], [2]] ∧
      IsGreatest {k | Layers.PathTo (fun u v => v ∈ maps.successors u) k 2} 2 := by
  refine ⟨_, rfl, rfl, ?_⟩
  refine ((compute_layers_correct _ 3 fun u v hedge => ?_).2.2.2 [[0], [1], [2]] rfl).2.2.1 2 [2] rfl 2
    List.mem_cons_self
  rcases (@addEdges_eq_ok .empty _ [(0, 1, .dependency), (1, 2, .dependency), (0, 2, .readDep)] rfl
    u v).mp hedge with hold | ⟨edge, hmem⟩
  · cases hold
  · simp only [List.mem_cons, Prod.mk.injEq, List.not_mem_nil, or_false] at hmem
    rcases hmem with ⟨rfl, rfl, -⟩ | ⟨rfl, rfl, -⟩ | ⟨rfl, rfl, -⟩ <;> decide


end EdgeMaps

/-! ## The batch -/

/-- Transaction DAG. -/
structure CellDAG where
  nodeCount : Nat
  /-- `edges` and `reverse_edges`. -/
  maps : EdgeMaps
  /-- Conflict domains with the nodes that access them. -/
  conflictHashConflicts : SortedMap (FixedBytes 32) (List ConflictEntry)
  layers : List (List NodeId)

/-- The nodes that depend directly on a node. -/
def CellDAG.successors (dag : CellDAG) (u : NodeId) : List NodeId := dag.maps.successors u

/-- There is a dependency path. -/
def CellDAG.Path (dag : CellDAG) : NodeId → NodeId → Prop :=
  Relation.TransGen fun u v => v ∈ dag.successors u

/-- Transaction ids and producers registered so far. -/
structure Registry where
  txids : SortedMap (FixedBytes 32) NodeId
  producers : SortedMap OutPoint NodeId

/-- Register a transaction: its id must be new. -/
def register (registry : Registry) (numbered : CellTx × NodeId) : Except DagError Registry :=
  let txHash := computeTxid blake3 numbered.1
  match registry.txids.get? txHash with
  | some firstNode => .error (.duplicateTransaction txHash firstNode numbered.2)
  | none => .ok ⟨registry.txids.insert txHash numbered.2,
        registry.producers.insertAll ((producedPoints blake3 numbered.1).map (·, numbered.2))⟩

/-- How a node touches an outpoint. -/
inductive Touch where
  | consume (node : NodeId) (outPoint : OutPoint)
  | read (node : NodeId) (outPoint : OutPoint)

/-- Everything a batch touches, in the order of the source's loops: node by node, inputs first. -/
def touches (txs : List CellTx) : List Touch :=
  txs.zipIdx.flatMap fun numbered =>
    (consumedPoints numbered.1).map (Touch.consume numbered.2) ++
      (readPoints numbered.1).map (Touch.read numbered.2)

/-- The edges a touch asks for. -/
def touchEdges (producers : SortedMap OutPoint NodeId) : Touch → List (NodeId × NodeId × DagEdge)
  | .consume node outPoint => (producers.get? outPoint).toList.map fun p => (p, node, .dependency)
  | .read node outPoint => (producers.get? outPoint).toList.map fun p => (p, node, .readDep)

/-- Ask for the edge from the producer, if the batch has one; a cell is consumed once. -/
def touch (producers : SortedMap OutPoint NodeId) (state : EdgeMaps × SortedMap OutPoint NodeId)
    (t : Touch) : Except DagError (EdgeMaps × SortedMap OutPoint NodeId) := do
  let maps ← state.1.addEdges (touchEdges producers t)
  match t with
  | .consume node outPoint =>
      match state.2.get? outPoint with
      | some firstConsumer => .error (.doubleSpend outPoint firstConsumer node)
      | none => pure (maps, state.2.insert outPoint node)
  | .read _ _ => pure (maps, state.2)

namespace CellDAG

/-- Build the DAG of a batch. -/
def build (txs : List CellTx) : Except DagError CellDAG := do
  let registry ← txs.zipIdx.foldlM (register blake3) ⟨.empty, .empty⟩
  let (maps, _) ← (touches txs).foldlM (touch registry.producers) (.empty, .empty)
  let layers ← maps.computeLayers txs.length
  pure ⟨txs.length, maps, .empty, layers⟩

end CellDAG

/-! ## What the edges are -/

section Built

variable {blake3} {txs : List CellTx}

/-- One transaction produces an outpoint that another consumes or depends on. -/
def Feeds (blake3 : List UInt8 → FixedBytes 32) (txs : List CellTx) (u v : NodeId) : Prop :=
  ∃ producer user outPoint, txs[u]? = some producer ∧ txs[v]? = some user ∧
    outPoint ∈ producedPoints blake3 producer ∧
    (outPoint ∈ consumedPoints user ∨ outPoint ∈ readPoints user)

lemma txHash_of_produced (h : o ∈ producedPoints blake3 tx) : o.txHash = computeTxid blake3 tx := by
  obtain ⟨index, _, rfl⟩ := List.mem_map.mp h
  rfl

variable {producers : SortedMap OutPoint NodeId}

/-- Entering a node as the producer of several outpoints. -/
lemma get?_insertAll_node {points : List OutPoint} :
    (producers.insertAll (points.map (·, node))).get? o = some p ↔
      o ∈ points ∧ p = node ∨ o ∉ points ∧ producers.get? o = some p := by
  induction points generalizing producers with
  | nil => simp [SortedMap.insertAll]
  | cons point rest ih =>
    rw [List.map_cons, SortedMap.insertAll, List.foldl_cons, ← SortedMap.insertAll, ih]
    by_cases hpoint : o = point
    · subst hpoint
      rw [SortedMap.get?_insert_self]
      simp only [List.mem_cons, true_or, true_and, not_true_eq_false, false_and, or_false,
        Option.some.injEq]
      constructor
      · rintro (⟨_, h⟩ | ⟨_, h⟩)
        · exact h
        · exact h.symm
      · intro h
        by_cases hmem : o ∈ rest
        · exact .inl ⟨hmem, h⟩
        · exact .inr ⟨hmem, h.symm⟩
    · rw [SortedMap.get?_insert_ne hpoint]
      simp only [List.mem_cons, hpoint, false_or]

/-- After registration every id is new, and an outpoint's producer is the node that creates it. -/
lemma foldlM_register {numbered : List (CellTx × NodeId)} {registry final : Registry}
    (h : numbered.foldlM (register blake3) registry = .ok final) :
    (numbered.map fun e => computeTxid blake3 e.1).Nodup ∧
    (∀ e ∈ numbered, registry.txids.get? (computeTxid blake3 e.1) = none) ∧
    ∀ o p, final.producers.get? o = some p ↔
      (∃ e ∈ numbered, o ∈ producedPoints blake3 e.1 ∧ p = e.2) ∨
      (∀ e ∈ numbered, o ∉ producedPoints blake3 e.1) ∧ registry.producers.get? o = some p := by
  induction numbered generalizing registry with
  | nil =>
    obtain rfl := pure_eq_ok.mp h
    simp
  | cons head rest ih =>
    rw [List.foldlM_cons, bind_eq_ok] at h
    obtain ⟨middle, hregister, hrest⟩ := h
    simp only [register] at hregister
    split at hregister
    · cases hregister
    · next hnew =>
      cases hregister
      obtain ⟨hnodup, hunused, hproducers⟩ := ih hrest
      have hother : ∀ e ∈ rest, computeTxid blake3 e.1 ≠ computeTxid blake3 head.1 := by
        intro e he heq
        have hnone := hunused e he
        rw [heq, SortedMap.get?_insert_self] at hnone
        cases hnone
      refine ⟨?_, ?_, ?_⟩
      · refine List.nodup_cons.mpr ⟨fun hmem => ?_, hnodup⟩
        obtain ⟨e, he, heq⟩ := List.mem_map.mp hmem
        exact hother e he heq
      · refine List.forall_mem_cons.mpr ⟨hnew, fun e he => ?_⟩
        rw [← hunused e he]
        exact (SortedMap.get?_insert_ne (hother e he)).symm
      · intro o p
        rw [hproducers, get?_insertAll_node, List.exists_mem_cons_iff, List.forall_mem_cons]
        constructor
        · rintro (h | ⟨hnone, ⟨hhead, rfl⟩ | ⟨hhead, hold⟩⟩)
          · exact .inl (.inr h)
          · exact .inl (.inl ⟨hhead, rfl⟩)
          · exact .inr ⟨⟨hhead, hnone⟩, hold⟩
        · rintro ((⟨hhead, rfl⟩ | h) | ⟨⟨hhead, hnone⟩, hold⟩)
          · -- no later transaction has this id, so none creates the outpoint again
            refine .inr ⟨fun e he hmem => hother e he ?_, .inl ⟨hhead, rfl⟩⟩
            rw [← txHash_of_produced hmem, txHash_of_produced hhead]
          · exact .inl h
          · exact .inr ⟨hnone, .inr ⟨hhead, hold⟩⟩

lemma addEdges_append {maps : EdgeMaps} :
    maps.addEdges (first ++ second) = .ok next ↔
      ∃ middle, maps.addEdges first = .ok middle ∧ middle.addEdges second = .ok next := by
  rw [EdgeMaps.addEdges, List.foldlM_append, bind_eq_ok]
  rfl

/-- The outpoint a touch consumes. -/
def Touch.consumed : Touch → Option OutPoint
  | .consume _ outPoint => some outPoint
  | .read _ _ => none

/-- The second walk asks for the edges of all touches, and no cell is consumed twice. -/
lemma foldlM_touch {list : List Touch} {state final : EdgeMaps × SortedMap OutPoint NodeId}
    (h : list.foldlM (touch producers) state = .ok final) :
    state.1.addEdges (list.flatMap (touchEdges producers)) = .ok final.1 ∧
    (list.filterMap Touch.consumed).Nodup ∧
    ∀ o ∈ list.filterMap Touch.consumed, state.2.get? o = none := by
  induction list generalizing state with
  | nil =>
    obtain rfl := pure_eq_ok.mp h
    exact ⟨rfl, List.nodup_nil, by simp⟩
  | cons t rest ih =>
    rw [List.foldlM_cons, bind_eq_ok] at h
    obtain ⟨middle, htouch, hrest⟩ := h
    obtain ⟨hedges, hnodup, hfree⟩ := ih hrest
    rw [touch, bind_eq_ok] at htouch
    obtain ⟨maps, hmaps, hmiddle⟩ := htouch
    cases t with
    | read node outPoint =>
      obtain rfl := pure_eq_ok.mp hmiddle
      exact ⟨addEdges_append.mpr ⟨maps, hmaps, hedges⟩, hnodup, hfree⟩
    | consume node outPoint =>
      simp only at hmiddle
      split at hmiddle
      · cases hmiddle
      · next hunspent =>
        obtain rfl := pure_eq_ok.mp hmiddle
        have hother : ∀ o ∈ rest.filterMap Touch.consumed, o ≠ outPoint := by
          rintro o ho rfl
          have hnone := hfree o ho
          rw [SortedMap.get?_insert_self] at hnone
          cases hnone
        refine ⟨addEdges_append.mpr ⟨maps, hmaps, hedges⟩, ?_, ?_⟩
        · exact List.nodup_cons.mpr ⟨fun hmem => hother _ hmem rfl, hnodup⟩
        · refine List.forall_mem_cons.mpr ⟨hunspent, fun o ho => ?_⟩
          rw [← hfree o ho]
          exact (SortedMap.get?_insert_ne (hother o ho)).symm

lemma consumed_touches (txs : List CellTx) :
    (touches txs).filterMap Touch.consumed = txs.flatMap consumedPoints := by
  have hone : ∀ numbered : CellTx × NodeId,
      ((consumedPoints numbered.1).map (Touch.consume numbered.2) ++
        (readPoints numbered.1).map (Touch.read numbered.2)).filterMap Touch.consumed =
      consumedPoints numbered.1 := by
    intro numbered
    rw [List.filterMap_append, List.filterMap_map, List.filterMap_map]
    have hconsume : Touch.consumed ∘ Touch.consume numbered.2 = some := rfl
    have hread : Touch.consumed ∘ Touch.read numbered.2 = fun _ => none := rfl
    rw [hconsume, hread, List.filterMap_some, List.filterMap_none, List.append_nil]
  rw [touches, List.filterMap_flatMap]
  simp only [hone]
  conv_rhs => rw [← List.zipIdx_map_fst 0 txs, List.flatMap_map]

lemma mem_touchEdges :
    (∃ edge, (u, v, edge) ∈ (touches txs).flatMap (touchEdges producers)) ↔
      ∃ user outPoint, txs[v]? = some user ∧ producers.get? outPoint = some u ∧
        (outPoint ∈ consumedPoints user ∨ outPoint ∈ readPoints user) := by
  simp only [touches, List.mem_flatMap, List.mem_append, List.mem_map, Prod.exists,
    List.mem_zipIdx_iff_getElem?]
  constructor
  · rintro ⟨edge, t, ⟨user, node, huser, ⟨o, ho, rfl⟩ | ⟨o, ho, rfl⟩⟩, hmem⟩
    all_goals
      simp only [touchEdges, List.mem_map, Option.mem_toList, Prod.mk.injEq] at hmem
      obtain ⟨p, hp, rfl, rfl, -⟩ := hmem
    · exact ⟨user, o, huser, hp, .inl ho⟩
    · exact ⟨user, o, huser, hp, .inr ho⟩
  · rintro ⟨user, o, huser, hp, ho | ho⟩
    · refine ⟨.dependency, .consume v o, ⟨user, v, huser, .inl ⟨o, ho, rfl⟩⟩, ?_⟩
      simp [touchEdges, hp]
    · refine ⟨.readDep, .read v o, ⟨user, v, huser, .inr ⟨o, ho, rfl⟩⟩, ?_⟩
      simp [touchEdges, hp]

/-- A DAG whose edges are `edge`, with layers that respect them. -/
structure Scheduled (txs : List CellTx) (edge : NodeId → NodeId → Prop) (dag : CellDAG) : Prop where
  count : dag.nodeCount = txs.length
  edges : ∀ u v, v ∈ dag.successors u ↔ edge u v
  bounded : ∀ u v, edge u v → u < txs.length ∧ v < txs.length
  layered : Layers.Layered txs.length dag.successors dag.layers

lemma Feeds.bounded (h : Feeds blake3 txs u v) : u < txs.length ∧ v < txs.length := by
  obtain ⟨producer, user, _, hu, hv, _⟩ := h
  exact ⟨(List.getElem?_eq_some_iff.mp hu).1, (List.getElem?_eq_some_iff.mp hv).1⟩

/-- **What `build` accepts**: distinct ids, every cell consumed once; and what it returns. -/
theorem build_eq_ok (h : CellDAG.build blake3 txs = .ok dag) :
    (txs.map (computeTxid blake3)).Nodup ∧ (txs.flatMap consumedPoints).Nodup ∧
    Scheduled txs (Feeds blake3 txs) dag := by
  simp only [CellDAG.build, eq_ok, Prod.exists] at h
  obtain ⟨registry, hregister, maps, consumers, htouch, layers, hlayers, rfl⟩ := h
  obtain ⟨hids, -, hproducers⟩ := foldlM_register hregister
  obtain ⟨hedges, hconsumed, -⟩ := foldlM_touch htouch
  have hfeeds : ∀ u v, v ∈ maps.successors u ↔ Feeds blake3 txs u v := by
    intro u v
    rw [EdgeMaps.addEdges_eq_ok hedges, mem_touchEdges, or_iff_right (by exact List.not_mem_nil)]
    simp only [hproducers, SortedMap.get?_empty, reduceCtorEq, and_false, or_false, Prod.exists,
      List.mem_zipIdx_iff_getElem?]
    constructor
    · rintro ⟨user, o, huser, ⟨producer, node, hproducer, ho, rfl⟩, htouches⟩
      exact ⟨producer, user, o, hproducer, huser, ho, htouches⟩
    · rintro ⟨producer, user, o, hproducer, huser, ho, htouches⟩
      exact ⟨user, o, huser, ⟨producer, u, hproducer, ho, rfl⟩, htouches⟩
  refine ⟨?_, consumed_touches txs ▸ hconsumed, rfl, hfeeds, fun u v => Feeds.bounded, ?_⟩
  · rw [← List.zipIdx_map_fst 0 txs, List.map_map]
    exact hids
  · exact (EdgeMaps.computeLayers_tight (fun u v hedge => ((hfeeds u v).mp hedge).bounded)
      hlayers).toLayered

lemma Scheduled.counted (h : Scheduled txs edge dag) (hpath : dag.Path u v) :
    Relation.TransGen (fun a b => a < txs.length ∧ b ∈ dag.successors a) u v :=
  Relation.TransGen.mono (fun a b hedge => ⟨(h.bounded a b ((h.edges a b).mp hedge)).1, hedge⟩) _ _
    hpath

/-- Nodes joined by a path are in different layers. -/
lemma Scheduled.not_same_layer (h : Scheduled txs edge dag) (hpath : dag.Path u v)
    (hlayer : layer ∈ dag.layers) (hu : u ∈ layer) : v ∉ layer :=
  h.layered.not_same_layer (h.counted hpath) hlayer hu

end Built

end Myelin.Exec
