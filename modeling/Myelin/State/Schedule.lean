/-
  Executing a scheduled batch.

  A transaction decides by the cells at its FOOTPRINT, the outpoints it consumes or creates, and
  changes no others (`settle_congr`, `get?_settle`).  `apply_transaction` never looks at a cell
  dependency.  Two transactions that no edge of the DAG joins have disjoint footprints: a shared
  input is a double spend, a shared output a shared id, and an output of one that is an input of the
  other an edge.  So they commute, whether they succeed or fail, and `Lib.Confluence` does the rest:
  every order that respects the edges ends with the same cells and the same fee and cycles for
  each transaction (`schedule_confluent`).  The layers, one after the other, are such an order.
-/
import Myelin.Exec.Hazards
import Myelin.Lib.Confluence
import Myelin.State.Conservation

namespace Myelin.State

open Lib Exec

variable {F : Type} [CommGroup F] {hashes : CellHashes F} {blake3 : List UInt8 → Hash}
  {context : StateTransitionContext} {verifier : CellScriptVerifier}

/-- Fee and cycles of a success. -/
def paid : Except StateTransitionError StateTransitionReceipt → Option (UInt64 × UInt64)
  | .ok receipt => some (receipt.fee, receipt.cycles)
  | .error _ => none

/-- Execute one transaction and keep its fee and cycles. -/
def settle (blake3 : List UInt8 → Hash) (context : StateTransitionContext)
    (verifier : CellScriptVerifier) (tx : CellTx) (engine : StateTransitionEngine hashes) :
    Option (UInt64 × UInt64) × StateTransitionEngine hashes :=
  let (result, next) := engine.applyTransaction blake3 tx context verifier
  (paid result, next)

/-- Execute a node of a batch. -/
def settleNode (blake3 : List UInt8 → Hash) (context : StateTransitionContext)
    (verifier : CellScriptVerifier) (txs : List CellTx) (node : NodeId)
    (engine : StateTransitionEngine hashes) :
    Option (UInt64 × UInt64) × StateTransitionEngine hashes :=
  match txs[node]? with
  | some tx => settle blake3 context verifier tx engine
  | none => (none, engine)

/-- The outpoints a transaction consumes or creates; an output without data creates no cell. -/
def footprint (blake3 : List UInt8 → Hash) (tx : CellTx) : List OutPoint :=
  consumedPoints tx ++
    (numberedOutputs tx).map fun output => outputPoint (computeTxid blake3 tx) output.2

/-! ## One transaction -/

lemma resolveInputs_congr {s t : CellStateTree hashes}
    (h : ∀ input ∈ inputs, s.cells.get? input.previousOutput = t.cells.get? input.previousOutput)
    (seen : List OutPoint) (capacity : UInt64) :
    resolveInputs s seen capacity inputs = resolveInputs t seen capacity inputs := by
  induction inputs generalizing seen capacity with
  | nil => rfl
  | cons input rest ih =>
    obtain ⟨hinput, hrest⟩ := List.forall_mem_cons.mp h
    simp only [resolveInputs, hinput, ih hrest]

lemma createEntries_congr {s t : CellStateTree hashes}
    (h : ∀ output ∈ outputs, s.cells.get? (createdCell hashes txid blockNumber isCellbase output).1 =
      t.cells.get? (createdCell hashes txid blockNumber isCellbase output).1) (capacity : UInt64) :
    createEntries s txid blockNumber isCellbase capacity outputs =
      createEntries t txid blockNumber isCellbase capacity outputs := by
  induction outputs generalizing capacity with
  | nil => rfl
  | cons output rest ih =>
    obtain ⟨houtput, hrest⟩ := List.forall_mem_cons.mp h
    simp only [createEntries, houtput, ih hrest]

/-- The decision depends on the cells of the footprint only. -/
lemma applyTransaction_congr {s t : CellStateTree hashes}
    (h : ∀ o ∈ footprint blake3 tx, s.cells.get? o = t.cells.get? o) :
    (applyTransaction blake3 s tx context verifier).map (fun r => (r.1.fee, r.1.cycles)) =
      (applyTransaction blake3 t tx context verifier).map (fun r => (r.1.fee, r.1.cycles)) := by
  have hresolve : resolveInputs s [] 0 tx.inputs = resolveInputs t [] 0 tx.inputs :=
    resolveInputs_congr (fun input hinput =>
      h _ (List.mem_append_left _ (List.mem_map_of_mem hinput))) _ _
  have hcreate : createEntries s (computeTxid blake3 tx) context.blockNumber tx.inputs.isEmpty 0
      (numberedOutputs tx) = createEntries t (computeTxid blake3 tx) context.blockNumber
      tx.inputs.isEmpty 0 (numberedOutputs tx) :=
    createEntries_congr (fun output houtput =>
      h _ (List.mem_append_right _ (List.mem_map.mpr ⟨output, houtput, rfl⟩))) _
  simp only [applyTransaction, hresolve, hcreate]
  -- the trees only show in the roots and in the next state, which the receipt's fee and cycles ignore
  cases ensure (tx.inputs ≠ [] ∨ context.allowCellbase = true)
      StateTransitionError.unauthorizedCellbase with
  | error e => rfl
  | ok =>
    cases resolveInputs t [] 0 tx.inputs with
    | error e => rfl
    | ok resolved =>
      cases createEntries t (computeTxid blake3 tx) context.blockNumber tx.inputs.isEmpty 0
          (numberedOutputs tx) with
      | error e => rfl
      | ok created =>
        obtain ⟨resolved, inputs⟩ := resolved
        obtain ⟨created, outputs⟩ := created
        simp only [bind, Except.bind]
        cases ensure (tx.inputs = [] ∨ outputs ≤ inputs)
            (StateTransitionError.insufficientInputCapacity inputs outputs) with
        | error e => rfl
        | ok => cases (verifier tx resolved).mapError StateTransitionError.scriptVerification <;> rfl

/-- What a transaction writes to an outpoint of its footprint. -/
def written (hashes : CellHashes F) (blake3 : List UInt8 → Hash) (context : StateTransitionContext)
    (tx : CellTx) : SortedMap OutPoint CellEntry :=
  SortedMap.empty.insertAll ((numberedOutputs tx).map
    (createdCell hashes (computeTxid blake3 tx) context.blockNumber tx.inputs.isEmpty))

section Settled

variable {engine other : StateTransitionEngine hashes} {tx : CellTx}

/-- A call of the engine, in terms of the tree. -/
lemma settle_cases (engine : StateTransitionEngine hashes) (tx : CellTx) :
    (settle blake3 context verifier tx engine).1 = none ∧
      (settle blake3 context verifier tx engine).2.state.cells = engine.state.cells ∨
    ∃ next resolved created,
      Applied blake3 engine.state.root.2 next tx context verifier resolved created ∧
      (settle blake3 context verifier tx engine).1 ≠ none ∧
      (settle blake3 context verifier tx engine).2.state.cells = next.cells := by
  unfold settle
  have hcalled := called blake3 engine tx context verifier
  generalize engine.applyTransaction blake3 tx context verifier = result at hcalled
  cases hcalled with
  | refused e after hsame => exact .inl ⟨rfl, hsame.cells⟩
  | applied receipt next happly =>
    obtain ⟨resolved, created, happlied⟩ := applyTransaction_eq_ok happly
    exact .inr ⟨next, resolved, created, happlied, Option.some_ne_none _,
      (SameCells.of_root next).cells⟩

/-- **What a transaction leaves** at an outpoint: its own cell or nothing within the footprint of a
    success, and else what was there. -/
theorem get?_settle (engine : StateTransitionEngine hashes) (tx : CellTx) (o : OutPoint) :
    (settle blake3 context verifier tx engine).2.state.cells.get? o =
      if (settle blake3 context verifier tx engine).1 ≠ none ∧ o ∈ footprint blake3 tx then
        (written hashes blake3 context tx).get? o
      else engine.state.cells.get? o := by
  rcases settle_cases engine tx with ⟨hnone, hcells⟩ | ⟨next, resolved, created, h, hsome, hcells⟩
  · rw [hcells, if_neg fun hboth => hboth.1 hnone]
  · have hbefore : engine.state.root.2.cells = engine.state.cells := (SameCells.of_root _).cells
    have hpoints : created.map (·.1) =
        (numberedOutputs tx).map fun output => outputPoint (computeTxid blake3 tx) output.2 := by
      rw [h.outputs, List.map_map]
      rfl
    rw [hcells, h.cells]
    by_cases ho : o ∈ footprint blake3 tx
    · rw [if_pos ⟨hsome, ho⟩, written, ← h.outputs]
      refine SortedMap.get?_insertAll_congr ?_
      rw [SortedMap.get?_empty]
      by_cases hconsumed : o ∈ resolved.map (·.outpoint)
      · exact SortedMap.get?_eraseAll_of_mem hconsumed
      · rw [SortedMap.get?_eraseAll hconsumed]
        have hcreated : o ∈ created.map (·.1) := by
          rw [hpoints]
          refine (List.mem_append.mp ho).resolve_left fun hmem => hconsumed ?_
          rw [h.inputs]
          exact hmem
        obtain ⟨cell, hcell, rfl⟩ := List.mem_map.mp hcreated
        exact h.fresh cell hcell
    · obtain ⟨hconsumed, hcreated⟩ := not_or.mp fun h => ho (List.mem_append.mpr h)
      rw [if_neg fun hboth => ho hboth.2, SortedMap.get?_insertAll_of_not_mem (hpoints ▸ hcreated),
        SortedMap.get?_eraseAll (by rw [h.inputs]; exact hconsumed), hbefore]

/-- A transaction sees its footprint only. -/
lemma settle_congr
    (h : ∀ o ∈ footprint blake3 tx, engine.state.cells.get? o = other.state.cells.get? o) :
    (settle blake3 context verifier tx engine).1 = (settle blake3 context verifier tx other).1 := by
  have hpaid : ∀ e : StateTransitionEngine hashes, (settle blake3 context verifier tx e).1 =
      if tx.inputs = [] ∧ context.allowCellbase = false then none
      else ((applyTransaction blake3 e.state.root.2 tx context verifier).map
        fun r => (r.1.fee, r.1.cycles)).toOption := by
    intro e
    unfold settle StateTransitionEngine.applyTransaction
    split_ifs with hcellbase
    · rfl
    · cases applyTransaction blake3 e.state.root.2 tx context verifier <;> rfl
  rw [hpaid, hpaid, applyTransaction_congr fun o ho => ?_]
  rw [(SameCells.of_root engine.state).cells, (SameCells.of_root other.state).cells, h o ho]

end Settled

/-! ## Independent transactions -/

/-- Engines with the same live cells. -/
def SameLive (e f : StateTransitionEngine hashes) : Prop := e.state.cells = f.state.cells

lemma sameLive_respected (txs : List CellTx) :
    Respected (settleNode blake3 context verifier txs)
      (SameLive : StateTransitionEngine hashes → StateTransitionEngine hashes → Prop) where
  equivalence := ⟨fun _ => rfl, Eq.symm, Eq.trans⟩
  result node s t h := by
    unfold settleNode
    split
    · exact settle_congr fun o _ => by rw [h]
    · rfl
  next node s t h := by
    unfold settleNode
    split
    · next tx _ =>
      have hsame : (settle blake3 context verifier tx s).1 = (settle blake3 context verifier tx t).1 :=
        settle_congr fun o _ => by rw [h]
      refine SortedMap.ext_get? fun o => ?_
      rw [get?_settle, get?_settle, hsame, h]
    · exact h

lemma settle_commutes (h : (footprint blake3 a).Disjoint (footprint blake3 b))
    (engine : StateTransitionEngine hashes) :
    (settle blake3 context verifier a (settle blake3 context verifier b engine).2).1 =
      (settle blake3 context verifier a engine).1 :=
  settle_congr fun o ho => by
    rw [get?_settle, if_neg fun hboth => h ho hboth.2]

variable {txs : List CellTx}

lemma settleNode_some (h : txs[node]? = some tx) (engine : StateTransitionEngine hashes) :
    settleNode blake3 context verifier txs node engine = settle blake3 context verifier tx engine := by
  rw [settleNode, h]

/-- Nodes of disjoint footprints commute. -/
lemma disjoint_commutes (ha : txs[u]? = some a) (hb : txs[v]? = some b)
    (h : (footprint blake3 a).Disjoint (footprint blake3 b)) :
    Commutes (settleNode blake3 context verifier txs)
      (SameLive : StateTransitionEngine hashes → StateTransitionEngine hashes → Prop) u v := by
  constructor
  · simp only [settleNode_some ha, settleNode_some hb]
    exact settle_commutes h
  · simp only [settleNode_some ha, settleNode_some hb]
    exact settle_commutes h.symm
  · intro s
    simp only [settleNode_some ha, settleNode_some hb]
    refine SortedMap.ext_get? fun o => ?_
    simp only [get?_settle, settle_commutes h, settle_commutes h.symm]
    by_cases hmem : o ∈ footprint blake3 a
    · have hother : o ∉ footprint blake3 b := fun hb => h hmem hb
      simp [hother]
    · simp [hmem]

/-- What an accepted batch leaves without an edge is independent. -/
lemma footprint_disjoint (h : CellDAG.build blake3 txs = .ok dag) (hne : u ≠ v)
    (huv : v ∉ dag.successors u) (hvu : u ∉ dag.successors v) (ha : txs[u]? = some a)
    (hb : txs[v]? = some b) : (footprint blake3 a).Disjoint (footprint blake3 b) := by
  obtain ⟨hids, hconsumed, hscheduled⟩ := build_eq_ok h
  have hproduced : ∀ (tx : CellTx) (o : OutPoint), o ∈ ((numberedOutputs tx).map fun output =>
      outputPoint (computeTxid blake3 tx) output.2) → o ∈ producedPoints blake3 tx := by
    intro tx o ho
    obtain ⟨output, houtput, rfl⟩ := List.mem_map.mp ho
    have hlt := List.snd_lt_of_mem_zipIdx houtput
    rw [List.length_zip] at hlt
    exact List.mem_map.mpr ⟨output.2, List.mem_range.mpr (by omega), rfl⟩
  intro o hoa hob
  rcases List.mem_append.mp hoa with hina | houta <;> rcases List.mem_append.mp hob with hinb | houtb
  · exact not_consumed_twice hconsumed hne ha hb hina hinb
  · exact hvu ((hscheduled.edges v u).mpr ⟨b, a, o, hb, ha, hproduced b o houtb, .inl hina⟩)
  · exact huv ((hscheduled.edges u v).mpr ⟨a, b, o, ha, hb, hproduced a o houta, .inl hinb⟩)
  · have hsame : computeTxid blake3 a = computeTxid blake3 b := by
      rw [← txHash_of_produced (hproduced a o houta), txHash_of_produced (hproduced b o houtb)]
    refine hne ((List.getElem?_inj ?_ hids).mp ?_)
    · rw [List.length_map]
      exact (List.getElem?_eq_some_iff.mp ha).1
    · rw [List.getElem?_map, List.getElem?_map, ha, hb, Option.map_some, Option.map_some, hsame]

/-! ## Schedules -/

/-- All nodes of a DAG, in an order that respects its edges. -/
structure Schedule (dag : CellDAG) (order : List NodeId) : Prop where
  perm : order.Perm (List.range dag.nodeCount)
  respects : order.Pairwise fun u v => ¬u ∈ dag.successors v

/-- The layers one after the other are a schedule. -/
lemma layers_schedule (h : CellDAG.build blake3 txs = .ok dag) :
    Schedule dag dag.layers.flatten := by
  obtain ⟨-, -, hscheduled⟩ := build_eq_ok h
  have hlayered := hscheduled.layered
  refine ⟨hscheduled.count ▸ hlayered.perm, List.pairwise_flatten.mpr ⟨?_, ?_⟩⟩
  · intro layer hlayer
    refine List.pairwise_of_forall_mem_list fun u hu v hv hedge => ?_
    exact hscheduled.not_same_layer (.single hedge) hlayer hv hu
  · refine List.pairwise_iff_getElem.mpr fun i j hi hj hlt u hu v hv hedge => ?_
    have hbound := ((hscheduled.bounded v u) ((hscheduled.edges v u).mp hedge)).1
    obtain ⟨k, earlier, hk, hearlier, hmem⟩ := hlayered.ordered i _
      (List.getElem?_eq_getElem hi) u hu v hbound hedge
    have hsame := hlayered.unique (List.getElem?_eq_getElem hj) hearlier hv hmem
    omega

/-- **Schedule confluence**: from any state, any two orders of an accepted batch that respect the
    edges of its DAG end with the same live cells and root, and every transaction succeeds in both,
    with the same fee and cycles, or in neither.  The layers are one such order. -/
theorem schedule_confluent {txs : List CellTx} {dag : CellDAG}
    (h : CellDAG.build blake3 txs = .ok dag) (context : StateTransitionContext)
    (verifier : CellScriptVerifier) (engine : StateTransitionEngine hashes) :
    Schedule dag dag.layers.flatten ∧
    ∀ first second, Schedule dag first → Schedule dag second →
      let one := runAll (settleNode blake3 context verifier txs) first engine
      let two := runAll (settleNode blake3 context verifier txs) second engine
      one.2.state.cells = two.2.state.cells ∧ one.2.state.root.1 = two.2.state.root.1 ∧
        one.1.Perm two.1 := by
  refine ⟨layers_schedule h, fun first second hfirst hsecond => ?_⟩
  have hagree : Agree SameLive (runAll (settleNode blake3 context verifier txs) first engine)
      (runAll (settleNode blake3 context verifier txs) second engine) := by
    have hnode : ∀ u ∈ first, ∃ tx, txs[u]? = some tx := by
      intro u hu
      have hlt := List.mem_range.mp (hfirst.perm.mem_iff.mp hu)
      rw [(build_eq_ok h).2.2.count] at hlt
      exact ⟨_, List.getElem?_eq_getElem hlt⟩
    refine runAll_confluent (sameLive_respected txs) ?_ ?_ (hfirst.perm.trans hsecond.perm.symm)
      hfirst.respects hsecond.respects engine
    · intro u hu v hv hne huv hvu
      obtain ⟨a, ha⟩ := hnode u hu
      obtain ⟨b, hb⟩ := hnode v hv
      exact disjoint_commutes ha hb (footprint_disjoint h hne huv hvu ha hb)
    · exact hfirst.perm.nodup_iff.mpr List.nodup_range
  exact ⟨hagree.state, by rw [CellStateTree.root_eq, CellStateTree.root_eq, hagree.state],
    hagree.results⟩

/-- One transaction that spends the live cell of `plainEngine`, and one whose input is missing. -/
def spendAndMiss : List CellTx := [touching 0 [externalCell 0] [], touching 1 [externalCell 1] []]

/-- The two may run in either order. -/
theorem schedule_confluent_spend_and_miss :
    let run := runAll (settleNode versionHash ⟨0, false⟩ (fun _ _ => .ok 7) spendAndMiss)
    (run [0, 1] plainEngine).1 = [(0, some (1000, 7)), (1, none)] ∧
      (run [1, 0] plainEngine).1.Perm [(0, some (1000, 7)), (1, none)] := by
  intro run
  have hok : succeeds (CellDAG.build versionHash spendAndMiss) = true := by decide +kernel
  obtain ⟨dag, hdag⟩ := succeeds_iff.mp hok
  have hscheduled := (build_eq_ok hdag).2.2
  have hedge : ∀ u v, v ∉ dag.successors u := by
    intro u v hmem
    obtain ⟨producer, _, o, hproducer, _, ho, _⟩ := (hscheduled.edges u v).mp hmem
    have hnone : producedPoints versionHash producer = [] := by
      rcases List.mem_cons.mp (List.mem_of_getElem? hproducer) with rfl | hlast
      · rfl
      · rw [List.mem_singleton.mp hlast]
        rfl
    exact List.not_mem_nil (hnone ▸ ho)
  have hschedule : ∀ order, order.Perm (List.range 2) → Schedule dag order := fun order hperm =>
    ⟨hscheduled.count ▸ hperm, List.pairwise_of_forall fun u v => hedge v u⟩
  have hfirst : (run [0, 1] plainEngine).1 = [(0, some (1000, 7)), (1, none)] := by decide +kernel
  refine ⟨hfirst, hfirst ▸ ?_⟩
  exact ((schedule_confluent hdag ⟨0, false⟩ (fun _ _ => .ok 7) plainEngine).2 [1, 0] [0, 1]
    (hschedule _ (by decide)) (hschedule _ (by decide))).2.2

end Myelin.State
