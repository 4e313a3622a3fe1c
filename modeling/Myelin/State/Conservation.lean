/-
  What transactions do to the total live capacity.

  One accepted ordinary transaction should take out its inputs, put in one cell per output and leave
  the difference as the fee (`Conserved`).  `apply_transaction` walks the outputs ZIPPED with their
  data and numbers them with 32-bit words, so this is the case exactly if there is data for every
  output and the numbers do not wrap (`conserved_iff`): surplus outputs are dropped without an error,
  and their capacity goes to the fee.

  Over a run, live capacity and fees paid add up to what was there plus what authorised cellbase
  transactions issued (`run_capacity`).
-/
import Myelin.State.Engine

namespace Myelin.State

open Lib Exec
open FixedBytes (fill)

variable {F : Type} [CommGroup F] {hashes : CellHashes F}

/-- Capacity of some cells. -/
def capacitySum (cells : List (OutPoint × CellEntry)) : Nat :=
  (cells.map (·.2.capacity.toNat)).sum

/-- Capacity of all live cells. -/
def CellStateTree.liveCapacity (t : CellStateTree hashes) : Nat := capacitySum t.cells.entries

/-- The outpoints a transaction names as inputs. -/
def inputPoints (tx : CellTx) : List OutPoint := tx.inputs.map (·.previousOutput)

/-- The outpoint of an output, numbered as `index as u32`. -/
def outputPoint (txid : Hash) (index : Nat) : OutPoint := ⟨txid, UInt32.ofNat index⟩

/-- An ordinary transaction is accounted for in full. -/
structure Conserved (blake3 : List UInt8 → Hash) (before after : CellStateTree hashes) (tx : CellTx)
    (receipt : StateTransitionReceipt) : Prop where
  distinct : (inputPoints tx).Nodup
  live : ∀ o ∈ inputPoints tx, before.cells.get? o ≠ none
  /-- The inputs are gone, and there is one new cell for each entry of `tx.outputs`. -/
  replaced : ∃ created : List (OutPoint × CellEntry),
    created.map (·.1) = (List.range tx.outputs.length).map (outputPoint (computeTxid blake3 tx)) ∧
    created.map (·.2.capacity) = tx.outputs.map (·.capacity) ∧
    (∀ cell ∈ created, before.cells.get? cell.1 = none) ∧
    after.cells.entries.Perm
      (before.cells.entries.filter (fun cell => cell.1 ∉ inputPoints tx) ++ created)
  balanced : capacitySum (before.cells.entries.filter fun cell => cell.1 ∈ inputPoints tx) =
    (tx.outputs.map (·.capacity.toNat)).sum + receipt.fee.toNat
  bounded : capacitySum (before.cells.entries.filter fun cell => cell.1 ∈ inputPoints tx) < 2 ^ 64

/-- There is data for every output, and 32-bit words can number them. -/
def OutputsPaired (tx : CellTx) : Prop :=
  tx.outputs.length ≤ tx.outputsData.length ∧ tx.outputs.length ≤ 2 ^ 32

instance (tx : CellTx) : Decidable (OutputsPaired tx) := inferInstanceAs (Decidable (_ ∧ _))

/-! ## One transaction -/

section Accepted

variable {blake3 : List UInt8 → Hash} {state next : CellStateTree hashes} {tx : CellTx}
  {context : StateTransitionContext} {verifier : CellScriptVerifier}
  {receipt : StateTransitionReceipt} {resolved : List ResolvedStateInput}
  {created : List (OutPoint × CellEntry)}

section

variable (h : Applied blake3 state next tx context verifier resolved created)
include h

/-- The new cells, as far as there are data to pair with. -/
lemma Applied.created_points :
    created.map (·.1) = (List.range (min tx.outputs.length tx.outputsData.length)).map
      (outputPoint (computeTxid blake3 tx)) := by
  have hindices : (numberedOutputs tx).map (·.2) =
      List.range (min tx.outputs.length tx.outputsData.length) := by
    rw [numberedOutputs, List.zipIdx_map_snd, List.length_zip, List.range_eq_range']
  rw [h.outputs, List.map_map, ← hindices, List.map_map]
  rfl

/-- With data for every output, the new cells hold what the outputs say. -/
lemma Applied.created_capacities (hpaired : tx.outputs.length ≤ tx.outputsData.length) :
    created.map (·.2.capacity) = tx.outputs.map (·.capacity) := by
  have houtputs : (numberedOutputs tx).map (fun output => output.1.1) = tx.outputs := by
    have hzip : (numberedOutputs tx).map (·.1) = tx.outputs.zip tx.outputsData := by
      rw [numberedOutputs, List.zipIdx_map_fst]
    have hfst : (tx.outputs.zip tx.outputsData).map (·.1) = tx.outputs := List.map_fst_zip hpaired
    rw [← hzip, List.map_map] at hfst
    exact hfst
  rw [h.outputs, List.map_map]
  conv_rhs => rw [← houtputs, List.map_map]
  rfl

lemma Applied.created_capacity (hpaired : tx.outputs.length ≤ tx.outputsData.length) :
    capacitySum created = (tx.outputs.map (·.capacity.toNat)).sum := by
  have hwords := congrArg (List.map UInt64.toNat) (h.created_capacities hpaired)
  rw [List.map_map, List.map_map] at hwords
  exact congrArg List.sum hwords

/-- The live cells afterwards, as a list. -/
lemma Applied.entries_perm (hfits : tx.outputs.length ≤ 2 ^ 32) :
    next.cells.entries.Perm
      (state.cells.entries.filter (fun cell => cell.1 ∉ inputPoints tx) ++ created) := by
  have hdisjoint : List.Disjoint
      (state.cells.entries.filter fun cell => cell.1 ∉ inputPoints tx) created := by
    rintro ⟨o, entry⟩ hkept hcreated
    have hfresh := h.fresh _ hcreated
    rw [SortedMap.get?_eq_some.mpr (List.mem_of_mem_filter hkept)] at hfresh
    cases hfresh
  refine (List.perm_ext_iff_of_nodup next.cells.nodup_entries
    ((state.cells.nodup_entries.filter _).append (h.nodup_created hfits).of_map hdisjoint)).mpr ?_
  intro cell
  rw [h.mem_cells_next hfits, List.mem_append, List.mem_filter, or_comm, h.inputs, inputPoints,
    decide_eq_true_eq]

/-- The cells an accepted transaction takes out are the ones it resolved. -/
lemma Applied.consumed_perm :
    (state.cells.entries.filter fun cell => cell.1 ∈ inputPoints tx).Perm
      (resolved.map fun input => (input.outpoint, input.cell)) := by
  have hnodup : (resolved.map fun input => (input.outpoint, input.cell)).Nodup := by
    refine List.Nodup.of_map (·.1) ?_
    rw [List.map_map]
    exact h.distinct
  refine (List.perm_ext_iff_of_nodup (state.cells.nodup_entries.filter _) hnodup).mpr ?_
  rintro ⟨o, entry⟩
  rw [List.mem_filter, decide_eq_true_eq, inputPoints, ← h.inputs, List.mem_map, List.mem_map]
  constructor
  · rintro ⟨hlive, input, hinput, rfl⟩
    have hsame := h.live input hinput
    rw [SortedMap.get?_eq_some.mpr hlive] at hsame
    exact ⟨input, hinput, by rw [Option.some.inj hsame]⟩
  · rintro ⟨input, hinput, heq⟩
    obtain ⟨rfl, rfl⟩ := Prod.mk.inj heq
    exact ⟨SortedMap.get?_eq_some.mp (h.live input hinput), input, hinput, rfl⟩

lemma Applied.consumed_capacity :
    capacitySum (state.cells.entries.filter fun cell => cell.1 ∈ inputPoints tx) =
      (resolved.map (·.cell.capacity.toNat)).sum := by
  rw [capacitySum, (h.consumed_perm.map _).sum_eq, List.map_map]
  rfl

/-- An ordinary transaction with data for every output is accounted for. -/
lemma Applied.conserved (hreceipt : Receipted blake3 tx verifier resolved created receipt)
    (hordinary : tx.inputs ≠ []) (hpaired : OutputsPaired tx) :
    Conserved blake3 state next tx receipt := by
  refine ⟨?_, ?_, ⟨created, ?_, h.created_capacities hpaired.1, h.fresh, h.entries_perm hpaired.2⟩,
    ?_, ?_⟩
  · rw [inputPoints, ← h.inputs]
    exact h.distinct
  · intro o ho
    rw [inputPoints, ← h.inputs] at ho
    obtain ⟨input, hinput, rfl⟩ := List.mem_map.mp ho
    rw [h.live input hinput]
    exact Option.some_ne_none _
  · rw [h.created_points, Nat.min_eq_left hpaired.1]
  · have hcovered := hreceipt.covered hordinary
    rw [h.consumed_capacity, hreceipt.fee, ← h.created_capacity hpaired.1, capacitySum]
    omega
  · rw [h.consumed_capacity]
    exact hreceipt.bounded

end

/-- Outputs with different numbers below some bound, as different 32-bit words. -/
lemma le_of_nodup_points (h : ((List.range count).map (outputPoint txid)).Nodup) :
    count ≤ 2 ^ 32 := by
  by_contra hlarge
  have hmem : ∀ {n}, n < count → n ∈ List.range count := fun hn => List.mem_range.mpr hn
  have hsame : outputPoint txid 0 = outputPoint txid (2 ^ 32) := rfl
  have hzero := List.inj_on_of_nodup_map h (hmem (by omega)) (hmem (by omega)) hsame
  omega

/-- Nothing but missing data, or numbers that wrap, gets in the way. -/
lemma Applied.outputsPaired (h : Applied blake3 state next tx context verifier resolved created)
    (hconserved : Conserved blake3 state next tx receipt) : OutputsPaired tx := by
  obtain ⟨listed, hpoints, -, -, hperm⟩ := hconserved.replaced
  have hfits : tx.outputs.length ≤ 2 ^ 32 := by
    have hkeys := ((hperm.map (·.1)).nodup_iff).mp next.cells.nodup_keys
    rw [List.map_append, hpoints] at hkeys
    exact le_of_nodup_points hkeys.of_append_right
  refine ⟨?_, hfits⟩
  -- both lists of new cells are what the old ones that stay leave over
  have hlength := hperm.length_eq.symm.trans (h.entries_perm hfits).length_eq
  rw [List.length_append, List.length_append] at hlength
  have hlisted : listed.length = tx.outputs.length := by
    have := congrArg List.length hpoints
    simpa using this
  have hcreated : created.length = min tx.outputs.length tx.outputsData.length := by
    rw [h.outputs, List.length_map, numberedOutputs, List.length_zipIdx, List.length_zip]
  omega

/-- Capacity of the live cells after a transaction, cellbase or not. -/
lemma Applied.liveCapacity (h : Applied blake3 state next tx context verifier resolved created)
    (hfits : tx.outputs.length ≤ 2 ^ 32) :
    next.liveCapacity + (resolved.map (·.cell.capacity.toNat)).sum =
      state.liveCapacity + capacitySum created := by
  have hsplit : state.liveCapacity =
      capacitySum (state.cells.entries.filter fun cell => cell.1 ∈ inputPoints tx) +
        capacitySum (state.cells.entries.filter fun cell => cell.1 ∉ inputPoints tx) := by
    have hperm := List.filter_append_perm (fun cell => decide (cell.1 ∈ inputPoints tx))
      state.cells.entries
    rw [CellStateTree.liveCapacity, capacitySum, ← (hperm.map _).sum_eq, List.map_append,
      List.sum_append]
    simp only [capacitySum, decide_not]
  rw [hsplit, h.consumed_capacity, CellStateTree.liveCapacity, capacitySum,
    ((h.entries_perm hfits).map _).sum_eq, List.map_append, List.sum_append]
  simp only [capacitySum]
  omega

end Accepted

/-! ## Runs -/

/-- One call of `apply_transaction`. -/
structure TransitionCall where
  tx : CellTx
  context : StateTransitionContext
  verifier : CellScriptVerifier

namespace StateTransitionEngine

/-- Make a call. -/
def call (blake3 : List UInt8 → Hash) (engine : StateTransitionEngine hashes)
    (transition : TransitionCall) :
    Except StateTransitionError StateTransitionReceipt × StateTransitionEngine hashes :=
  engine.applyTransaction blake3 transition.tx transition.context transition.verifier

/-- Make calls one after another and keep what each returned. -/
def run (blake3 : List UInt8 → Hash) (engine : StateTransitionEngine hashes) :
    List TransitionCall →
    List (TransitionCall × Except StateTransitionError StateTransitionReceipt) ×
      StateTransitionEngine hashes
  | [] => ([], engine)
  | transition :: rest =>
      let (result, after) := engine.call blake3 transition
      let (results, last) := run blake3 after rest
      ((transition, result) :: results, last)

end StateTransitionEngine

/-- The fee of a call; a rejected one pays nothing. -/
def feePaid : TransitionCall × Except StateTransitionError StateTransitionReceipt → Nat
  | (_, .ok receipt) => receipt.fee.toNat
  | (_, .error _) => 0

/-- Capacity a call created without consuming any. -/
def capacityIssued : TransitionCall × Except StateTransitionError StateTransitionReceipt → Nat
  | (transition, .ok _) =>
      if transition.tx.inputs = [] then (transition.tx.outputs.map (·.capacity.toNat)).sum else 0
  | (_, .error _) => 0

section Calls

variable {blake3 : List UInt8 → Hash} {engine : StateTransitionEngine hashes}
  {transition : TransitionCall} {receipt : StateTransitionReceipt}

lemma SameCells.liveCapacity {before after : CellStateTree hashes} (h : SameCells before after) :
    after.liveCapacity = before.liveCapacity := by
  rw [CellStateTree.liveCapacity, h.cells, CellStateTree.liveCapacity]

/-- A call that succeeded is an accepted transaction between the two engines' cells. -/
lemma call_eq_ok (h : (engine.call blake3 transition).1 = .ok receipt) :
    ∃ state next resolved created, SameCells engine.state state ∧
      SameCells next (engine.call blake3 transition).2.state ∧
      Applied blake3 state next transition.tx transition.context transition.verifier resolved created ∧
      Receipted blake3 transition.tx transition.verifier resolved created receipt := by
  have hcalled : Called blake3 engine transition.tx transition.context transition.verifier
      (engine.call blake3 transition) := called ..
  generalize engine.call blake3 transition = result at h hcalled ⊢
  cases hcalled with
  | refused e after hsame => cases h
  | applied receipt' next happly =>
    cases h
    obtain ⟨resolved, created, happlied, hreceipted⟩ := applyTransaction_receipted happly
    exact ⟨_, next, resolved, created, .of_root _, .of_root _, happlied, hreceipted⟩

/-- `Conserved` only looks at the live cells. -/
lemma Conserved.congr {before before' after after' : CellStateTree hashes} {tx : CellTx}
    (hbefore : SameCells before before') (hafter : SameCells after after') :
    Conserved blake3 before' after tx receipt ↔ Conserved blake3 before after' tx receipt := by
  constructor
  · rintro ⟨hdistinct, hlive, hreplaced, hbalanced, hbounded⟩
    rw [hbefore.cells] at hlive hreplaced hbalanced hbounded
    exact ⟨hdistinct, hlive, by rwa [hafter.cells], hbalanced, hbounded⟩
  · rintro ⟨hdistinct, hlive, hreplaced, hbalanced, hbounded⟩
    rw [← hbefore.cells] at hlive hreplaced hbalanced hbounded
    exact ⟨hdistinct, hlive, by rwa [hafter.cells] at hreplaced, hbalanced, hbounded⟩

/-- A successful ordinary call is accounted for exactly if its outputs are paired. -/
lemma conserved_iff (h : (engine.call blake3 transition).1 = .ok receipt)
    (hordinary : transition.tx.inputs ≠ []) :
    Conserved blake3 engine.state (engine.call blake3 transition).2.state transition.tx receipt ↔
      OutputsPaired transition.tx := by
  obtain ⟨state, next, resolved, created, hbefore, hafter, happlied, hreceipted⟩ := call_eq_ok h
  rw [← Conserved.congr hbefore hafter]
  exact ⟨happlied.outputsPaired, happlied.conserved hreceipted hordinary⟩

/-- Live capacity across one call, as long as a successful one has its outputs paired. -/
lemma call_capacity (hpaired : ∀ receipt, (engine.call blake3 transition).1 = .ok receipt →
      OutputsPaired transition.tx) :
    (engine.call blake3 transition).2.state.liveCapacity +
        feePaid (transition, (engine.call blake3 transition).1) =
      engine.state.liveCapacity +
        capacityIssued (transition, (engine.call blake3 transition).1) := by
  cases hresult : (engine.call blake3 transition).1 with
  | error e =>
    have hcalled : Called blake3 engine transition.tx transition.context transition.verifier
        (engine.call blake3 transition) := called ..
    generalize engine.call blake3 transition = result at hresult hcalled ⊢
    cases hcalled with
    | refused e' after hsame => rw [feePaid, capacityIssued, hsame.liveCapacity]
    | applied receipt next happly => cases hresult
  | ok receipt =>
    have hpaired := hpaired receipt hresult
    obtain ⟨state, next, resolved, created, hbefore, hafter, happlied, hreceipted⟩ :=
      call_eq_ok hresult
    have hlive := happlied.liveCapacity hpaired.2
    rw [hbefore.liveCapacity] at hlive
    have hcreated := happlied.created_capacity hpaired.1
    rw [feePaid, capacityIssued, hafter.liveCapacity, hreceipted.fee]
    split_ifs with hcellbase
    · -- no inputs, so nothing was resolved and the fee is nothing minus something
      have hnone : resolved = [] := by
        have := happlied.inputs
        rw [hcellbase, List.map_nil, List.map_eq_nil_iff] at this
        exact this
      rw [hnone, List.map_nil, List.sum_nil] at hlive ⊢
      omega
    · have hcovered := hreceipted.covered hcellbase
      rw [capacitySum] at hlive
      omega

/-- Live capacity and fees paid across a run. -/
lemma run_capacity (transitions : List TransitionCall)
    (hpaired : ∀ outcome ∈ (engine.run blake3 transitions).1, ∀ receipt,
      outcome.2 = .ok receipt → OutputsPaired outcome.1.tx) :
    (engine.run blake3 transitions).2.state.liveCapacity +
        ((engine.run blake3 transitions).1.map feePaid).sum =
      engine.state.liveCapacity + ((engine.run blake3 transitions).1.map capacityIssued).sum := by
  induction transitions generalizing engine with
  | nil => rfl
  | cons transition rest ih =>
    rw [StateTransitionEngine.run] at hpaired ⊢
    have hstep := call_capacity (hpaired _ List.mem_cons_self)
    have hrest := ih fun outcome houtcome => hpaired outcome (List.mem_cons_of_mem _ houtcome)
    simp only [List.map_cons, List.sum_cons]
    omega

end Calls

/-- **Live-cell conservation**: from whatever cells the engine holds, a successful ordinary call takes
    out its distinct live inputs, puts in one new cell per output at outpoints that were not live and
    leaves the difference as the fee, exactly if its outputs are paired; and in every run whose
    successful calls have their outputs paired, live capacity plus the fees paid changes by what
    authorised cellbase transactions issue. -/
theorem live_cell_conservation (blake3 : List UInt8 → Hash) (engine : StateTransitionEngine hashes) :
    (∀ transition receipt, (engine.call blake3 transition).1 = .ok receipt →
      transition.tx.inputs ≠ [] →
      (Conserved blake3 engine.state (engine.call blake3 transition).2.state transition.tx receipt ↔
        OutputsPaired transition.tx)) ∧
    ∀ transitions,
      (∀ outcome ∈ (engine.run blake3 transitions).1, ∀ receipt,
        outcome.2 = .ok receipt → OutputsPaired outcome.1.tx) →
      (engine.run blake3 transitions).2.state.liveCapacity +
          ((engine.run blake3 transitions).1.map feePaid).sum =
        engine.state.liveCapacity + ((engine.run blake3 transitions).1.map capacityIssued).sum :=
  ⟨fun _ _ hok hordinary => conserved_iff hok hordinary, fun transitions => run_capacity transitions⟩

/-! ## A spend with and without data -/

/-- Hash functions that forget what they are given. -/
def blankHashes : CellHashes (Multiplicative ℤ) where
  ckbBlake2b256 _ := fill 32 0
  merkleBranchHash _ := fill 32 0
  dataToElement _ := 1
  muHashFinalize _ := fill 32 0

def plainOutput (capacity : UInt64) : CellOutput := ⟨⟨fill 32 1, 0, []⟩, none, capacity⟩

def plainCell : OutPoint × CellEntry :=
  (⟨fill 32 9, 0⟩, CellEntry.fromOutput blankHashes (plainOutput 1000) [] 0 false)

/-- One live cell of capacity 1000. -/
def plainEngine : StateTransitionEngine blankHashes :=
  ⟨CellStateTree.new.insert plainCell.1 plainCell.2⟩

/-- Spend it to one output of capacity 900. -/
def plainSpend (outputsData : List (List UInt8)) : TransitionCall where
  tx := ⟨0, [⟨plainCell.1, 0⟩], [], [], [plainOutput 900], outputsData, []⟩
  context := ⟨7, false⟩
  verifier _ _ := .ok 42

/-- With data for the output, the fee is 100 and the books balance. -/
theorem live_cell_conservation_spend :
    ∃ receipt, (plainEngine.call (fun _ => fill 32 5) (plainSpend [[]])).1 = .ok receipt ∧
      receipt.fee = 100 ∧
      Conserved (fun _ => fill 32 5) plainEngine.state
        (plainEngine.call (fun _ => fill 32 5) (plainSpend [[]])).2.state
        (plainSpend [[]]).tx receipt := by
  refine ⟨_, rfl, rfl, ?_⟩
  exact ((live_cell_conservation _ plainEngine).1 (plainSpend [[]]) _ rfl (by decide)).mpr (by decide)

/-- **Without data the output is dropped**: the spend succeeds, no cell is live afterwards and the
    whole input is taken as the fee. -/
theorem unpaired_output_is_dropped :
    ∃ receipt, (plainEngine.call (fun _ => fill 32 5) (plainSpend [])).1 = .ok receipt ∧
      receipt.created = [] ∧ receipt.fee = 1000 ∧
      (plainEngine.call (fun _ => fill 32 5) (plainSpend [])).2.state.cells.entries = [] ∧
      ¬ Conserved (fun _ => fill 32 5) plainEngine.state
        (plainEngine.call (fun _ => fill 32 5) (plainSpend [])).2.state
        (plainSpend []).tx receipt := by
  refine ⟨_, rfl, rfl, rfl, rfl, fun hconserved => ?_⟩
  exact absurd ((conserved_iff rfl (by decide)).mp hconserved) (by decide)

end Myelin.State
