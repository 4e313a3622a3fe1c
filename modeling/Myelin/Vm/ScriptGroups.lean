/-
  Script groups of a transaction.

  `extract_script_groups` collects the cells of a transaction by script: lock groups over the inputs,
  type groups over inputs and outputs, both ordered by script hash.  Lock scripts may be skipped, all
  of them or some by hash.  The loop over the inputs does both at once, and the branch for a lock that
  is skipped by hash leaves it with `continue`, BEFORE the input's type script is looked at.

  A group map is a fold over MEMBERS, a script with the side and index it was found at (`gather`), and
  what it has under a hash is read off the members with that hash (`get?_gather`).  So everything
  follows from who is a member (`typeMembers`, `lockMembers`): nothing is lost, and lock skipping leaves
  the type groups alone, exactly if no input whose lock is skipped by hash has a type script
  (`script_groups_complete_iff`).
-/
import Myelin.Exec.Codec
import Myelin.Lib.SortedMap

namespace Myelin.Vm

open Lib Exec
open FixedBytes (fill)

variable {output : CellOutput} {cells : List CellOutput}

/-! ## Errors -/

/-- VM execution errors. -/
inductive VMError where
  | loadProgramError (message : String)
  | executionError (message : String)
  | paused
  | nonZeroExitCode (code : Int8)
  | cyclesExceeded (limit actual : UInt64)
  | scriptTooLarge (size limit : Nat)
  | syscallError (message : String)
  | itemMissing (message : String)
  | invalidData (message : String)
  deriving DecidableEq

/-- Script execution errors. -/
inductive ScriptError where
  | vm (error : VMError)
  | scriptNotFound (codeHash : FixedBytes 32)
  | invalidHashType (hashType : UInt8)
  | multipleScriptMatches (codeHash : FixedBytes 32)
  deriving DecidableEq

/-- `{:02x?}` of some bytes. -/
def debugHex (bytes : List UInt8) : String :=
  let digits := fun byte : UInt8 =>
    String.ofList [Nat.digitChar (byte.toNat / 16), Nat.digitChar (byte.toNat % 16)]
  "[" ++ String.intercalate ", " (bytes.map digits) ++ "]"

/-! ## Groups -/

inductive ScriptGroupType where
  /-- Who can spend. -/
  | lock
  /-- State transition rules. -/
  | type
  deriving DecidableEq

/-- Where a script is found. -/
inductive Side where
  | input
  | output
  deriving DecidableEq

/-- Cells that share a script. -/
structure ScriptGroup where
  script : Script
  groupType : ScriptGroupType
  inputIndices : List Nat
  outputIndices : List Nat
  deriving DecidableEq

namespace ScriptGroup

/-- The indices on one side. -/
def indices (group : ScriptGroup) : Side → List Nat
  | .input => group.inputIndices
  | .output => group.outputIndices

/-- Add an index on one side. -/
def push (group : ScriptGroup) (index : Nat) : Side → ScriptGroup
  | .input => { group with inputIndices := group.inputIndices ++ [index] }
  | .output => { group with outputIndices := group.outputIndices ++ [index] }

end ScriptGroup

/-- Groups by script hash. -/
abbrev GroupMap := SortedMap (FixedBytes 32) ScriptGroup

/-- `entry(hash).or_insert_with(…)`, and push the index. -/
def GroupMap.join (groupType : ScriptGroupType) (hash : FixedBytes 32) (script : Script) (side : Side)
    (index : Nat) (groups : GroupMap) : GroupMap :=
  groups.insert hash (((groups.get? hash).getD ⟨script, groupType, [], []⟩).push index side)

/-- VM syscall semantics. -/
inductive VmSemantics where
  | myelinExtended
  | ckbStrict
  deriving DecidableEq

/-- Transaction script verifier: what the grouping reads of it. -/
structure TransactionScriptVerifier where
  tx : CellTx
  /-- The data provider. -/
  loadCellByOutpoint : OutPoint → Option ResolvedCell
  skipLockGroups : Bool
  skipLockScriptHashes : List (FixedBytes 32)
  semantics : VmSemantics

/-- The hash functions of the two semantics. -/
structure ScriptHashes where
  blake3 : List UInt8 → FixedBytes 32
  ckbBlake2b : List UInt8 → FixedBytes 32

section Extraction

variable (hashes : ScriptHashes)

/-- `Script::hash`. -/
def scriptHash (script : Script) : FixedBytes 32 :=
  hashes.blake3 (utf8 "myelin-cell/script-hash" ++ script.codeHash.val ++ [script.hashType] ++
    le32 (UInt32.ofNat script.args.length) ++ script.args)

/-- The script hash of a semantics. -/
def scriptHashForSemantics (script : Script) : VmSemantics → FixedBytes 32
  | .myelinExtended => scriptHash hashes script
  | .ckbStrict => hashes.ckbBlake2b (serializeScriptMolecule script)

namespace TransactionScriptVerifier

variable (v : TransactionScriptVerifier)

/-- The hash this verifier groups by. -/
def hash (script : Script) : FixedBytes 32 :=
  scriptHashForSemantics hashes script v.semantics

/-- Put the type script of a cell into its group. -/
def placeType (side : Side) (output : CellOutput) (index : Nat) (groups : GroupMap) : GroupMap :=
  match output.type_ with
  | some script => groups.join .type (v.hash hashes script) script side index
  | none => groups

/-- Put an input into its lock group and its type group. -/
def placeInput (groups : GroupMap × GroupMap) (entry : CellOutput × Nat) : GroupMap × GroupMap :=
  let (output, index) := entry
  let (locks, types) := groups
  if v.skipLockGroups then (locks, v.placeType hashes .input output index types)
  else
    let lockHash := v.hash hashes output.lock
    -- `continue`
    if lockHash ∈ v.skipLockScriptHashes then (locks, types)
    else (locks.join .lock lockHash output.lock .input index,
      v.placeType hashes .input output index types)

/-- The cell an input spends. -/
def resolve (input : CellInput) : Except ScriptError CellOutput :=
  let txHash := debugHex input.previousOutput.txHash.val
  let index := input.previousOutput.index
  okOr ((v.loadCellByOutpoint input.previousOutput).map (·.cellOutput))
    (.vm (.itemMissing s!"missing resolved input cell {txHash}:{index}"))

/-- Extract script groups. -/
def extractScriptGroups : Except ScriptError (List ScriptGroup) := do
  let (locks, types) ← v.tx.inputs.zipIdx.foldlM (fun groups entry => do
    let output ← v.resolve entry.1
    pure (v.placeInput hashes groups (output, entry.2))) (SortedMap.empty, SortedMap.empty)
  let types := v.tx.outputs.zipIdx.foldl
    (fun types entry => v.placeType hashes .output entry.1 entry.2 types) types
  pure (locks.values ++ types.values)

end TransactionScriptVerifier

end Extraction

/-! ## Members -/

/-- A script, and where it was found. -/
structure Member where
  script : Script
  side : Side
  index : Nat
  deriving DecidableEq

variable {members : List Member} {group : ScriptGroup} {m : Member}

section Gather

variable (hash : Script → FixedBytes 32) (groupType : ScriptGroupType)

/-- Let a member join its group. -/
def enlist (groups : GroupMap) (m : Member) : GroupMap :=
  groups.join groupType (hash m.script) m.script m.side m.index

/-- Let members join their groups one after the other. -/
def gather (members : List Member) : GroupMap := members.foldl (enlist hash groupType) .empty

/-- The indices of some members on one side. -/
def indicesOf (side : Side) (members : List Member) : List Nat :=
  (members.filter (·.side = side)).map (·.index)

/-- The members under a hash. -/
def under (members : List Member) (h : FixedBytes 32) : List Member :=
  members.filter fun m => hash m.script = h

/-- The group of some members, under the script of the first. -/
def formed (script : Script) (members : List Member) : ScriptGroup :=
  ⟨script, groupType, indicesOf .input members, indicesOf .output members⟩

@[simp] lemma formed_indices (script : Script) (members : List Member) (side : Side) :
    (formed groupType script members).indices side = indicesOf side members := by
  cases side <;> rfl

lemma formed_push (script : Script) (members : List Member) (m : Member) :
    (formed groupType script members).push m.index m.side =
      formed groupType script (members ++ [m]) := by
  cases hside : m.side <;> simp [ScriptGroup.push, formed, indicesOf, hside]

/-- **What is under a hash**: the first member's script, and all indices in order. -/
theorem get?_gather (members : List Member) (h : FixedBytes 32) :
    (gather hash groupType members).get? h = (under hash members h).head?.map fun first =>
      formed groupType first.script (under hash members h) := by
  induction members using List.reverseRecOn with
  | nil => rfl
  | append_singleton members m ih =>
    have hstep : gather hash groupType (members ++ [m]) =
        (gather hash groupType members).join groupType (hash m.script) m.script m.side m.index := by
      rw [gather, List.foldl_append]
      rfl
    have hunder : under hash (members ++ [m]) h =
        under hash members h ++ if hash m.script = h then [m] else [] := by
      simp [under, List.filter_append, List.filter_cons]
    rw [hstep, GroupMap.join, SortedMap.get?_insert, hunder]
    by_cases hm : hash m.script = h
    · subst hm
      rw [if_pos rfl, if_pos rfl, ih]
      -- the first member under the hash, or one more
      cases under hash members (hash m.script) with
      | nil => exact congrArg some (formed_push groupType m.script [] m)
      | cons first rest => exact congrArg some (formed_push groupType first.script (first :: rest) m)
    · rw [if_neg fun heq => hm heq.symm, if_neg hm, List.append_nil, ih]

variable {hash groupType}

lemma mem_indicesOf {side : Side} {index : Nat} :
    index ∈ indicesOf side members ↔ ∃ m ∈ members, m.side = side ∧ m.index = index := by
  simp [indicesOf, and_assoc]

/-- An entry of the map is the group of the members under its key. -/
lemma entry_gather (hentry : (h, group) ∈ (gather hash groupType members).entries) :
    ∃ first ∈ members, hash first.script = h ∧
      group = formed groupType first.script (under hash members h) := by
  have hget := SortedMap.get?_eq_some.mpr hentry
  rw [get?_gather, Option.map_eq_some_iff] at hget
  obtain ⟨first, hhead, rfl⟩ := hget
  obtain ⟨hfirst, hhash⟩ := List.mem_filter.mp (List.mem_of_mem_head? hhead)
  exact ⟨first, hfirst, by simpa using hhash, rfl⟩

/-- **Every member is in one group**, and that group has its script. -/
theorem filter_values_gather (hplaces : (members.map fun m => (m.side, m.index)).Nodup)
    (hinjective : ∀ a ∈ members, ∀ b ∈ members, hash a.script = hash b.script → a.script = b.script)
    (hm : m ∈ members) :
    ∃ group, (gather hash groupType members).values.filter (fun g => m.index ∈ g.indices m.side) =
      [group] ∧ group.script = m.script := by
  have hunder : m ∈ under hash members (hash m.script) := List.mem_filter.mpr ⟨hm, by simp⟩
  obtain ⟨group, hget⟩ : ∃ group, (gather hash groupType members).get? (hash m.script) = some group := by
    rw [get?_gather]
    obtain ⟨first, rest, hcons⟩ := List.exists_cons_of_ne_nil (List.ne_nil_of_mem hunder)
    rw [hcons]
    exact ⟨_, rfl⟩
  have hentry := SortedMap.get?_eq_some.mp hget
  obtain ⟨first, hfirst, hhash, hformed⟩ := entry_gather hentry
  refine ⟨group, ?_, by rw [hformed]; exact hinjective first hfirst m hm hhash⟩
  -- the entry under the member's hash is the only one that passes
  have honly : ∀ e ∈ (gather hash groupType members).entries,
      ((fun g : ScriptGroup => decide (m.index ∈ g.indices m.side)) ∘ Prod.snd) e =
        decide (e = (hash m.script, group)) := by
    rintro ⟨h, other⟩ he
    refine decide_eq_decide.mpr ⟨fun hindex => ?_, ?_⟩
    · obtain ⟨_, -, -, hother⟩ := entry_gather he
      rw [hother, formed_indices, mem_indicesOf] at hindex
      obtain ⟨found, hfound, hside, hat⟩ := hindex
      obtain ⟨hmem, hkey⟩ := List.mem_filter.mp hfound
      obtain rfl : found = m := List.inj_on_of_nodup_map hplaces hmem hm (by rw [hside, hat])
      obtain rfl : hash found.script = h := by simpa using hkey
      rw [SortedMap.value_unique he hentry]
    · rintro heq
      obtain ⟨rfl, rfl⟩ := Prod.mk.inj heq
      rw [hformed, formed_indices, mem_indicesOf]
      exact ⟨m, hunder, rfl, rfl⟩
  rw [SortedMap.values, List.filter_map, List.filter_congr honly, List.filter_eq,
    List.count_eq_one_of_mem (SortedMap.nodup_entries _) hentry]
  rfl

end Gather

/-! ## Who is a member -/

/-- In each side, indices grow. -/
def InOrder (members : List Member) : Prop :=
  members.Pairwise fun a b => a.side = b.side → a.index < b.index

lemma InOrder.places (h : InOrder members) : (members.map fun m => (m.side, m.index)).Nodup := by
  rw [List.Nodup, List.pairwise_map]
  refine h.imp fun {a b} hlt heq => ?_
  obtain ⟨hside, hindex⟩ := Prod.mk.inj heq
  exact absurd (hlt hside) (by omega)

lemma InOrder.ascending (h : InOrder members) (side : Side) :
    (indicesOf side members).Pairwise (· < ·) := by
  rw [indicesOf, List.pairwise_map]
  refine (h.filter _).imp_of_mem fun {a b} ha hb hlt => hlt ?_
  have hleft : a.side = side := by simpa using (List.mem_filter.mp ha).2
  have hright : b.side = side := by simpa using (List.mem_filter.mp hb).2
  rw [hleft, hright]

lemma inOrder_filterMap_zipIdx {α : Type} {f : α × Nat → Option Member}
    (hf : ∀ entry m, f entry = some m → m.index = entry.2) (list : List α) :
    InOrder (list.zipIdx.filterMap f) := by
  have hsorted : list.zipIdx.Pairwise fun a b => a.2 < b.2 := by
    rw [← List.pairwise_map, List.zipIdx_map_snd]
    exact List.pairwise_lt_range'
  refine List.pairwise_filterMap.mpr (hsorted.imp fun {a b} hlt m hm n hn _ => ?_)
  rw [hf a m hm, hf b n hn]
  exact hlt

namespace TransactionScriptVerifier

variable (hashes : ScriptHashes) (v : TransactionScriptVerifier)

/-- Whether locks of a hash are skipped. -/
def Skips (lockHash : FixedBytes 32) : Prop :=
  v.skipLockGroups = true ∨ lockHash ∈ v.skipLockScriptHashes

instance (lockHash : FixedBytes 32) : Decidable (v.Skips lockHash) :=
  inferInstanceAs (Decidable (_ ∨ _))

/-- The lock of an input. -/
def lockMember (entry : CellOutput × Nat) : Option Member :=
  if v.Skips (v.hash hashes entry.1.lock) then none
  else some ⟨entry.1.lock, .input, entry.2⟩

/-- The type script of a cell. -/
def typeMember (side : Side) (entry : CellOutput × Nat) : Option Member :=
  entry.1.type_.map (⟨·, side, entry.2⟩)

/-- An input that the loop leaves early. -/
def LeftEarly (output : CellOutput) : Prop :=
  v.skipLockGroups = false ∧ v.hash hashes output.lock ∈ v.skipLockScriptHashes

instance (output : CellOutput) : Decidable (v.LeftEarly hashes output) :=
  inferInstanceAs (Decidable (_ ∧ _))

/-- The type script of an input, if the loop gets to it. -/
def inputTypeMember (entry : CellOutput × Nat) : Option Member :=
  if v.LeftEarly hashes entry.1 then none else typeMember .input entry

/-- The members of lock groups. -/
def lockMembers (cells : List CellOutput) : List Member :=
  cells.zipIdx.filterMap (v.lockMember hashes)

/-- The members of type groups. -/
def typeMembers (cells : List CellOutput) : List Member :=
  cells.zipIdx.filterMap (v.inputTypeMember hashes) ++
    v.tx.outputs.zipIdx.filterMap (typeMember .output)

/-- The lock groups. -/
abbrev lockGroups (cells : List CellOutput) : GroupMap :=
  gather (v.hash hashes) .lock (v.lockMembers hashes cells)

/-- The type groups. -/
abbrev typeGroups (cells : List CellOutput) : GroupMap :=
  gather (v.hash hashes) .type (v.typeMembers hashes cells)

section Loops

variable {hashes}

/-! Each entry of a loop lets its members, if any, join. -/

lemma foldl_placeInput (entries : List (CellOutput × Nat)) (locks types : GroupMap) :
    entries.foldl (v.placeInput hashes) (locks, types) =
      ((entries.filterMap (v.lockMember hashes)).foldl (enlist (v.hash hashes) .lock) locks,
        (entries.filterMap (v.inputTypeMember hashes)).foldl (enlist (v.hash hashes) .type) types) := by
  induction entries generalizing locks types with
  | nil => rfl
  | cons entry entries ih =>
    simp only [List.foldl_cons, placeInput, placeType, List.filterMap_cons, lockMember,
      inputTypeMember, typeMember, Skips, LeftEarly]
    by_cases hall : v.skipLockGroups = true <;>
      by_cases hsome : v.hash hashes entry.1.lock ∈ v.skipLockScriptHashes <;>
      cases entry.1.type_ <;> simp [hall, hsome, ih, enlist]

lemma foldl_placeType (entries : List (CellOutput × Nat)) (types : GroupMap) :
    entries.foldl (fun types entry => v.placeType hashes .output entry.1 entry.2 types) types =
      (entries.filterMap (typeMember .output)).foldl (enlist (v.hash hashes) .type) types := by
  rw [List.foldl_filterMap]
  refine List.foldl_ext _ _ _ fun types entry _ => ?_
  unfold placeType typeMember
  cases entry.1.type_ <;> rfl

/-- Resolving inputs one by one, or all at first. -/
lemma foldlM_resolve (inputs : List CellInput) (start : Nat) (groups : GroupMap × GroupMap) :
    (inputs.zipIdx start).foldlM (fun groups entry => do
        let output ← v.resolve entry.1
        pure (v.placeInput hashes groups (output, entry.2))) groups =
      (mapResult v.resolve inputs).map fun cells =>
        (cells.zipIdx start).foldl (v.placeInput hashes) groups := by
  induction inputs generalizing start groups with
  | nil => rfl
  | cons input inputs ih =>
    rw [List.zipIdx_cons, List.foldlM_cons, mapResult]
    cases v.resolve input with
    | error e => rfl
    | ok output =>
      refine (ih (start + 1) _).trans ?_
      cases mapResult v.resolve inputs with
      | error e | ok cells => rfl

/-- **The groups are gathered from the members.** -/
theorem extractScriptGroups_eq_ok : v.extractScriptGroups hashes = .ok groups ↔
      ∃ cells, mapResult v.resolve v.tx.inputs = .ok cells ∧
        groups = (v.lockGroups hashes cells).values ++ (v.typeGroups hashes cells).values := by
  simp only [extractScriptGroups, foldlM_resolve, eq_ok, map_eq_ok, foldl_placeType, lockGroups,
    typeGroups, lockMembers, typeMembers, gather, List.foldl_append]
  constructor
  · rintro ⟨_, ⟨cells, hcells, rfl⟩, rfl⟩
    exact ⟨cells, hcells, by rw [foldl_placeInput]⟩
  · rintro ⟨cells, hcells, rfl⟩
    exact ⟨_, ⟨cells, hcells, rfl⟩, by rw [foldl_placeInput]⟩

lemma resolve_eq_ok : v.resolve input = .ok output ↔
      ∃ cell, v.loadCellByOutpoint input.previousOutput = some cell ∧ cell.cellOutput = output := by
  simp [resolve]

lemma mem_lockMembers : m ∈ v.lockMembers hashes cells ↔ ∃ output, cells[m.index]? = some output ∧
      ¬v.Skips (v.hash hashes output.lock) ∧ m = ⟨output.lock, .input, m.index⟩ := by
  simp only [lockMembers, List.mem_filterMap, lockMember, Prod.exists, List.mem_zipIdx_iff_getElem?]
  constructor
  · rintro ⟨output, index, hat, hmember⟩
    split_ifs at hmember with hskip
    obtain rfl := Option.some.inj hmember
    exact ⟨output, hat, hskip, rfl⟩
  · rintro ⟨output, hat, hskip, hm⟩
    exact ⟨output, m.index, hat, by rw [if_neg hskip, ← hm]⟩

lemma typeMember_eq_some : typeMember side entry = some m ↔
    entry.1.type_ = some m.script ∧ m.side = side ∧ m.index = entry.2 := by
  obtain ⟨script, place, index⟩ := m
  simp only [typeMember, Option.map_eq_some_iff, Member.mk.injEq]
  constructor
  · rintro ⟨_, hscript, rfl, rfl, rfl⟩
    exact ⟨hscript, rfl, rfl⟩
  · rintro ⟨hscript, rfl, rfl⟩
    exact ⟨script, hscript, rfl, rfl, rfl⟩

lemma inputTypeMember_eq_some : v.inputTypeMember hashes entry = some m ↔
    ¬v.LeftEarly hashes entry.1 ∧ typeMember .input entry = some m := by
  rw [inputTypeMember, ite_eq_iff]
  simp

/-- Every type script is a member, if the loop gets to it. -/
lemma mem_typeMembers : m ∈ v.typeMembers hashes cells ↔
      (∃ output, cells[m.index]? = some output ∧ ¬v.LeftEarly hashes output ∧
        output.type_ = some m.script ∧ m.side = .input) ∨
      ∃ output, v.tx.outputs[m.index]? = some output ∧ output.type_ = some m.script ∧
        m.side = .output := by
  simp only [typeMembers, List.mem_append, List.mem_filterMap, inputTypeMember_eq_some, Prod.exists,
    List.mem_zipIdx_iff_getElem?, typeMember_eq_some]
  refine or_congr ⟨?_, ?_⟩ ⟨?_, ?_⟩
  · rintro ⟨output, index, hat, hleft, hscript, hside, rfl⟩
    exact ⟨output, hat, hleft, hscript, hside⟩
  · rintro ⟨output, hat, hleft, hscript, hside⟩
    exact ⟨output, m.index, hat, hleft, hscript, hside, rfl⟩
  · rintro ⟨output, index, hat, hscript, hside, rfl⟩
    exact ⟨output, hat, hscript, hside⟩
  · rintro ⟨output, hat, hscript, hside⟩
    exact ⟨output, m.index, hat, hscript, hside, rfl⟩

lemma lockMembers_inOrder (cells : List CellOutput) : InOrder (v.lockMembers hashes cells) := by
  refine inOrder_filterMap_zipIdx (fun entry m hmember => ?_) cells
  unfold lockMember at hmember
  split_ifs at hmember
  obtain rfl := Option.some.inj hmember
  rfl

lemma typeMembers_inOrder (cells : List CellOutput) : InOrder (v.typeMembers hashes cells) := by
  have hinput : ∀ entry m, v.inputTypeMember hashes entry = some m →
      m.side = .input ∧ m.index = entry.2 :=
    fun entry m hmember => (typeMember_eq_some.mp (v.inputTypeMember_eq_some.mp hmember).2).2
  refine List.pairwise_append.mpr
    ⟨inOrder_filterMap_zipIdx (fun entry m hmember => (hinput entry m hmember).2) cells,
      inOrder_filterMap_zipIdx (fun entry m hmember => (typeMember_eq_some.mp hmember).2.2) _,
      fun a ha b hb hside => ?_⟩
  -- members of different sides are not compared
  obtain ⟨_, -, ha⟩ := List.mem_filterMap.mp ha
  obtain ⟨_, -, hb⟩ := List.mem_filterMap.mp hb
  rw [(hinput _ _ ha).1, (typeMember_eq_some.mp hb).2.1] at hside
  cases hside

end Loops

/-! ## Completeness -/

/-- The scripts a transaction is grouped by. -/
def scripts : List Script :=
  (v.tx.inputs.filterMap fun input => v.loadCellByOutpoint input.previousOutput).flatMap
      (fun cell => cell.cellOutput.lock :: cell.cellOutput.type_.toList) ++
    v.tx.outputs.flatMap (·.type_.toList)

/-- The same verifier without any lock skipping. -/
def withoutSkipping : TransactionScriptVerifier :=
  { v with skipLockGroups := false, skipLockScriptHashes := [] }

/-- No script is lost by the grouping, and no skipped lock is in it. -/
structure Complete (groups : List ScriptGroup) : Prop where
  /-- Lock skipping leaves the type groups alone. -/
  types : ∃ plain, v.withoutSkipping.extractScriptGroups hashes = .ok plain ∧
    groups.filter (·.groupType = .type) = plain.filter (·.groupType = .type)
  typedInputs : ∀ i input cell script, v.tx.inputs[i]? = some input →
    v.loadCellByOutpoint input.previousOutput = some cell → cell.cellOutput.type_ = some script →
    ∃ group, groups.filter (fun g => g.groupType = .type ∧ i ∈ g.inputIndices) = [group] ∧
      group.script = script
  typedOutputs : ∀ i output script, v.tx.outputs[i]? = some output → output.type_ = some script →
    ∃ group, groups.filter (fun g => g.groupType = .type ∧ i ∈ g.outputIndices) = [group] ∧
      group.script = script
  ascending : ∀ group ∈ groups,
    group.inputIndices.Pairwise (· < ·) ∧ group.outputIndices.Pairwise (· < ·)
  lockedInputs : ∀ i input cell, v.tx.inputs[i]? = some input →
    v.loadCellByOutpoint input.previousOutput = some cell →
    ¬v.Skips (v.hash hashes cell.cellOutput.lock) →
    ∃ group, groups.filter (fun g => g.groupType = .lock ∧ i ∈ g.inputIndices) = [group] ∧
      group.script = cell.cellOutput.lock
  unskipped : ∀ group ∈ groups, group.groupType = .lock → ¬v.Skips (v.hash hashes group.script)

section Complete

variable {hashes}

/-- The groups of one kind among all groups. -/
lemma filter_groups (locks types : List Member) (hash : Script → FixedBytes 32)
    (p : ScriptGroup → Prop) [DecidablePred p] :
    ((gather hash .lock locks).values ++ (gather hash .type types).values).filter
        (fun g => g.groupType = .lock ∧ p g) = (gather hash .lock locks).values.filter p ∧
    ((gather hash .lock locks).values ++ (gather hash .type types).values).filter
        (fun g => g.groupType = .type ∧ p g) = (gather hash .type types).values.filter p := by
  have hkind : ∀ kind members, ∀ g ∈ (gather hash kind members).values, g.groupType = kind := by
    intro kind members g hg
    obtain ⟨⟨h, group⟩, hentry, rfl⟩ := List.mem_map.mp hg
    obtain ⟨_, -, -, hformed⟩ := entry_gather hentry
    rw [hformed]
    rfl
  have hsame : ∀ kind members, (gather hash kind members).values.filter
      (fun g => g.groupType = kind ∧ p g) = (gather hash kind members).values.filter p :=
    fun kind members => List.filter_congr fun g hg => by simp [hkind kind members g hg]
  have hother : ∀ kind other members, other ≠ kind → (gather hash other members).values.filter
      (fun g => g.groupType = kind ∧ p g) = [] := by
    intro kind other members hne
    refine List.filter_eq_nil_iff.mpr fun g hg => ?_
    simp [hkind other members g hg, hne]
  constructor
  · rw [List.filter_append, hsame, hother .lock .type _ (by decide), List.append_nil]
  · rw [List.filter_append, hsame, hother .type .lock _ (by decide), List.nil_append]

lemma indices_ascending {hash : Script → FixedBytes 32} {kind : ScriptGroupType}
    (h : InOrder members) (hgroup : group ∈ (gather hash kind members).values) :
    group.inputIndices.Pairwise (· < ·) ∧ group.outputIndices.Pairwise (· < ·) := by
  obtain ⟨⟨key, _⟩, hentry, rfl⟩ := List.mem_map.mp hgroup
  obtain ⟨first, -, -, rfl⟩ := entry_gather hentry
  have hunder : InOrder (under hash members key) := h.sublist List.filter_sublist
  exact ⟨hunder.ascending .input, hunder.ascending .output⟩

variable {v} (hcells : mapResult v.resolve v.tx.inputs = .ok cells)

/-- The type scripts of the inputs are the same members with and without skipping. -/
lemma typeMembers_withoutSkipping
    (h : ∀ output ∈ cells, v.LeftEarly hashes output → output.type_ = none) :
    v.withoutSkipping.typeMembers hashes cells = v.typeMembers hashes cells := by
  have hsame : ∀ entry ∈ cells.zipIdx, v.withoutSkipping.inputTypeMember hashes entry =
      v.inputTypeMember hashes entry := by
    intro entry hentry
    have hmem : entry.1 ∈ cells := List.mem_of_getElem? (List.mem_zipIdx_iff_getElem?.mp hentry)
    have hplain : ¬v.withoutSkipping.LeftEarly hashes entry.1 :=
      fun hleft => List.not_mem_nil hleft.2
    rw [inputTypeMember, inputTypeMember, if_neg hplain]
    split_ifs with hleft
    · rw [typeMember, h entry.1 hmem hleft]
      rfl
    · rfl
  rw [typeMembers, typeMembers, List.filterMap_congr hsame]
  rfl

include hcells

/-- A resolved input stands at its place. -/
lemma cell_at {i : Nat} {input : CellInput} {cell : ResolvedCell} (hinput : v.tx.inputs[i]? = some input)
    (hload : v.loadCellByOutpoint input.previousOutput = some cell) :
    cells[i]? = some cell.cellOutput := by
  obtain ⟨output, houtput, hresolve⟩ := forall₂_getElem? (mapResult_eq_ok.mp hcells) hinput
  obtain ⟨other, hother, rfl⟩ := v.resolve_eq_ok.mp hresolve
  rw [houtput, Option.some.inj (hload.symm.trans hother)]

/-- … and a resolved cell belongs to an input. -/
lemma input_of_cell (houtput : output ∈ cells) :
    ∃ input ∈ v.tx.inputs, ∃ cell, v.loadCellByOutpoint input.previousOutput = some cell ∧
      cell.cellOutput = output := by
  obtain ⟨input, hinput, hresolve⟩ := forall₂_mem_right (mapResult_eq_ok.mp hcells) houtput
  obtain ⟨cell, hload, rfl⟩ := v.resolve_eq_ok.mp hresolve
  exact ⟨input, hinput, cell, hload, rfl⟩

lemma scripts_of_cell (houtput : output ∈ cells) :
    ∀ script ∈ output.lock :: output.type_.toList, script ∈ v.scripts := by
  intro script hscript
  obtain ⟨input, hinput, cell, hload, rfl⟩ := input_of_cell hcells houtput
  exact List.mem_append_left _ (List.mem_flatMap.mpr
    ⟨cell, List.mem_filterMap.mpr ⟨input, hinput, hload⟩, hscript⟩)

lemma lockMembers_scripts (hm : m ∈ v.lockMembers hashes cells) : m.script ∈ v.scripts := by
  obtain ⟨output, hat, -, hmember⟩ := v.mem_lockMembers.mp hm
  have hscript : m.script = output.lock := congrArg Member.script hmember
  exact scripts_of_cell hcells (List.mem_of_getElem? hat) _ (hscript ▸ List.mem_cons_self)

lemma typeMembers_scripts (hm : m ∈ v.typeMembers hashes cells) : m.script ∈ v.scripts := by
  rcases v.mem_typeMembers.mp hm with ⟨output, hat, -, htype, -⟩ | ⟨output, hat, htype, -⟩
  · exact scripts_of_cell hcells (List.mem_of_getElem? hat) _
      (List.mem_cons_of_mem _ (by simp [htype]))
  · exact List.mem_append_right _ (List.mem_flatMap.mpr
      ⟨output, List.mem_of_getElem? hat, by simp [htype]⟩)

omit hcells in
/-- A type group has only inputs that the loop did not leave early. -/
lemma not_leftEarly_of_grouped (hgroup : group ∈ (v.typeGroups hashes cells).values)
    (hi : i ∈ group.inputIndices) :
    ∃ output, cells[i]? = some output ∧ ¬v.LeftEarly hashes output := by
  obtain ⟨⟨key, _⟩, hentry, rfl⟩ := List.mem_map.mp hgroup
  obtain ⟨first, -, -, rfl⟩ := entry_gather hentry
  obtain ⟨m, hm, hside, rfl⟩ := mem_indicesOf.mp hi
  rcases v.mem_typeMembers.mp (List.mem_filter.mp hm).1 with ⟨output, hat, hleft, -, -⟩ | ⟨_, -, -, hout⟩
  · exact ⟨output, hat, hleft⟩
  · rw [hside] at hout
    cases hout

/-- Nothing is lost if the loop leaves no typed input early. -/
lemma complete_of_untyped (hinjective : ∀ a ∈ v.scripts, ∀ b ∈ v.scripts,
      v.hash hashes a = v.hash hashes b → a = b)
    (huntyped : ∀ output ∈ cells, v.LeftEarly hashes output → output.type_ = none) :
    v.Complete hashes ((v.lockGroups hashes cells).values ++ (v.typeGroups hashes cells).values) := by
  have hfilter := filter_groups (v.lockMembers hashes cells)
    (v.typeMembers hashes cells) (v.hash hashes)
  have htyped : ∀ {m}, m ∈ v.typeMembers hashes cells → ∃ group,
      (v.typeGroups hashes cells).values.filter (fun g => m.index ∈ g.indices m.side) = [group] ∧
        group.script = m.script :=
    fun hm => filter_values_gather (v.typeMembers_inOrder cells).places (fun a ha b hb =>
      hinjective _ (typeMembers_scripts hcells ha) _ (typeMembers_scripts hcells hb)) hm
  refine ⟨?_, ?_, ?_, ?_, ?_, ?_⟩
  · have hplain : v.withoutSkipping.extractScriptGroups hashes = .ok _ :=
      (v.withoutSkipping.extractScriptGroups_eq_ok).mpr ⟨cells, hcells, rfl⟩
    refine ⟨_, hplain, ?_⟩
    have hkind := (hfilter fun _ => True).2
    have hother := (filter_groups (v.withoutSkipping.lockMembers hashes cells)
      (v.withoutSkipping.typeMembers hashes cells)
      (v.withoutSkipping.hash hashes) fun _ => True).2
    simp only [and_true] at hkind hother
    rw [hkind, hother, typeMembers_withoutSkipping huntyped]
    rfl
  · intro i input cell script hi hload hscript
    have hat := cell_at hcells hi hload
    rw [(hfilter _).2]
    refine @htyped ⟨script, .input, i⟩
      (v.mem_typeMembers.mpr (.inl ⟨_, hat, fun hleft => ?_, hscript, rfl⟩))
    rw [huntyped _ (List.mem_of_getElem? hat) hleft] at hscript
    cases hscript
  · intro i output script hat hscript
    rw [(hfilter _).2]
    exact @htyped ⟨script, .output, i⟩ (v.mem_typeMembers.mpr (.inr ⟨output, hat, hscript, rfl⟩))
  · intro group hgroup
    rcases List.mem_append.mp hgroup with hlock | htype
    · exact indices_ascending (v.lockMembers_inOrder cells) hlock
    · exact indices_ascending (v.typeMembers_inOrder cells) htype
  · intro i input cell hi hload hskips
    have hm : ⟨cell.cellOutput.lock, .input, i⟩ ∈ v.lockMembers hashes cells :=
      v.mem_lockMembers.mpr ⟨_, cell_at hcells hi hload, hskips, rfl⟩
    rw [(hfilter _).1]
    exact filter_values_gather (v.lockMembers_inOrder cells).places (fun a ha b hb =>
      hinjective _ (lockMembers_scripts hcells ha) _ (lockMembers_scripts hcells hb)) hm
  · intro group hgroup hkind
    have hlocks := (hfilter fun _ => True).1
    simp only [and_true, decide_true, List.filter_true] at hlocks
    obtain ⟨⟨key, _⟩, hentry, rfl⟩ := List.mem_map.mp
      (hlocks ▸ List.mem_filter.mpr ⟨hgroup, decide_eq_true hkind⟩)
    obtain ⟨first, hfirst, -, rfl⟩ := entry_gather hentry
    obtain ⟨output, -, hskips, hmember⟩ := v.mem_lockMembers.mp hfirst
    have hscript : first.script = output.lock := congrArg Member.script hmember
    exact hscript ▸ hskips

end Complete

/-- **Script groups are complete exactly if** no input whose lock is skipped by hash has a type
    script: `continue` takes it out of the type groups as well. -/
theorem script_groups_complete_iff {groups : List ScriptGroup}
    (hok : v.extractScriptGroups hashes = .ok groups)
    (hinjective : ∀ a ∈ v.scripts, ∀ b ∈ v.scripts, v.hash hashes a = v.hash hashes b → a = b) :
    v.Complete hashes groups ↔
      ∀ input ∈ v.tx.inputs, ∀ cell, v.loadCellByOutpoint input.previousOutput = some cell →
        v.skipLockGroups = false →
        v.hash hashes cell.cellOutput.lock ∈ v.skipLockScriptHashes →
        cell.cellOutput.type_ = none := by
  obtain ⟨cells, hcells, rfl⟩ := v.extractScriptGroups_eq_ok.mp hok
  constructor
  · intro hcomplete input hinput cell hload hall hskip
    obtain ⟨i, hi⟩ := List.mem_iff_getElem?.mp hinput
    by_contra htyped
    obtain ⟨script, hscript⟩ := Option.ne_none_iff_exists'.mp htyped
    obtain ⟨group, hone, -⟩ := hcomplete.typedInputs i input cell script hi hload hscript
    rw [(filter_groups _ _ _ _).2] at hone
    obtain ⟨hgroup, hindex⟩ := List.mem_filter.mp (hone ▸ List.mem_singleton_self group)
    obtain ⟨output, hat, hleft⟩ := not_leftEarly_of_grouped hgroup (of_decide_eq_true hindex)
    obtain rfl := Option.some.inj (hat.symm.trans (cell_at hcells hi hload))
    exact hleft ⟨hall, hskip⟩
  · intro hcondition
    refine complete_of_untyped hcells hinjective ?_
    rintro output houtput ⟨hall, hskip⟩
    obtain ⟨input, hinput, cell, hload, rfl⟩ := input_of_cell hcells houtput
    exact hcondition input hinput cell hload hall hskip

end TransactionScriptVerifier

/-! ### Two inputs, one of them with a type script -/

/-- The first byte of the code hash, for scripts. -/
def codeHashes : ScriptHashes :=
  ⟨fun bytes => fill 32 (bytes.getD 23 0), fun bytes => fill 32 (bytes.getD 23 0)⟩

/-- A script by its code hash. -/
def plainScript (code : UInt8) : Script := ⟨fill 32 code, 0, []⟩

/-- A transaction that spends a cell with lock 1 and type 2, and one with lock 3; locks of some hashes
    are skipped. -/
def spendTyped (skipped : List (FixedBytes 32)) : TransactionScriptVerifier where
  tx := ⟨0, [⟨⟨fill 32 9, 0⟩, 0⟩, ⟨⟨fill 32 9, 1⟩, 0⟩], [], [], [], [], []⟩
  loadCellByOutpoint point := some ⟨if point.index = 0 then ⟨plainScript 1, some (plainScript 2), 1000⟩
    else ⟨plainScript 3, none, 1000⟩, some []⟩
  skipLockGroups := false
  skipLockScriptHashes := skipped
  semantics := .myelinExtended

/-- The lock of the second input is skipped. -/
theorem script_groups_complete_iff_other_lock : (spendTyped [fill 32 3]).Complete codeHashes
      [⟨plainScript 1, .lock, [0], []⟩, ⟨plainScript 2, .type, [0], []⟩] := by
  refine ((spendTyped [fill 32 3]).script_groups_complete_iff codeHashes (by decide +kernel)
    (by decide +kernel)).mpr ?_
  intro input _ cell hload _ hskip
  obtain rfl := Option.some.inj hload
  split_ifs at hskip ⊢
  · exact absurd hskip (by decide +kernel)
  · rfl

/-- The lock of the first is skipped, and its type script is gone. -/
theorem skipped_lock_loses_type : (spendTyped [fill 32 1]).extractScriptGroups codeHashes =
        .ok [⟨plainScript 3, .lock, [1], []⟩] ∧
      (spendTyped []).extractScriptGroups codeHashes =
        .ok [⟨plainScript 1, .lock, [0], []⟩, ⟨plainScript 3, .lock, [1], []⟩,
          ⟨plainScript 2, .type, [0], []⟩] ∧
      ¬(spendTyped [fill 32 1]).Complete codeHashes [⟨plainScript 3, .lock, [1], []⟩] := by
  refine ⟨by decide +kernel, by decide +kernel, fun hcomplete => ?_⟩
  obtain ⟨group, hone, -⟩ := hcomplete.typedInputs 0 _ _ (plainScript 2) rfl rfl rfl
  cases hone

end Myelin.Vm
