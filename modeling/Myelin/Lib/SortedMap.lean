/-
  Ordered maps as sorted association lists.

  A `SortedMap` carries the proof that its keys are strictly increasing, so it has ONE
  representation per set of entries: maps with the same entries are equal (`ext_mem`), whatever the
  order in which these were inserted.  Iteration is the list itself.

  Everything follows from `mem_insert` and `mem_erase`, the membership rules.  Sums and products over
  a map go through `perm_cons_erase` and `insert_perm`, which take one entry out.
-/
import Mathlib.Data.List.Induction
import Mathlib.Data.List.Pairwise
import Mathlib.Order.Lattice
import Myelin.Lib.Lists

namespace Myelin.Lib

/-- A map with strictly increasing keys. -/
structure SortedMap (κ α : Type) [LinearOrder κ] where
  /-- The entries, in key order. -/
  entries : List (κ × α)
  sorted : entries.Pairwise fun a b => a.1 < b.1

namespace SortedMap

variable {κ α β : Type} [LinearOrder κ]

instance [DecidableEq α] : DecidableEq (SortedMap κ α) := fun m n =>
  decidable_of_iff (m.entries = n.entries) (by cases m; cases n; simp)

/-- The empty map. -/
def empty : SortedMap κ α := ⟨[], List.Pairwise.nil⟩

/-- The value under a key. -/
def get? (m : SortedMap κ α) (k : κ) : Option α := (m.entries.find? fun e => e.1 = k).map (·.2)

/-- Bind a key, replacing its value. -/
def insert (m : SortedMap κ α) (k : κ) (v : α) : SortedMap κ α where
  entries := (m.entries.filter fun e => e.1 < k) ++ (k, v) :: m.entries.filter fun e => k < e.1
  sorted := by
    refine List.pairwise_append.mpr ⟨m.sorted.filter _, ?_, ?_⟩
    · refine List.pairwise_cons.mpr ⟨fun e he => ?_, m.sorted.filter _⟩
      simpa using (List.mem_filter.mp he).2
    · intro a ha b hb
      have hak : a.1 < k := by simpa using (List.mem_filter.mp ha).2
      rcases List.mem_cons.mp hb with rfl | hb
      · exact hak
      · have hkb : k < b.1 := by simpa using (List.mem_filter.mp hb).2
        exact hak.trans hkb

/-- Unbind a key. -/
def erase (m : SortedMap κ α) (k : κ) : SortedMap κ α where
  entries := m.entries.filter fun e => e.1 ≠ k
  sorted := m.sorted.filter _

/-- The values, in key order. -/
def values (m : SortedMap κ α) : List α := m.entries.map (·.2)

/-- Number of entries. -/
def len (m : SortedMap κ α) : Nat := m.entries.length

variable {m n : SortedMap κ α} {k j : κ} {v w : α} {e : κ × α}

/-! ## Membership -/

lemma nodup_entries (m : SortedMap κ α) : m.entries.Nodup :=
  m.sorted.imp fun h heq => absurd (heq ▸ h) (lt_irrefl _)

lemma nodup_keys (m : SortedMap κ α) : (m.entries.map (·.1)).Nodup :=
  List.pairwise_map.mpr (m.sorted.imp fun h => ne_of_lt h)

/-- A key has one value. -/
lemma value_unique (hv : (k, v) ∈ m.entries) (hw : (k, w) ∈ m.entries) : v = w :=
  congrArg Prod.snd (List.inj_on_of_nodup_map m.nodup_keys hv hw rfl)

lemma get?_eq_some : m.get? k = some v ↔ (k, v) ∈ m.entries := by
  unfold get?
  constructor
  · intro h
    obtain ⟨e, hfind, rfl⟩ := Option.map_eq_some_iff.mp h
    obtain ⟨hmem, rfl⟩ := mem_of_find?_key hfind
    exact hmem
  · intro hmem
    exact congrArg (Option.map Prod.snd) (find?_key_of_mem m.nodup_keys hmem)

lemma mem_insert : e ∈ (m.insert k v).entries ↔ e = (k, v) ∨ e ∈ m.entries ∧ e.1 ≠ k := by
  simp only [insert, List.mem_append, List.mem_cons, List.mem_filter, decide_eq_true_eq]
  constructor
  · rintro (⟨hmem, hlt⟩ | rfl | ⟨hmem, hlt⟩)
    · exact .inr ⟨hmem, hlt.ne⟩
    · exact .inl rfl
    · exact .inr ⟨hmem, hlt.ne'⟩
  · rintro (rfl | ⟨hmem, hne⟩)
    · exact .inr (.inl rfl)
    · rcases lt_or_gt_of_ne hne with hlt | hlt
      · exact .inl ⟨hmem, hlt⟩
      · exact .inr (.inr ⟨hmem, hlt⟩)

lemma mem_erase : e ∈ (m.erase k).entries ↔ e ∈ m.entries ∧ e.1 ≠ k := by
  simp [erase]

/-- Maps with the same entries are equal. -/
lemma ext_mem (h : ∀ e, e ∈ m.entries ↔ e ∈ n.entries) : m = n := by
  have hperm : m.entries.Perm n.entries :=
    (List.perm_ext_iff_of_nodup m.nodup_entries n.nodup_entries).mpr h
  have heq : m.entries = n.entries := hperm.eq_of_pairwise
    (fun a b _ _ hab hba => absurd (hab.trans hba) (lt_irrefl _)) m.sorted n.sorted
  cases m
  cases n
  congr

lemma ext_get? (h : ∀ k, m.get? k = n.get? k) : m = n :=
  ext_mem fun e => by rw [← get?_eq_some, ← get?_eq_some, h]

/-! ## Lookup -/

@[simp] lemma get?_empty : (empty : SortedMap κ α).get? k = none := rfl

@[simp] lemma get?_insert_self : (m.insert k v).get? k = some v :=
  get?_eq_some.mpr (mem_insert.mpr (.inl rfl))

lemma get?_insert_ne (h : j ≠ k) : (m.insert k v).get? j = m.get? j := by
  refine Option.ext fun w => ?_
  simp [get?_eq_some, mem_insert, h]

lemma get?_insert : (m.insert k v).get? j = if j = k then some v else m.get? j := by
  split_ifs with h
  · rw [h, get?_insert_self]
  · exact get?_insert_ne h

@[simp] lemma get?_erase_self : (m.erase k).get? k = none := by
  rw [Option.eq_none_iff_forall_not_mem]
  intro w hw
  exact (mem_erase.mp (get?_eq_some.mp hw)).2 rfl

lemma get?_erase_ne (h : j ≠ k) : (m.erase k).get? j = m.get? j := by
  refine Option.ext fun w => ?_
  simp [get?_eq_some, mem_erase, h]

lemma get?_erase : (m.erase k).get? j = if j = k then none else m.get? j := by
  split_ifs with h
  · rw [h, get?_erase_self]
  · exact get?_erase_ne h

lemma get?_eq_none : m.get? k = none ↔ ∀ e ∈ m.entries, e.1 ≠ k := by
  rw [Option.eq_none_iff_forall_not_mem]
  constructor
  · rintro h ⟨j, w⟩ hmem rfl
    exact h w (get?_eq_some.mpr hmem)
  · intro h w hw
    exact h (k, w) (get?_eq_some.mp hw) rfl

/-! ## Taking one entry out -/

lemma erase_of_get?_none (h : m.get? k = none) : m.erase k = m :=
  ext_mem fun e => mem_erase.trans ⟨And.left, fun he => ⟨he, get?_eq_none.mp h e he⟩⟩

lemma perm_cons_erase (h : m.get? k = some v) :
    m.entries.Perm ((k, v) :: (m.erase k).entries) :=
  perm_cons_filter_key m.nodup_keys (get?_eq_some.mp h)

lemma erase_insert : (m.insert k v).erase k = m.erase k := by
  refine ext_mem fun e => ?_
  rw [mem_erase, mem_insert, mem_erase]
  constructor
  · rintro ⟨rfl | h, hne⟩
    · exact absurd rfl hne
    · exact h
  · intro h
    exact ⟨.inr h, h.2⟩

lemma insert_perm : (m.insert k v).entries.Perm ((k, v) :: (m.erase k).entries) := by
  have hperm := perm_cons_erase (m := m.insert k v) (k := k) (v := v) get?_insert_self
  rwa [erase_insert] at hperm

/-! ## Building a map from a list -/

/-- Insert the entries one by one; a later one replaces an earlier one of its key. -/
def insertAll (m : SortedMap κ α) (list : List (κ × α)) : SortedMap κ α :=
  list.foldl (fun m e => m.insert e.1 e.2) m

variable {list : List (κ × α)}

/-- Fresh distinct keys all end up in the map. -/
lemma mem_insertAll (hnodup : (list.map (·.1)).Nodup) :
    e ∈ (m.insertAll list).entries ↔ e ∈ list ∨ e ∈ m.entries ∧ ∀ f ∈ list, e.1 ≠ f.1 := by
  induction list generalizing m with
  | nil => simp [insertAll]
  | cons head rest ih =>
    obtain ⟨hnew, hrest⟩ := List.nodup_cons.mp hnodup
    have hfresh : ∀ f ∈ rest, head.1 ≠ f.1 := fun f hf heq =>
      hnew (List.mem_map.mpr ⟨f, hf, heq.symm⟩)
    rw [insertAll, List.foldl_cons, ← insertAll, ih hrest, mem_insert, List.forall_mem_cons,
      List.mem_cons]
    constructor
    · rintro (h | ⟨rfl | ⟨hmem, hne⟩, hall⟩)
      · exact .inl (.inr h)
      · exact .inl (.inl rfl)
      · exact .inr ⟨hmem, hne, hall⟩
    · rintro ((rfl | h) | ⟨hmem, hne, hall⟩)
      · exact .inr ⟨.inl rfl, hfresh⟩
      · exact .inl h
      · exact .inr ⟨.inr ⟨hmem, hne⟩, hall⟩

lemma get?_insertAll_of_not_mem (h : k ∉ list.map (·.1)) :
    (m.insertAll list).get? k = m.get? k := by
  induction list generalizing m with
  | nil => rfl
  | cons head rest ih =>
    obtain ⟨hne, hrest⟩ := List.ne_and_not_mem_of_not_mem_cons h
    rw [insertAll, List.foldl_cons, ← insertAll, ih hrest, get?_insert_ne hne]

/-- Maps that agree at a key still do after the same insertions. -/
lemma get?_insertAll_congr (h : m.get? k = n.get? k) :
    (m.insertAll list).get? k = (n.insertAll list).get? k := by
  induction list generalizing m n with
  | nil => exact h
  | cons head rest ih =>
    rw [insertAll, insertAll, List.foldl_cons, List.foldl_cons, ← insertAll, ← insertAll]
    refine ih ?_
    rcases eq_or_ne k head.1 with rfl | hne
    · rw [get?_insert_self, get?_insert_self]
    · rw [get?_insert_ne hne, get?_insert_ne hne, h]

/-- A map is rebuilt from its own entries, in whatever order they come. -/
lemma insertAll_perm (h : list.Perm m.entries) : (empty : SortedMap κ α).insertAll list = m := by
  have hnodup : (list.map (·.1)).Nodup := ((h.map (·.1)).nodup_iff).mpr m.nodup_keys
  refine ext_mem fun e => ?_
  rw [mem_insertAll hnodup, ← h.mem_iff]
  simp [empty]

/-! ## Taking several entries out -/

/-- Unbind every key of a list. -/
def eraseAll (m : SortedMap κ α) (keys : List κ) : SortedMap κ α := keys.foldl erase m

/-- What a map of lists holds under some of its keys, in the order of the keys. -/
def under {γ : Type} (m : SortedMap κ (List γ)) (keys : List κ) : List γ :=
  keys.flatMap fun k => (m.get? k).getD []

/-- Everything a map of lists holds. -/
def contents {γ : Type} (m : SortedMap κ (List γ)) : List γ := m.entries.flatMap (·.2)

lemma get?_eraseAll (h : k ∉ keys) : (m.eraseAll keys).get? k = m.get? k := by
  induction keys generalizing m with
  | nil => rfl
  | cons j rest ih =>
    obtain ⟨hj, hrest⟩ := List.ne_and_not_mem_of_not_mem_cons h
    rw [eraseAll, List.foldl_cons, ← eraseAll, ih hrest, get?_erase_ne hj]

lemma get?_eraseAll_of_mem (h : k ∈ keys) : (m.eraseAll keys).get? k = none := by
  induction keys generalizing m with
  | nil => exact absurd h List.not_mem_nil
  | cons j rest ih =>
    rw [eraseAll, List.foldl_cons, ← eraseAll]
    by_cases hlater : k ∈ rest
    · exact ih hlater
    · obtain rfl : k = j := (List.mem_cons.mp h).resolve_right hlater
      rw [get?_eraseAll hlater, get?_erase_self]

lemma under_congr {γ : Type} {m n : SortedMap κ (List γ)} (h : ∀ k ∈ keys, m.get? k = n.get? k) :
    m.under keys = n.under keys :=
  List.flatMap_congr fun k hk => by rw [h k hk]

/-- The keys that are taken out hold, together with the rest, what the map held. -/
lemma contents_perm_eraseAll {γ : Type} {m : SortedMap κ (List γ)} (hnodup : keys.Nodup)
    (hall : ∀ k ∈ keys, (m.get? k).isSome) :
    m.contents.Perm (m.under keys ++ (m.eraseAll keys).contents) := by
  induction keys generalizing m with
  | nil => exact .refl _
  | cons k rest ih =>
    obtain ⟨hk, hrest⟩ := List.nodup_cons.mp hnodup
    obtain ⟨hsome, hothers⟩ := List.forall_mem_cons.mp hall
    obtain ⟨held, hheld⟩ := Option.isSome_iff_exists.mp hsome
    have hsame : ∀ j ∈ rest, (m.erase k).get? j = m.get? j := fun j hj =>
      get?_erase_ne fun heq => hk (heq ▸ hj)
    have hlater : ∀ j ∈ rest, ((m.erase k).get? j).isSome := fun j hj => hsame j hj ▸ hothers j hj
    have hone : m.contents.Perm (held ++ (m.erase k).contents) :=
      (perm_cons_erase hheld).flatMap_right fun e : κ × List γ => e.2
    have hrun := ih hrest hlater
    rw [under_congr hsame] at hrun
    have hunder : m.under (k :: rest) = held ++ m.under rest := by
      rw [under, List.flatMap_cons, hheld, Option.getD_some, ← under]
    rw [hunder, List.append_assoc]
    exact hone.trans (hrun.append_left held)

lemma contents_insert_perm {γ : Type} {m : SortedMap κ (List γ)} (held : List γ)
    (hnew : m.get? k = none) : (m.insert k held).contents.Perm (held ++ m.contents) := by
  have hperm := (insert_perm (m := m) (k := k) (v := held)).flatMap_right fun e : κ × List γ => e.2
  rwa [erase_of_get?_none hnew] at hperm

/-! ## Maps of lists -/

/-- The list under a key, empty if there is none. -/
def listAt (m : SortedMap κ (List α)) (k : κ) : List α := (m.get? k).getD []

/-- Append to the list under a key. -/
def push (m : SortedMap κ (List α)) (k : κ) (a : α) : SortedMap κ (List α) :=
  m.insert k (m.listAt k ++ [a])

@[simp] lemma listAt_empty : (empty : SortedMap κ (List α)).listAt k = [] := rfl

@[simp] lemma listAt_push_self {m : SortedMap κ (List α)} :
    (m.push k a).listAt k = m.listAt k ++ [a] := by
  rw [listAt, push, get?_insert_self, Option.getD_some]

lemma listAt_push_ne {m : SortedMap κ (List α)} (h : j ≠ k) :
    (m.push k a).listAt j = m.listAt j := by
  rw [listAt, push, get?_insert_ne h, listAt]

lemma mem_listAt_push {m : SortedMap κ (List α)} :
    b ∈ (m.push k a).listAt j ↔ b ∈ m.listAt j ∨ j = k ∧ b = a := by
  rcases eq_or_ne j k with rfl | hne
  · simp only [listAt_push_self, List.mem_append, List.mem_singleton, true_and]
  · rw [listAt_push_ne hne]
    exact (or_iff_left fun h => hne h.1).symm

/-! ## Sets of keys -/

/-- The keys, in order. -/
def keys (m : SortedMap κ α) : List κ := m.entries.map (·.1)

/-- The keys of a list, as a set. -/
def ofKeys (list : List κ) : SortedMap κ Unit := list.foldl (fun m k => m.insert k ()) empty

lemma mem_keys : k ∈ m.keys ↔ ∃ v, m.get? k = some v := by
  simp only [keys, List.mem_map, get?_eq_some, Prod.exists, exists_and_right, exists_eq_right]

lemma mem_keys_insert : j ∈ (m.insert k v).keys ↔ j = k ∨ j ∈ m.keys := by
  simp only [mem_keys, get?_insert]
  split_ifs with h
  · simp [h]
  · simp [h]

@[simp] lemma mem_keys_ofKeys {list : List κ} : k ∈ (ofKeys list).keys ↔ k ∈ list := by
  induction list using List.reverseRecOn with
  | nil => exact iff_of_false List.not_mem_nil List.not_mem_nil
  | append_singleton list last ih =>
    simp only [ofKeys, List.foldl_append, List.foldl_cons, List.foldl_nil] at ih ⊢
    rw [mem_keys_insert, ih, List.mem_append, List.mem_singleton, or_comm]

end SortedMap

end Myelin.Lib
