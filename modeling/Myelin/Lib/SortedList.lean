/-
  Vectors kept sorted by a key, searched by `binary_search_by_key`.

  On a strictly ascending vector the search finds THE element with a key, or the place where one
  belongs, so the operations here are stated by key instead of by index.  What an operation does to
  sums over the vector follows from one permutation each (`insertSorted_perm`, `replace_perm`,
  `perm_cons_remove`).
-/
import Mathlib.Data.List.Chain
import Mathlib.Order.Lattice
import Myelin.Lib.Lists

namespace Myelin.Lib

variable {α κ : Type} [LinearOrder κ] (key : α → κ)

/-- `!windows(2).any(|w| key(w[0]) >= key(w[1]))`. -/
def Ascending (list : List α) : Prop := list.IsChain fun a b => key a < key b

instance (list : List α) : Decidable (Ascending key list) :=
  inferInstanceAs (Decidable (list.IsChain _))

/-- The element with a key. -/
def lookup (k : κ) (list : List α) : Option α := list.find? fun a => key a = k

/-- Insert where the search says. -/
def insertSorted (a : α) (list : List α) : List α :=
  list.takeWhile (fun b => key b < key a) ++ a :: list.dropWhile (fun b => key b < key a)

/-- Overwrite the element with the key of `a`. -/
def replace (a : α) (list : List α) : List α := list.map fun b => if key b = key a then a else b

/-- Remove the element with a key. -/
def remove (k : κ) (list : List α) : List α := list.filter fun a => key a ≠ k

variable {key} {list : List α} {a old : α} {k : κ}

lemma Ascending.pairwise (h : Ascending key list) : list.Pairwise fun a b => key a < key b :=
  haveI : IsTrans α fun a b => key a < key b := ⟨fun _ _ _ => lt_trans⟩
  List.isChain_iff_pairwise.mp h

lemma Ascending.nodup_keys (h : Ascending key list) : (list.map key).Nodup :=
  List.pairwise_map.mpr (h.pairwise.imp fun hlt => ne_of_lt hlt)

/-- A key has one element. -/
lemma Ascending.eq_of_key (h : Ascending key list) (ha : a ∈ list) (hb : b ∈ list)
    (hkey : key a = key b) : a = b :=
  List.inj_on_of_nodup_map h.nodup_keys ha hb hkey

lemma mem_of_lookup (h : lookup key k list = some a) : a ∈ list ∧ key a = k :=
  mem_of_find?_key h

lemma lookup_eq_none : lookup key k list = none ↔ ∀ a ∈ list, key a ≠ k := by
  simp [lookup]

/-! ## What the operations hold afterwards -/

lemma insertSorted_perm (key : α → κ) (a : α) (list : List α) :
    (insertSorted key a list).Perm (a :: list) := by
  unfold insertSorted
  refine List.perm_middle.trans ?_
  rw [List.takeWhile_append_dropWhile]

lemma mem_insertSorted : b ∈ insertSorted key a list ↔ b = a ∨ b ∈ list :=
  (insertSorted_perm key a list).mem_iff.trans List.mem_cons

lemma mem_remove : b ∈ remove key k list ↔ b ∈ list ∧ key b ≠ k := by
  simp [remove]

lemma mem_replace (hold : old ∈ list) (hkey : key old = key a) :
    b ∈ replace key a list ↔ b = a ∨ b ∈ list ∧ key b ≠ key a := by
  simp only [replace, List.mem_map]
  constructor
  · rintro ⟨c, hc, rfl⟩
    split
    case isTrue => exact .inl rfl
    case isFalse hne => exact .inr ⟨hc, hne⟩
  · rintro (rfl | ⟨hb, hne⟩)
    · exact ⟨old, hold, if_pos hkey⟩
    · exact ⟨b, hb, if_neg hne⟩

lemma perm_cons_remove (h : Ascending key list) (hold : old ∈ list) :
    list.Perm (old :: remove key (key old) list) :=
  perm_cons_filter_key h.nodup_keys hold

lemma replace_perm (h : Ascending key list) (hold : old ∈ list) (hkey : key old = key a) :
    (replace key a list).Perm (a :: remove key (key a) list) := by
  have hperm := ((perm_cons_remove h hold).map fun b => if key b = key a then a else b)
  have hrest : (remove key (key old) list).map (fun b => if key b = key a then a else b) =
      remove key (key a) list := by
    rw [hkey]
    refine (List.map_congr_left fun b hb => ?_).trans (List.map_id _)
    exact if_neg (mem_remove.mp hb).2
  rw [List.map_cons, if_pos hkey, hrest] at hperm
  exact hperm

end Myelin.Lib
