/-
  Small facts about keyed lists: pushing an element, keys that are distinct on a part, and maps
  filled from a list.

  A map filled in list order remembers the LAST element of each key.  `lastWrite_eq_some` says when
  that is not a matter of order: when the elements of a key write the same.
-/
import Mathlib.Algebra.GroupWithZero.Nat
import Mathlib.Data.List.Dedup
import Mathlib.Data.List.Perm.Subperm

namespace Myelin.Lib

variable {α β : Type} {f : α → β} {list : List α} {a : α}

/-- Keys stay distinct when an element with a new key is pushed. -/
lemma nodup_map_snoc (h : (list.map f).Nodup) (hnew : f a ∉ list.map f) :
    ((list ++ [a]).map f).Nodup := by
  rw [List.map_append, List.nodup_append]
  refine ⟨h, List.nodup_singleton _, ?_⟩
  rintro key hmem _ (hlast : _ ∈ [f a]) rfl
  rw [List.mem_singleton.mp hlast] at hmem
  exact hnew hmem

lemma forall_mem_snoc {p : α → Prop} (h : ∀ x ∈ list, p x) (ha : p a) : ∀ x ∈ list ++ [a], p x :=
  List.forall_mem_append.mpr ⟨h, List.forall_mem_singleton.mpr ha⟩

variable {R : α → β → Prop} {first : List α} {second : List β}

/-- Element-wise relations compose. -/
lemma forall₂_comp {γ : Type} {S : β → γ → Prop} {T : α → γ → Prop}
    (h : ∀ a b c, R a b → S b c → T a c) {third : List γ} (h₁ : List.Forall₂ R first second)
    (h₂ : List.Forall₂ S second third) : List.Forall₂ T first third := by
  induction h₁ generalizing third with
  | nil =>
    cases h₂
    exact .nil
  | cons hab _ ih =>
    cases h₂ with
    | cons hbc hrest => exact .cons (h _ _ _ hab hbc) (ih hrest)

section

variable (h : List.Forall₂ R first second)
include h

/-- Related lists are related place by place. -/
lemma forall₂_getElem? {n : Nat} (ha : first[n]? = some a) : ∃ b, second[n]? = some b ∧ R a b := by
  induction h generalizing n with
  | nil => cases ha
  | @cons _ b _ _ hab _ ih =>
    cases n with
    | zero =>
      cases ha
      exact ⟨b, rfl, hab⟩
    | succ n => exact ih ha

/-- Each element of the left list has a partner in the right one, … -/
lemma forall₂_mem_left (ha : a ∈ first) : ∃ b ∈ second, R a b := by
  obtain ⟨n, hn⟩ := List.mem_iff_getElem?.mp ha
  obtain ⟨b, hb, hab⟩ := forall₂_getElem? h hn
  exact ⟨b, List.mem_of_getElem? hb, hab⟩

/-- … and the other way round. -/
lemma forall₂_mem_right (hb : b ∈ second) :
    ∃ a ∈ first, R a b :=
  forall₂_mem_left (List.Forall₂.flip h) hb

end

/-- Keys are distinct over a whole list when they are distinct on the part that counts and each
    remaining element is the only one with its key. -/
lemma nodup_map_iff_rest [DecidableEq β] (hcounted : ((list.filter counts).map f).Nodup) :
    (list.map f).Nodup ↔ ∀ a ∈ list, counts a = false → (list.map f).count (f a) = 1 := by
  constructor
  · intro hnodup a ha _
    exact List.count_eq_one_of_mem hnodup (List.mem_map_of_mem ha)
  · intro hrest
    rw [List.nodup_iff_count_le_one]
    intro key
    by_cases hstray : ∃ a ∈ list, counts a = false ∧ f a = key
    · obtain ⟨a, ha, hno, rfl⟩ := hstray
      exact Nat.le_of_eq (hrest a ha hno)
    · -- every element with this key counts, so they are the ones already known to be distinct
      have hsame : (list.map f).count key = ((list.filter counts).map f).count key := by
        rw [List.count_eq_countP, List.countP_map, List.count_eq_countP, List.countP_map,
          List.countP_filter]
        refine List.countP_congr fun a ha => ?_
        have hcount : f a = key → counts a = true := by
          intro hkey
          cases hc : counts a with
          | true => rfl
          | false => exact absurd ⟨a, ha, hc, hkey⟩ hstray
        simp only [Function.comp_apply, beq_iff_eq, Bool.and_eq_true]
        exact ⟨fun hkey => ⟨hkey, hcount hkey⟩, fun hboth => hboth.1⟩
      rw [hsame]
      exact List.nodup_iff_count_le_one.mp hcounted key

/-- A list without repetitions that covers `part` has nothing else exactly if it is as long as
    `part` is without repetitions. -/
lemma subset_iff_length_dedup [DecidableEq α] (hnodup : list.Nodup) (hcover : part ⊆ list) :
    list ⊆ part ↔ list.length = part.dedup.length := by
  have hsubperm : part.dedup.Subperm list :=
    (List.nodup_dedup part).subperm fun a ha => hcover (List.mem_dedup.mp ha)
  refine ⟨fun hsubset => Nat.le_antisymm (List.Subperm.length_le ?_) hsubperm.length_le,
    fun hlength a ha => ?_⟩
  · exact hnodup.subperm fun a ha => List.mem_dedup.mpr (hsubset ha)
  · exact List.mem_dedup.mp ((hsubperm.perm_of_length_le (Nat.le_of_eq hlength)).mem_iff.mpr ha)

/-- Two lists of one length are mapped to the same list when their pairs are. -/
lemma map_eq_map_of_zip {γ : Type} {f : α → γ} {g : β → γ} {left : List α} {right : List β}
    (hlength : left.length = right.length) (h : ∀ pair ∈ left.zip right, f pair.1 = g pair.2) :
    left.map f = right.map g :=
  calc left.map f
      = ((left.zip right).map (·.1)).map f := by rw [List.map_fst_zip (Nat.le_of_eq hlength)]
    _ = ((left.zip right).map (·.2)).map g := by
        rw [List.map_map, List.map_map]
        exact List.map_congr_left h
    _ = right.map g := by rw [List.map_snd_zip (Nat.le_of_eq hlength.symm)]

/-- Leaving out elements that count nothing does not change a sum. -/
lemma sum_map_filter {f : α → Nat} {p : α → Bool} (h : ∀ a ∈ list, p a = false → f a = 0) :
    ((list.filter p).map f).sum = (list.map f).sum := by
  induction list with
  | nil => rfl
  | cons a rest ih =>
    obtain ⟨ha, hrest⟩ := List.forall_mem_cons.mp h
    rw [List.filter_cons, List.map_cons, List.sum_cons]
    split
    · rw [List.map_cons, List.sum_cons, ih hrest]
    · rename_i hno
      rw [ih hrest, ha (Bool.eq_false_iff.mpr hno), Nat.zero_add]

/-! ## Finding by key -/

/-- What a search by key finds is in the list and has the key. -/
lemma mem_of_find?_key [DecidableEq β] (h : list.find? (fun x => f x = k) = some a) :
    a ∈ list ∧ f a = k :=
  ⟨List.mem_of_find?_eq_some h, by simpa using List.find?_some h⟩

/-- With distinct keys, a search by an element's key finds the element. -/
lemma find?_key_of_mem [DecidableEq β] (hnodup : (list.map f).Nodup) (ha : a ∈ list) :
    list.find? (fun x => f x = f a) = some a := by
  cases hfind : list.find? (fun x => f x = f a) with
  | none => exact absurd (decide_eq_true rfl) (List.find?_eq_none.mp hfind a ha)
  | some found =>
    obtain ⟨hfound, hkey⟩ := mem_of_find?_key hfind
    rw [List.inj_on_of_nodup_map hnodup hfound ha hkey]

/-- With distinct keys, an element and the elements of other keys are the whole list. -/
lemma perm_cons_filter_key [DecidableEq β] (hnodup : (list.map f).Nodup) (ha : a ∈ list) :
    list.Perm (a :: list.filter (f · ≠ f a)) := by
  classical
  have hfilter : list.filter (f · ≠ f a) = list.erase a := by
    rw [hnodup.of_map.erase_eq_filter]
    refine List.filter_congr fun b hb => ?_
    have hiff : f b = f a ↔ b = a := ⟨List.inj_on_of_nodup_map hnodup hb ha, congrArg f⟩
    simp [hiff, bne, beq_eq_decide]
  rw [hfilter]
  exact List.perm_cons_erase ha

/-! ## Maps filled from a list -/

section LastWrite

variable {κ : Type} [DecidableEq κ] (key : α → κ) (value : α → Option β)

/-- One element writes its value under its key, or nothing. -/
def writeOne (map : κ → Option β) (a : α) : κ → Option β :=
  match value a with
  | some b => Function.update map (key a) (some b)
  | none => map

/-- Elements write in list order. -/
def lastWrite (list : List α) (map : κ → Option β) : κ → Option β :=
  list.foldl (writeOne key value) map

variable {key value}

@[simp] lemma lastWrite_cons (a : α) (rest : List α) (map : κ → Option β) :
    lastWrite key value (a :: rest) map = lastWrite key value rest (writeOne key value map a) :=
  rfl

/-- Under a key stands the last value written there. -/
lemma lastWrite_apply (list : List α) (map : κ → Option β) (k : κ) :
    lastWrite key value list map k =
      ((list.filter (key · = k)).filterMap value).getLast?.or (map k) := by
  induction list generalizing map with
  | nil => rfl
  | cons a rest ih =>
    rw [lastWrite_cons, ih, writeOne]
    by_cases hk : key a = k
    · cases hv : value a with
      | none => simp [hk, hv]
      | some b => simp [hk, hv, List.getLast?_cons]
    · cases value a <;> simp [hk, Ne.symm hk]

/-- What is found under a key was written there. -/
lemma lastWrite_mem (h : lastWrite key value list (fun _ => none) k = some b) :
    ∃ a ∈ list, key a = k ∧ value a = some b := by
  rw [lastWrite_apply, Option.or_none] at h
  simpa [and_assoc] using List.mem_of_getLast? h

/-- An element that writes makes its key present; some element has written there last. -/
lemma exists_lastWrite (key : α → κ) (ha : a ∈ list) (hb : value a = some b) :
    ∃ d, lastWrite key value list (fun _ => none) (key a) = some d ∧
      ∃ c ∈ list, key c = key a ∧ value c = some d := by
  have hwritten : b ∈ (list.filter (key · = key a)).filterMap value :=
    List.mem_filterMap.mpr ⟨a, List.mem_filter.mpr ⟨ha, decide_eq_true rfl⟩, hb⟩
  obtain ⟨d, hd⟩ : ∃ d, lastWrite key value list (fun _ => none) (key a) = some d := by
    rw [lastWrite_apply, Option.or_none]
    exact ⟨_, List.getLast?_eq_some_getLast (List.ne_nil_of_mem hwritten)⟩
  exact ⟨d, hd, lastWrite_mem hd⟩

/-- The last element has the last word. -/
lemma lastWrite_concat (hb : value a = some b) (map : κ → Option β) :
    lastWrite key value (list ++ [a]) map (key a) = some b := by
  simp [lastWrite_apply, List.filter_append, hb]

/-- When the writers of a key agree, what is found there is what any of them writes. -/
lemma lastWrite_eq_some (hagree : ∀ a ∈ list, ∀ c ∈ list, key a = k → key c = k → value a = value c) :
    lastWrite key value list (fun _ => none) k = some b ↔
      ∃ a ∈ list, key a = k ∧ value a = some b := by
  refine ⟨lastWrite_mem, ?_⟩
  rintro ⟨a, ha, rfl, hb⟩
  obtain ⟨d, hd, c, hc, hkey, hvalue⟩ := exists_lastWrite key ha hb
  rw [hd, ← hvalue, ← hb, hagree c hc a ha hkey rfl]

end LastWrite

end Myelin.Lib
