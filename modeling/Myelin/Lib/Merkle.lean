/-
  Merkle trees whose odd nodes are passed on.

  A tree over a list is built level by level (`pairUp`): neighbours are joined, and a last node
  without a neighbour goes to the next level as it is.  So leaves can have different depths.  A proof
  for a leaf lists the siblings on the way up, and a level at which the node has none contributes
  NOTHING; what is needed to climb back are also the sides the siblings stand on (`address`).

    - `digest_injective`, `flatMap_leaves_reduce`: with collision-free hashing the root determines the
      whole tree, and the tree lists its data in order, joined or passed on;
    - `climbBy_siblings`: climbing with the right sides ends at the root;
    - `at?_of_climbBy`, `exists_leaf_of_at?`: with collision-free hashing NOTHING else ends there, so
      an accepted proof is the proof of some leaf, at that leaf's address;
    - a verifier that reads the sides off a leaf INDEX uses `bits` in place of `address`.
      `address_of_paired` and `eq_of_address_eq_bits` say when the two agree: exactly for the leaves
      whose ancestors all have a sibling (`Paired`), which are the leaves of full depth.
-/
import Mathlib.Algebra.Ring.Parity
import Mathlib.Data.List.Induction
import Mathlib.Data.Nat.Log

namespace Myelin.Lib.Merkle

variable {α β H : Type}
variable {fuel : Nat} {join' : β → β → β}

/-! ## Building and climbing -/

/-- One level up: neighbours are joined, an odd one at the end is passed on. -/
def pairUp (join : α → α → α) : List α → List α
  | a :: b :: rest => join a b :: pairUp join rest
  | [a] => [a]
  | [] => []

/-- Levels up to the root, at most `fuel` of them. -/
def reduce (join : α → α → α) : Nat → List α → List α
  | 0, level => level
  | fuel + 1, level => if 1 < level.length then reduce join fuel (pairUp join level) else level

/-- Where the sibling of a node would stand. -/
def siblingIndex (index : Nat) : Nat := if index % 2 = 0 then index + 1 else index - 1

/-- The siblings on the way up from a node, as far as there are any. -/
def siblings (join : α → α → α) : Nat → List α → Nat → List α
  | 0, _, _ => []
  | fuel + 1, level, index =>
      if 1 < level.length then
        level[siblingIndex index]?.toList ++ siblings join fuel (pairUp join level) (index / 2)
      else []

/-- Climb a path; the side of each sibling is given, `true` for the left. -/
def climbBy (join : α → α → α) : α → List Bool → List α → α
  | current, left :: sides, sibling :: path =>
      climbBy join (if left then join sibling current else join current sibling) sides path
  | current, _, _ => current

/-- The lowest binary digits of a number, lowest first. -/
def bits : Nat → Nat → List Bool
  | 0, _ => []
  | count + 1, n => (n % 2 = 1) :: bits count (n / 2)

/-- The sides of the siblings of a node, among `size` nodes of its level. -/
def address : Nat → Nat → Nat → List Bool
  | 0, _, _ => []
  | fuel + 1, size, index =>
      if 1 < size then
        (if index % 2 = 1 then [true] else if index + 1 < size then [false] else []) ++
          address fuel ((size + 1) / 2) (index / 2)
      else []

/-- Below the root, every ancestor of a leaf has a sibling. -/
def Paired (size index : Nat) : Prop :=
  ∀ level, 2 ^ level < size → index / 2 ^ level % 2 = 1 ∨ index / 2 ^ level < (size - 1) / 2 ^ level

/-! ## Levels -/

section Levels

variable {join : α → α → α} {level : List α} {a b : α}

@[simp] lemma pairUp_length (join : α → α → α) (level : List α) :
    (pairUp join level).length = (level.length + 1) / 2 := by
  fun_induction pairUp join level with
  | case1 a b rest ih =>
    rw [List.length_cons, ih, List.length_cons, List.length_cons]
    omega
  | case2 a | case3 => simp

variable {k : Nat}

lemma pairUp_pair (ha : level[2 * k]? = some a) (hb : level[2 * k + 1]? = some b) :
    (pairUp join level)[k]? = some (join a b) := by
  fun_induction pairUp join level generalizing k with
  | case1 x y rest ih =>
    cases k with
    | zero =>
      simp only [Nat.mul_zero, List.getElem?_cons_zero, Option.some.injEq] at ha
      simp only [Nat.mul_zero, Nat.zero_add, List.getElem?_cons_succ, List.getElem?_cons_zero,
        Option.some.injEq] at hb
      rw [ha, hb, List.getElem?_cons_zero]
    | succ k => exact ih ha hb
  | case2 => simp at hb
  | case3 => simp at ha

lemma pairUp_last (ha : level[2 * k]? = some a) (hb : level[2 * k + 1]? = none) :
    (pairUp join level)[k]? = some a := by
  fun_induction pairUp join level generalizing k with
  | case1 x y rest ih =>
    cases k with
    | zero => simp at hb
    | succ k => exact ih ha hb
  | case2 x =>
    cases k with
    | zero => exact ha
    | succ k => simp at ha
  | case3 => simp at ha

/-- Where a node of the next level comes from. -/
lemma pairUp_cases (h : (pairUp join level)[k]? = some c) :
    (∃ a b, level[2 * k]? = some a ∧ level[2 * k + 1]? = some b ∧ c = join a b) ∨
      (level[2 * k]? = some c ∧ level[2 * k + 1]? = none) := by
  have hk : k < (level.length + 1) / 2 := by
    rw [← pairUp_length join level]
    exact (List.getElem?_eq_some_iff.mp h).1
  obtain ⟨a, ha⟩ : ∃ a, level[2 * k]? = some a :=
    ⟨_, List.getElem?_eq_getElem (by omega)⟩
  cases hb : level[2 * k + 1]? with
  | some b =>
    rw [pairUp_pair ha hb] at h
    exact .inl ⟨a, b, ha, rfl, (Option.some.inj h).symm⟩
  | none =>
    rw [pairUp_last ha hb] at h
    exact .inr ⟨ha.trans h, rfl⟩

lemma pairUp_map (hf : ∀ a b, f (join a b) = join' (f a) (f b)) (level : List α) :
    pairUp join' (level.map f) = (pairUp join level).map f := by
  fun_induction pairUp join level with
  | case1 a b rest ih => rw [List.map_cons, List.map_cons, pairUp, ih, ← hf, List.map_cons]
  | case2 | case3 => rfl

lemma reduce_map (hf : ∀ a b, f (join a b) = join' (f a) (f b)) (fuel : Nat) (level : List α) :
    reduce join' fuel (level.map f) = (reduce join fuel level).map f := by
  induction fuel generalizing level with
  | zero => rfl
  | succ fuel ih =>
    unfold reduce
    rw [List.length_map]
    split_ifs
    · rw [pairUp_map hf, ih]
    · rfl

/-- A level that has a node but not two. -/
lemma eq_singleton (hlength : level.length ≤ 1) (ha : level[k]? = some a) :
    level = [a] ∧ k = 0 := by
  match level, hlength with
  | [], _ => simp at ha
  | [x], _ =>
    cases k with
    | zero => exact ⟨by rw [Option.some.inj ha], rfl⟩
    | succ k => simp at ha

/-- **Climbing back**: from any node, by its siblings on their right sides, to the root. -/
theorem climbBy_siblings (hfuel : level.length ≤ fuel + 1) (ha : level[k]? = some a) :
    reduce join fuel level =
      [climbBy join a (address fuel level.length k) (siblings join fuel level k)] := by
  induction fuel generalizing level k a with
  | zero =>
    obtain ⟨rfl, rfl⟩ := eq_singleton hfuel ha
    rfl
  | succ fuel ih =>
    have hk : k < level.length := (List.getElem?_eq_some_iff.mp ha).1
    by_cases hmany : 1 < level.length
    · have hnext : (pairUp join level).length ≤ fuel + 1 := by
        rw [pairUp_length]
        omega
      rw [reduce, address, siblings, if_pos hmany, if_pos hmany, if_pos hmany]
      -- the node at `k` is the left one of a pair, the odd one at the end, or the right one of a pair
      rcases Nat.even_or_odd' k with ⟨m, rfl | rfl⟩
      · have hhalf : 2 * m / 2 = m := by omega
        rw [siblingIndex, if_pos (Nat.mul_mod_right 2 m), hhalf, if_neg (by omega)]
        cases hb : level[2 * m + 1]? with
        | some b =>
          have hlt : 2 * m + 1 < level.length := (List.getElem?_eq_some_iff.mp hb).1
          rw [if_pos hlt, ih hnext (pairUp_pair ha hb), pairUp_length]
          rfl
        | none =>
          have hge : level.length ≤ 2 * m + 1 := List.getElem?_eq_none_iff.mp hb
          rw [if_neg (by omega), ih hnext (pairUp_last ha hb), pairUp_length]
          rfl
      · have hhalf : (2 * m + 1) / 2 = m := by omega
        obtain ⟨b, hb⟩ : ∃ b, level[2 * m]? = some b := ⟨_, List.getElem?_eq_getElem (by omega)⟩
        have hodd : (2 * m + 1) % 2 = 1 := by omega
        rw [hhalf, if_pos hodd, siblingIndex, if_neg (by omega), Nat.add_sub_cancel, hb,
          ih hnext (pairUp_pair hb ha), pairUp_length]
        rfl
    · obtain ⟨rfl, rfl⟩ := eq_singleton (Nat.not_lt.mp hmany) ha
      rfl

lemma siblings_length (hk : k < level.length) :
    (siblings join fuel level k).length = (address fuel level.length k).length := by
  induction fuel generalizing level k with
  | zero => rfl
  | succ fuel ih =>
    rw [siblings, address]
    split_ifs with hmany hodd hlt
    · have hrest : k / 2 < (pairUp join level).length := by rw [pairUp_length]; omega
      have hsibling : k - 1 < level.length := by omega
      rw [List.length_append, List.length_append, ih hrest, pairUp_length, siblingIndex,
        if_neg (by omega), List.getElem?_eq_getElem hsibling]
      rfl
    · have hrest : k / 2 < (pairUp join level).length := by rw [pairUp_length]; omega
      rw [List.length_append, List.length_append, ih hrest, pairUp_length, siblingIndex,
        if_pos (by omega), List.getElem?_eq_getElem hlt]
      rfl
    · have hrest : k / 2 < (pairUp join level).length := by rw [pairUp_length]; omega
      rw [List.length_append, List.length_append, ih hrest, pairUp_length, siblingIndex,
        if_pos (by omega), List.getElem?_eq_none (by omega)]
      rfl
    · rfl

end Levels

/-! ## Soundness of climbing -/

/-- A binary tree with data at its leaves. -/
inductive Tree (α : Type) where
  | leaf (a : α)
  | node (left right : Tree α)

/-- Root hash of a tree. -/
def Tree.digest (leaf : α → H) (join : H → H → H) : Tree α → H
  | .leaf a => leaf a
  | .node left right => join (left.digest leaf join) (right.digest leaf join)

/-- The leaf at an address, read from the root; `true` means that the sibling is on the left. -/
def Tree.at? : Tree α → List Bool → Option α
  | .leaf a, [] => some a
  | .node left right, side :: sides => if side then right.at? sides else left.at? sides
  | _, _ => none

/-- No two different things hash alike. -/
structure CollisionFree (leaf : α → H) (join : H → H → H) : Prop where
  leaf_injective : Function.Injective leaf
  join_injective : ∀ a b c d, join a b = join c d → a = c ∧ b = d
  leaf_ne_join : ∀ x a b, leaf x ≠ join a b

/-- The data of a tree, from left to right. -/
def Tree.leaves : Tree α → List α
  | .leaf a => [a]
  | .node left right => left.leaves ++ right.leaves

/-- A level lists the same data as the level below it, joined or passed on. -/
lemma flatMap_leaves_pairUp (level : List (Tree α)) :
    (pairUp Tree.node level).flatMap Tree.leaves = level.flatMap Tree.leaves := by
  fun_induction pairUp Tree.node level with
  | case1 a b rest ih => simp only [List.flatMap_cons, Tree.leaves, ih, List.append_assoc]
  | case2 | case3 => rfl

lemma flatMap_leaves_reduce (fuel : Nat) (level : List (Tree α)) :
    (reduce Tree.node fuel level).flatMap Tree.leaves = level.flatMap Tree.leaves := by
  induction fuel generalizing level with
  | zero => rfl
  | succ fuel ih =>
    unfold reduce
    split_ifs
    · rw [ih, flatMap_leaves_pairUp]
    · rfl

variable {t : Tree α}

section Soundness

variable {join : H → H → H} {leaf : α → H}

/-- A digest determines the tree, shape and data. -/
lemma digest_injective (hfree : CollisionFree leaf join) :
    Function.Injective (Tree.digest leaf join) := by
  intro s t h
  induction s generalizing t with
  | leaf a =>
    cases t with
    | leaf b => rw [hfree.leaf_injective h]
    | node left right => exact absurd h (hfree.leaf_ne_join _ _ _)
  | node left right ihleft ihright =>
    cases t with
    | leaf b => exact absurd h.symm (hfree.leaf_ne_join _ _ _)
    | node left' right' =>
      obtain ⟨hleft, hright⟩ := hfree.join_injective _ _ _ _ h
      rw [ihleft hleft, ihright hright]

variable {sides : List Bool}

lemma climbBy_snoc (hlength : sides.length = path.length) :
    climbBy join current (sides ++ [left]) (path ++ [sibling]) =
      if left then join sibling (climbBy join current sides path)
      else join (climbBy join current sides path) sibling := by
  induction path generalizing current sides with
  | nil =>
    rw [List.length_nil, List.length_eq_zero_iff] at hlength
    subst hlength
    rfl
  | cons first path ih =>
    match sides, hlength with
    | side :: sides, hlength => exact ih (Nat.succ.inj hlength)

/-- A climb from a leaf hash to the root of a tree follows an address of the tree, to that leaf.
    The siblings are whatever the climber says they are. -/
lemma at?_of_climbBy (hfree : CollisionFree leaf join) (hlength : sides.length = path.length)
    (h : climbBy join (leaf x) sides path = t.digest leaf join) : t.at? sides.reverse = some x := by
  -- from the root down: the last step of the climb is the root's own join
  induction path using List.reverseRecOn generalizing t sides with
  | nil =>
    rw [List.length_nil, List.length_eq_zero_iff] at hlength
    subst hlength
    cases t with
    | leaf a => rw [hfree.leaf_injective h]; rfl
    | node left right => exact absurd h (hfree.leaf_ne_join _ _ _)
  | append_singleton path sibling ih =>
    rcases List.eq_nil_or_concat sides with rfl | ⟨sides, side, rfl⟩
    · simp at hlength
    · rw [List.concat_eq_append] at hlength h ⊢
      have hshort : sides.length = path.length := by simpa using hlength
      rw [climbBy_snoc hshort] at h
      rw [List.reverse_append, List.reverse_singleton, List.singleton_append]
      cases t with
      | leaf a => cases side <;> exact absurd h.symm (hfree.leaf_ne_join _ _ _)
      | node left right =>
        cases side with
        | true => exact ih hshort (hfree.join_injective _ _ _ _ h).2
        | false => exact ih hshort (hfree.join_injective _ _ _ _ h).1

/-- An address of a tree built from smaller ones leads into one of these, by way of its address. -/
lemma exists_of_at?_reduce (hfuel : level.length ≤ fuel + 1)
    (ht : reduce Tree.node fuel level = [t]) (h : t.at? sides = some x) :
    ∃ k sub rest, level[k]? = some sub ∧ sub.at? rest = some x ∧
      sides = (address fuel level.length k).reverse ++ rest := by
  induction fuel generalizing level with
  | zero =>
    rw [reduce] at ht
    subst ht
    exact ⟨0, t, sides, rfl, h, rfl⟩
  | succ fuel ih =>
    rw [reduce] at ht
    split_ifs at ht with hmany
    · have hnext : (pairUp Tree.node level).length ≤ fuel + 1 := by
        rw [pairUp_length]
        omega
      obtain ⟨m, sub, rest, hsub, hat, rfl⟩ := ih hnext ht
      rw [pairUp_length]
      have haddress : ∀ k, k / 2 = m → address (fuel + 1) level.length k =
          (if k % 2 = 1 then [true] else if k + 1 < level.length then [false] else []) ++
            address fuel ((level.length + 1) / 2) m := by
        rintro k rfl
        rw [address, if_pos hmany]
      rcases pairUp_cases hsub with ⟨a, b, ha, hb, rfl⟩ | ⟨ha, hb⟩
      · -- the joined node: its address goes on to the one or the other
        have hlt : 2 * m + 1 < level.length := (List.getElem?_eq_some_iff.mp hb).1
        match rest, hat with
        | true :: rest, hat =>
          refine ⟨2 * m + 1, b, rest, hb, hat, ?_⟩
          rw [haddress _ (by omega), if_pos (by omega), List.reverse_append, List.append_assoc]
          rfl
        | false :: rest, hat =>
          refine ⟨2 * m, a, rest, ha, hat, ?_⟩
          rw [haddress _ (by omega), if_neg (by omega), if_pos hlt, List.reverse_append,
            List.append_assoc]
          rfl
      · have hge : level.length ≤ 2 * m + 1 := List.getElem?_eq_none_iff.mp hb
        refine ⟨2 * m, sub, rest, ha, hat, ?_⟩
        rw [haddress _ (by omega), if_neg (by omega), if_neg (by omega), List.nil_append]
    · subst ht
      exact ⟨0, t, sides, rfl, h, rfl⟩

/-- The addresses of a tree over a list are the addresses of the list's places. -/
lemma exists_leaf_of_at? {list : List α} (hfuel : list.length ≤ fuel + 1)
    (ht : reduce Tree.node fuel (list.map Tree.leaf) = [t]) (h : t.at? sides = some x) :
    ∃ k, list[k]? = some x ∧ sides.reverse = address fuel list.length k := by
  have hfuel' : (list.map Tree.leaf).length ≤ fuel + 1 := by rwa [List.length_map]
  obtain ⟨k, sub, rest, hsub, hat, rfl⟩ := exists_of_at?_reduce hfuel' ht h
  rw [List.getElem?_map, Option.map_eq_some_iff] at hsub
  obtain ⟨a, ha, rfl⟩ := hsub
  match rest, hat with
  | [], hat =>
    refine ⟨k, ha.trans hat, ?_⟩
    rw [List.append_nil, List.reverse_reverse, List.length_map]

end Soundness

/-! ## Addresses and indices -/

section Addresses

variable {size index other : Nat}

@[simp] lemma bits_length (count n : Nat) : (bits count n).length = count := by
  induction count generalizing n with
  | zero => rfl
  | succ count ih => rw [bits, List.length_cons, ih]

/-- Numbers with the same lowest digits, and no others. -/
lemma eq_of_bits_eq (hm : m < 2 ^ count) (hn : n < 2 ^ count) (h : bits count m = bits count n) :
    m = n := by
  induction count generalizing m n with
  | zero => omega
  | succ count ih =>
    rw [bits, bits, List.cons.injEq, decide_eq_decide] at h
    have hhalf := ih (by omega) (by omega) h.2
    omega

lemma paired_of_le_one (h : size ≤ 1) : Paired size index := by
  intro level hlevel
  have := Nat.one_le_two_pow (n := level)
  omega

/-- Having siblings all the way up, one level at a time. -/
lemma paired_iff (h : 1 < size) :
    Paired size index ↔
      (index % 2 = 1 ∨ index + 1 < size) ∧ Paired ((size + 1) / 2) (index / 2) := by
  have hlast : (size + 1) / 2 - 1 = (size - 1) / 2 := by omega
  constructor
  · intro hpaired
    refine ⟨?_, fun level hlevel => ?_⟩
    · have hbottom := hpaired 0 (by omega)
      rw [Nat.pow_zero, Nat.div_one, Nat.div_one] at hbottom
      omega
    · have hup := hpaired (level + 1) (by rw [Nat.pow_succ]; omega)
      rw [Nat.pow_succ', ← Nat.div_div_eq_div_mul, ← Nat.div_div_eq_div_mul, ← hlast] at hup
      exact hup
  · rintro ⟨hbottom, hpaired⟩ level hlevel
    cases level with
    | zero =>
      rw [Nat.pow_zero, Nat.div_one, Nat.div_one]
      omega
    | succ level =>
      have hup := hpaired level (by rw [Nat.pow_succ] at hlevel; omega)
      rw [hlast, Nat.div_div_eq_div_mul, Nat.div_div_eq_div_mul, ← Nat.pow_succ'] at hup
      exact hup

lemma clog_eq (h : 1 < size) : Nat.clog 2 size = Nat.clog 2 ((size + 1) / 2) + 1 :=
  Nat.clog_of_two_le (by omega) h

/-- The address of a node: its own side, if it has a sibling, then those of its parent. -/
lemma address_succ (hmany : 1 < size) (hindex : index < size) :
    (index % 2 = 1 ∨ index + 1 < size) ∧ address (fuel + 1) size index =
        decide (index % 2 = 1) :: address fuel ((size + 1) / 2) (index / 2) ∨
      index = size - 1 ∧ index % 2 = 0 ∧
        address (fuel + 1) size index = address fuel ((size + 1) / 2) (index / 2) := by
  rw [address, if_pos hmany]
  by_cases hodd : index % 2 = 1
  · rw [if_pos hodd, decide_eq_true hodd]
    exact .inl ⟨.inl hodd, rfl⟩
  · rw [if_neg hodd, decide_eq_false hodd]
    by_cases hlt : index + 1 < size
    · rw [if_pos hlt]
      exact .inl ⟨.inr hlt, rfl⟩
    · rw [if_neg hlt]
      exact .inr ⟨by omega, by omega, rfl⟩

section

variable (hfuel : size ≤ fuel + 1)
include hfuel

/-- With a sibling at every level, the sides are the digits of the index. -/
lemma address_of_paired (hindex : index < size) (hpaired : Paired size index) :
    address fuel size index = bits (Nat.clog 2 size) index := by
  induction fuel generalizing size index with
  | zero =>
    obtain rfl : size = 1 := by omega
    rfl
  | succ fuel ih =>
    by_cases hmany : 1 < size
    · obtain ⟨hbottom, hup⟩ := (paired_iff hmany).mp hpaired
      rcases @address_succ fuel _ _ hmany hindex with ⟨-, heq⟩ | ⟨hend, heven, -⟩
      · rw [heq, ih (by omega) (by omega) hup, clog_eq hmany, bits]
      · omega
    · obtain rfl : size = 1 := by omega
      rfl

/-- A level without a sibling makes the address shorter, for good. -/
lemma address_length (hindex : index < size) :
    (address fuel size index).length ≤ Nat.clog 2 size ∧
      ((address fuel size index).length = Nat.clog 2 size → Paired size index) := by
  induction fuel generalizing size index with
  | zero => exact ⟨Nat.zero_le _, fun _ => paired_of_le_one hfuel⟩
  | succ fuel ih =>
    by_cases hmany : 1 < size
    · obtain ⟨hle, hpaired⟩ := @ih ((size + 1) / 2) (index / 2) (by omega) (by omega)
      rw [clog_eq hmany]
      rcases @address_succ fuel _ _ hmany hindex with ⟨hsibling, heq⟩ | ⟨-, -, heq⟩
      · rw [heq, List.length_cons]
        exact ⟨by omega, fun _ => (paired_iff hmany).mpr ⟨hsibling, hpaired (by omega)⟩⟩
      · rw [heq]
        exact ⟨by omega, fun hfull => absurd hfull (by omega)⟩
    · rw [address, if_neg hmany]
      exact ⟨Nat.zero_le _, fun _ => paired_of_le_one (Nat.not_lt.mp hmany)⟩

/-- No leaf is less deep than the last one. -/
lemma address_last_length_le (hindex : index < size) :
    (address fuel size (size - 1)).length ≤ (address fuel size index).length := by
  induction fuel generalizing size index with
  | zero => exact Nat.zero_le _
  | succ fuel ih =>
    by_cases hmany : 1 < size
    · have hle := @ih ((size + 1) / 2) (index / 2) (by omega) (by omega)
      have hlast : (size + 1) / 2 - 1 = (size - 1) / 2 := by omega
      rw [hlast] at hle
      rcases @address_succ fuel _ _ hmany hindex with ⟨-, hmine⟩ | ⟨rfl, -, -⟩
      · rcases @address_succ fuel size (size - 1) hmany (by omega) with ⟨-, heq⟩ | ⟨-, -, heq⟩ <;>
          simp only [hmine, heq, List.length_cons] <;> omega
      · exact Nat.le_refl _
    · rw [address, if_neg hmany]
      exact Nat.zero_le _

/-- The lowest sibling of the last leaf is on its left. -/
lemma address_last (hmany : 1 < size) : ∃ rest, address fuel size (size - 1) = true :: rest := by
  induction fuel generalizing size with
  | zero => omega
  | succ fuel ih =>
    rw [address, if_pos hmany]
    by_cases hodd : (size - 1) % 2 = 1
    · rw [if_pos hodd]
      exact ⟨_, rfl⟩
    · rw [if_neg hodd, if_neg (by omega), List.nil_append]
      have hlast : (size + 1) / 2 - 1 = (size - 1) / 2 := by omega
      rw [← hlast]
      exact ih (by omega) (by omega)

/-- **Only paired leaves answer to their index**: if the digits of an index, as many as the leaf there
    has siblings, are the address of some leaf, then of this one, and all its ancestors have
    siblings. -/
theorem eq_of_address_eq_bits (hindex : index < size) (hother : other < size)
    (h : address fuel size other = bits (address fuel size index).length index) :
    other = index ∧ Paired size index := by
  induction fuel generalizing size index other with
  | zero => exact ⟨by omega, paired_of_le_one hfuel⟩
  | succ fuel ih =>
    by_cases hmany : 1 < size
    · have hlast : (size + 1) / 2 - 1 = (size - 1) / 2 := by omega
      have hdeep : ∀ k, k < (size + 1) / 2 → (address fuel ((size + 1) / 2) ((size - 1) / 2)).length ≤
          (address fuel ((size + 1) / 2) k).length := fun k hk =>
        hlast ▸ address_last_length_le (by omega) hk
      rcases @address_succ fuel _ _ hmany hindex with ⟨hsibling, hmine⟩ | ⟨rfl, heven, hmine⟩
      · rw [hmine, List.length_cons, bits] at h
        rcases @address_succ fuel _ _ hmany hother with ⟨-, hhis⟩ | ⟨rfl, -, hhis⟩
        · rw [hhis, List.cons.injEq, decide_eq_decide] at h
          obtain ⟨hsame, hpaired⟩ := ih (by omega) (by omega) (by omega) h.2
          exact ⟨by omega, (paired_iff hmany).mpr ⟨hsibling, hpaired⟩⟩
        · -- the last node is too high up for that many siblings
          have hlength := congrArg List.length h
          rw [hhis, List.length_cons, bits_length] at hlength
          have := hdeep (index / 2) (by omega)
          omega
      · rw [hmine] at h
        rcases @address_succ fuel _ _ hmany hother with ⟨-, hhis⟩ | ⟨rfl, -, hhis⟩
        · have hlength := congrArg List.length h
          rw [hhis, List.length_cons, bits_length] at hlength
          have := hdeep (other / 2) (by omega)
          omega
        · -- the last node itself: its lowest sibling is on the left, its lowest digit says otherwise
          obtain ⟨rest, hrest⟩ := @address_last fuel ((size + 1) / 2) (by omega) (by omega)
          rw [hlast] at hrest
          rw [hhis, hrest, List.length_cons, bits, List.cons.injEq] at h
          have hodd := of_decide_eq_true h.1.symm
          omega
    · exact ⟨by omega, paired_of_le_one (Nat.not_lt.mp hmany)⟩

end

end Addresses

end Myelin.Lib.Merkle
