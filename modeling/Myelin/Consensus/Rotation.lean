/-
  Weighted rotation of proposers.

  The validators, sorted by id, cut `0 .. power - 1` into intervals as long as their weights.
  `proposer_id` reduces height and round modulo the power, adds them, reduces the sum and walks to the
  interval that contains it.  The walk never overflows and never runs off its end.  The ADDITION can:
  both summands are below the power, which is bounded by the largest word only, and the round is up to
  `2 ^ 32 - 1`.  So the rotation is what it should be exactly if the sum of the two remainders fits a
  word (`proposer_rotation_iff`), as it does for every power up to `2 ^ 64 - 2 ^ 32`.
-/
import Mathlib.Data.Nat.Periodic
import Myelin.Consensus.Tendermint

namespace Myelin.Consensus

open Lib

/-- The place in a list where the sum of the elements so far passes a number. -/
lemma exists_passing {α : Type} {f : α → Nat} {list : List α} {n : Nat} (h : n < (list.map f).sum) :
    ∃ before a after, list = before ++ a :: after ∧ (before.map f).sum ≤ n ∧
      n < (before.map f).sum + f a := by
  induction list generalizing n with
  | nil => simp at h
  | cons first rest ih =>
    by_cases hfirst : n < f first
    · exact ⟨[], first, rest, rfl, Nat.zero_le _, by simpa using hfirst⟩
    · have hrest : n - f first < (rest.map f).sum := by
        rw [List.map_cons, List.sum_cons] at h
        omega
      obtain ⟨before, a, after, rfl, hle, hlt⟩ := ih hrest
      refine ⟨first :: before, a, after, rfl, ?_, ?_⟩
      · rw [List.map_cons, List.sum_cons]
        omega
      · rw [List.map_cons, List.sum_cons]
        omega

/-- Among as many numbers as the modulus has residues, an interval of residues is met as often as it
    is long. -/
lemma card_filter_mod {start shift modulus low width : Nat} (h : low + width ≤ modulus) :
    ((Finset.Ico start (start + modulus)).filter fun n =>
      low ≤ (n + shift) % modulus ∧ (n + shift) % modulus < low + width).card = width := by
  obtain rfl | hpos := Nat.eq_zero_or_pos modulus
  · obtain rfl : width = 0 := by omega
    simp
  have hperiodic : Function.Periodic
      (fun n => low ≤ (n + shift) % modulus ∧ (n + shift) % modulus < low + width) modulus := by
    intro n
    simp only [Nat.add_right_comm n modulus shift, Nat.add_mod_right]
  -- any window does: take the one whose shifted numbers start at a multiple of the modulus
  rw [Nat.filter_Ico_card_eq_of_periodic _ _ _ hperiodic,
    ← Nat.filter_Ico_card_eq_of_periodic (shift * (modulus - 1)) _ _ hperiodic]
  have hzero : ∀ k, (shift * (modulus - 1) + k + shift) % modulus = k % modulus := by
    intro k
    obtain ⟨m, rfl⟩ := Nat.exists_eq_succ_of_ne_zero hpos.ne'
    rw [Nat.succ_sub_one, show shift * m + k + shift = k + (m + 1) * shift by ring]
    exact Nat.add_mul_mod_self_left _ _ _
  have himage : (Finset.Ico (shift * (modulus - 1)) (shift * (modulus - 1) + modulus)).filter
      (fun n => low ≤ (n + shift) % modulus ∧ (n + shift) % modulus < low + width) =
      (Finset.Ico low (low + width)).map (addLeftEmbedding (shift * (modulus - 1))) := by
    ext n
    simp only [Finset.mem_filter, Finset.mem_Ico, Finset.mem_map, addLeftEmbedding_apply]
    constructor
    · rintro ⟨⟨hlow, hhigh⟩, hin⟩
      obtain ⟨k, rfl⟩ := Nat.exists_eq_add_of_le hlow
      rw [hzero, Nat.mod_eq_of_lt (by omega)] at hin
      exact ⟨k, hin, rfl⟩
    · rintro ⟨k, hin, rfl⟩
      rw [hzero, Nat.mod_eq_of_lt (by omega)]
      exact ⟨⟨by omega, by omega⟩, hin⟩
  rw [himage, Finset.card_map, Nat.card_Ico]
  omega

namespace Tendermint

variable {crypto : Crypto} (e : Tendermint crypto)

/-- The sum of all weights. -/
def power : Nat := e.validators.totalWeight

/-- The weights of the validators before one, by id. -/
def cumulative (v : CommitteeValidator) : Nat :=
  ((e.validators.validators.filter (·.id < v.id)).map (·.weight.toNat)).sum

/-- The interval of a validator contains a number. -/
def Owns (v : CommitteeValidator) (n : Nat) : Prop :=
  e.cumulative v ≤ n ∧ n < e.cumulative v + v.weight.toNat

instance (v : CommitteeValidator) (n : Nat) : Decidable (e.Owns v n) := instDecidableAnd

variable {e}

lemma power_pos : 0 < e.power := by
  have hquorum : e.quorumPower.toNat ≠ 0 := fun h =>
    e.set.quorum_ne_zero (UInt64.toNat_inj.mp h)
  exact (Nat.pos_of_ne_zero hquorum).trans_le e.set.quorum_le_total

variable {before after : List CommitteeValidator} {v : CommitteeValidator}

/-- The walk stops at the validator whose interval contains the target. -/
lemma proposerLoop_append {target cursor : UInt64}
    (hfits : cursor.toNat + (before.map (·.weight.toNat)).sum + v.weight.toNat < 2 ^ 64)
    (hlow : cursor.toNat + (before.map (·.weight.toNat)).sum ≤ target.toNat)
    (hhigh : target.toNat < cursor.toNat + (before.map (·.weight.toNat)).sum + v.weight.toNat) :
    proposerLoop target cursor (before ++ v :: after) = .ok v.id := by
  induction before generalizing cursor with
  | nil =>
    rw [List.map_nil, List.sum_nil, Nat.add_zero] at hfits hhigh
    have hadd : (cursor + v.weight).toNat = cursor.toNat + v.weight.toNat := by
      rw [UInt64.toNat_add, Nat.mod_eq_of_lt hfits]
    have hpass : target < cursor + v.weight := by
      rw [UInt64.lt_iff_toNat_lt, hadd]
      exact hhigh
    rw [List.nil_append, proposerLoop, checkedAdd_eq_some.mpr hadd]
    exact if_pos hpass
  | cons first before ih =>
    rw [List.map_cons, List.sum_cons] at hfits hlow hhigh
    have hadd : (cursor + first.weight).toNat = cursor.toNat + first.weight.toNat := by
      rw [UInt64.toNat_add, Nat.mod_eq_of_lt (by omega)]
    have hstay : ¬target < cursor + first.weight := by
      rw [UInt64.lt_iff_toNat_lt, hadd]
      omega
    rw [List.cons_append, proposerLoop, checkedAdd_eq_some.mpr hadd]
    refine (if_neg hstay).trans (ih ?_ ?_ ?_)
    · rw [hadd]
      omega
    · rw [hadd]
      omega
    · rw [hadd]
      omega

/-- What stands before a validator are the validators with smaller ids. -/
lemma sum_before (h : e.validators.sorted = before ++ v :: after) :
    (before.map (·.weight.toNat)).sum = e.cumulative v := by
  have hpairwise := e.validators.sorted_pairwise
  rw [h, List.pairwise_append, List.pairwise_cons] at hpairwise
  obtain ⟨-, ⟨hafter, -⟩, hbefore⟩ := hpairwise
  have hfilter : e.validators.sorted.filter (·.id < v.id) = before := by
    have hnone : (v :: after).filter (·.id < v.id) = [] := by
      refine List.filter_eq_nil_iff.mpr fun other hother => ?_
      rw [decide_eq_true_eq]
      rcases List.mem_cons.mp hother with rfl | hmem
      · exact lt_irrefl _
      · exact (hafter other hmem).not_gt
    rw [h, List.filter_append, hnone, List.append_nil]
    exact List.filter_eq_self.mpr fun other hother =>
      decide_eq_true (hbefore other hother v List.mem_cons_self)
  rw [cumulative, ← hfilter]
  exact ((e.validators.sorted_perm.filter _).map _).sum_eq

lemma sum_sorted : (e.validators.sorted.map (·.weight.toNat)).sum = e.power :=
  (e.validators.sorted_perm.map _).sum_eq

lemma cumulative_le (hv : v ∈ e.validators.validators) :
    e.cumulative v + v.weight.toNat ≤ e.power := by
  obtain ⟨before, after, hsplit⟩ := List.append_of_mem (e.validators.sorted_perm.mem_iff.mpr hv)
  rw [← sum_before hsplit, ← e.sum_sorted, hsplit, List.map_append, List.map_cons, List.sum_append,
    List.sum_cons]
  omega

/-- Somebody owns every number below the power. -/
lemma exists_owner {n : Nat} (h : n < e.power) : ∃ v ∈ e.validators.validators, e.Owns v n := by
  obtain ⟨before, v, after, hsplit, hlow, hhigh⟩ := exists_passing (e.sum_sorted ▸ h)
  rw [sum_before hsplit] at hlow hhigh
  refine ⟨v, e.validators.sorted_perm.mem_iff.mp ?_, hlow, hhigh⟩
  rw [hsplit]
  exact List.mem_append_right _ List.mem_cons_self

/-- The two remainders do not fit a word together. -/
def Overflows (e : Tendermint crypto) (height : UInt64) (round : UInt32) : Prop :=
  2 ^ 64 ≤ height.toNat % e.power + round.toNat % e.power

lemma totalPower_eq : ∃ total : UInt64, e.totalPower = .ok total ∧ total.toNat = e.power := by
  obtain ⟨total, hok, hsum⟩ := e.totalPower_ok
  exact ⟨total, hok, hsum.trans (ValidatorMap.total_committee _)⟩

variable {height : UInt64} {round : UInt32}

lemma proposerId_of_overflows (h : e.Overflows height round) :
    e.proposerId height round = .error (.panicked "attempt to add with overflow") := by
  obtain ⟨total, hok, htotal⟩ := e.totalPower_eq
  have hnone : checkedAdd (height % total) (round.toUInt64 % total) = none := by
    rw [checkedAdd_eq_none, UInt64.toNat_mod, UInt64.toNat_mod, htotal]
    exact h
  rw [proposerId, hok]
  show okOr (checkedAdd _ _) _ >>= _ = _
  rw [hnone]
  rfl

/-- Without overflow the proposer is the owner of the target. -/
lemma proposerId_of_owns (h : ¬e.Overflows height round) (hv : v ∈ e.validators.validators)
    (howns : e.Owns v ((height.toNat + round.toNat) % e.power)) :
    e.proposerId height round = .ok v.id := by
  obtain ⟨total, hok, htotal⟩ := e.totalPower_eq
  obtain ⟨before, after, hsplit⟩ := List.append_of_mem (e.validators.sorted_perm.mem_iff.mpr hv)
  have hsum : (height % total + round.toUInt64 % total).toNat =
      (height % total).toNat + (round.toUInt64 % total).toNat := by
    rw [UInt64.toNat_add, UInt64.toNat_mod, UInt64.toNat_mod, htotal]
    exact Nat.mod_eq_of_lt (Nat.not_le.mp h)
  have htarget : ((height % total + round.toUInt64 % total) % total).toNat =
      (height.toNat + round.toNat) % e.power := by
    rw [UInt64.toNat_mod, hsum, UInt64.toNat_mod, UInt64.toNat_mod, htotal, ← Nat.add_mod]
    rfl
  have hfits := e.validators.wellFormed.total_fits
  have hle := e.cumulative_le hv
  have hbefore := sum_before hsplit
  rw [proposerId, hok]
  show okOr (checkedAdd _ _) _ >>= _ = _
  rw [checkedAdd_eq_some.mpr hsum]
  show proposerLoop _ 0 e.validators.sorted = _
  rw [hsplit]
  have hpower : e.power < 2 ^ 64 := hfits
  refine proposerLoop_append ?_ ?_ ?_
  · rw [hbefore, UInt64.toNat_zero]
    omega
  · rw [hbefore, htarget, UInt64.toNat_zero, Nat.zero_add]
    exact howns.1
  · rw [hbefore, htarget, UInt64.toNat_zero, Nat.zero_add]
    exact howns.2

lemma proposerId_eq_ok (hv : v ∈ e.validators.validators) :
    e.proposerId height round = .ok v.id ↔
      ¬e.Overflows height round ∧ e.Owns v ((height.toNat + round.toNat) % e.power) := by
  constructor
  · intro h
    have hfits : ¬e.Overflows height round := by
      intro hover
      rw [proposerId_of_overflows hover] at h
      cases h
    obtain ⟨owner, howner, howns⟩ := e.exists_owner (Nat.mod_lt (height.toNat + round.toNat) power_pos)
    rw [proposerId_of_owns hfits howner howns, Except.ok.injEq] at h
    -- ids are distinct
    have hsame : owner = v := List.inj_on_of_nodup_map e.validators.wellFormed.ids_nodup howner hv h
    exact ⟨hfits, hsame ▸ howns⟩
  · rintro ⟨hfits, howns⟩
    exact proposerId_of_owns hfits hv howns

/-- The heights of a window at which a validator proposes. -/
def turns (e : Tendermint crypto) (round : UInt32) (start : Nat) (v : CommitteeValidator) : Finset Nat :=
  (Finset.Ico start (start + e.power)).filter fun height =>
    e.proposerId (UInt64.ofNat height) round = .ok v.id

/-- Without overflow in the window, a validator has as many turns as its weight. -/
lemma card_turns {start : Nat} (hwindow : start + e.power ≤ 2 ^ 64)
    (hfits : e.power - 1 + round.toNat % e.power < 2 ^ 64) (hv : v ∈ e.validators.validators) :
    (e.turns round start v).card = v.weight.toNat := by
  have hcount := @card_filter_mod start round.toNat e.power _ _ (e.cumulative_le hv)
  refine (congrArg Finset.card (Finset.filter_congr fun height hheight => ?_)).trans hcount
  have hword : (UInt64.ofNat height).toNat = height :=
    toNat_word ((Finset.mem_Ico.mp hheight).2.trans_le hwindow)
  have hnone : ¬e.Overflows (UInt64.ofNat height) round := by
    have hmod := Nat.mod_lt height e.power_pos
    rw [Overflows, hword]
    omega
  rw [proposerId_eq_ok hv, hword, and_iff_right hnone]
  rfl

/-- With an overflow in the window, somebody misses a turn. -/
lemma exists_card_turns_lt {start : Nat} (hwindow : start + e.power ≤ 2 ^ 64)
    (hover : 2 ^ 64 ≤ e.power - 1 + round.toNat % e.power) :
    ∃ v ∈ e.validators.validators, (e.turns round start v).card < v.weight.toNat := by
  have hpos := e.power_pos
  -- the height of the window with the largest remainder
  obtain ⟨height, hheight, hmod⟩ : ∃ height ∈ Finset.Ico start (start + e.power),
      height % e.power = e.power - 1 := by
    have himage := Nat.image_Ico_mod start e.power
    have hlast : e.power - 1 ∈ (Finset.Ico start (start + e.power)).image (· % e.power) := by
      rw [himage, Finset.mem_range]
      omega
    exact Finset.mem_image.mp hlast
  obtain ⟨v, hv, howns⟩ := e.exists_owner (Nat.mod_lt (height + round.toNat) hpos)
  refine ⟨v, hv, ?_⟩
  rw [← @card_filter_mod start round.toNat e.power _ _ (e.cumulative_le hv)]
  refine Finset.card_lt_card (Finset.ssubset_iff_subset_ne.mpr ⟨fun other hother => ?_, fun heq => ?_⟩)
  · obtain ⟨hin, hturn⟩ := Finset.mem_filter.mp hother
    have hword : (UInt64.ofNat other).toNat = other :=
      toNat_word ((Finset.mem_Ico.mp hin).2.trans_le hwindow)
    have howner := ((proposerId_eq_ok hv).mp hturn).2
    rw [hword] at howner
    exact Finset.mem_filter.mpr ⟨hin, howner⟩
  · have hmem : height ∈ e.turns round start v := heq ▸ Finset.mem_filter.mpr ⟨hheight, howns⟩
    have hword : (UInt64.ofNat height).toNat = height :=
      toNat_word ((Finset.mem_Ico.mp hheight).2.trans_le hwindow)
    refine ((proposerId_eq_ok hv).mp (Finset.mem_filter.mp hmem).2).1 ?_
    rw [Overflows, hword, hmod]
    exact hover

/-- **Weighted rotation.**  The proposer is the validator whose interval contains
    `(height + round) mod power`, exactly if the two remainders fit a word together; and in a window of
    as many heights as the power every validator proposes as often as its weight, exactly if they do
    at all of its heights. -/
theorem proposer_rotation_iff (e : Tendermint crypto) :
    (∀ (height : UInt64) (round : UInt32),
      (∃ v ∈ e.validators.validators, e.proposerId height round = .ok v.id ∧
        e.Owns v ((height.toNat + round.toNat) % e.power)) ↔
        height.toNat % e.power + round.toNat % e.power < 2 ^ 64) ∧
    ∀ (round : UInt32) (start : Nat), start + e.power ≤ 2 ^ 64 →
      ((∀ v ∈ e.validators.validators, (e.turns round start v).card = v.weight.toNat) ↔
        e.power - 1 + round.toNat % e.power < 2 ^ 64) := by
  refine ⟨fun height round => ⟨?_, fun hfits => ?_⟩, fun round start hwindow => ⟨fun hall => ?_, ?_⟩⟩
  · rintro ⟨v, hv, hok, -⟩
    exact Nat.not_le.mp ((proposerId_eq_ok hv).mp hok).1
  · obtain ⟨v, hv, howns⟩ := e.exists_owner (Nat.mod_lt (height.toNat + round.toNat) power_pos)
    exact ⟨v, hv, proposerId_of_owns (Nat.not_le.mpr hfits) hv howns, howns⟩
  · by_contra hover
    obtain ⟨v, hv, hless⟩ := exists_card_turns_lt hwindow (Nat.not_lt.mp hover)
    exact absurd (hall v hv) hless.ne
  · intro hfits v hv
    exact card_turns hwindow hfits hv

end Tendermint

/-- One validator with all the power a word holds. -/
def heavyConfig : TendermintConfig where
  validators := [⟨"alice", FixedBytes.fill 32 1, 18446744073709551615⟩]
  quorumPower := 1

/-- **An accepted engine that panics**: the last height but one has the largest remainder, and round 2
    is too much. -/
theorem heavy_rotation_panics :
    (do (← Tendermint.new toyCrypto heavyConfig).proposerId 0 0) = .ok "alice" ∧
    (do (← Tendermint.new toyCrypto heavyConfig).proposerId 18446744073709551614 2) =
      .error (.panicked "attempt to add with overflow") := by
  decide +kernel

end Myelin.Consensus
