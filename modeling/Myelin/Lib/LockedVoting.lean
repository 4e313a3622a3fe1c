/-
  Agreement for two-phase voting with locks, over an arbitrary weighted committee.

  Members cast ballots in numbered rounds, first in the `prepare` phase and then in the `commit`
  phase, for a value or for nothing (`none`).  The LOG lists what the honest members cast, newest
  first; the members of `byz` may have cast anything, so they count as supporters of everything
  (`supporters`).

  `Disciplined` collects the three rules an honest member keeps:
  * `single`    — at most one ballot per round and phase;
  * `prepared`  — a commit ballot for a value rests on a prepare quorum of the same round;
  * `justified` — a prepare ballot cast in a round above one of the caster's own commit rounds `c`
    rests on a prepare quorum for the same value, of some round between `c` and its own, that was
    complete BEFORE the ballot was cast.

  **The crux (`prepare_quorum_unique`)**: once `v` has a commit quorum in round `r`, every prepare
  quorum of a round `≥ r` is for `v`.  Strong induction on the round gives all quorums of lower
  rounds; within one round the induction is on the LOG SUFFIX, because `justified` may cite a
  quorum of the very same round — but one that is complete strictly earlier in the log.
-/
import Myelin.Lib.Quorum

namespace Myelin.Lib.LockedVoting

/-- The two phases of a round. -/
inductive Phase where
  | prepare
  | commit
  deriving DecidableEq, Repr

/-- One ballot of an honest member. -/
structure Ballot (ι V : Type) where
  /-- Who cast it. -/
  voter : ι
  round : ℕ
  phase : Phase
  /-- The value supported, or `none`. -/
  value : Option V
  deriving DecidableEq

variable {ι V : Type} [DecidableEq ι] [DecidableEq V] (W : Committee ι) (byz : Finset ι)

/-- The members that support `value` in a phase of a round, every member of `byz` included. -/
def supporters (log : List (Ballot ι V)) (phase : Phase) (round : ℕ) (value : V) : Finset ι :=
  W.members.filter fun i => i ∈ byz ∨ ⟨i, round, phase, some value⟩ ∈ log

/-- `value` has a quorum in a phase of a round. -/
def HasQuorum (log : List (Ballot ι V)) (phase : Phase) (round : ℕ) (value : V) : Prop :=
  W.quorum ≤ W.power (supporters W byz log phase round value)

/-- What the honest members keep to. -/
structure Disciplined (log : List (Ballot ι V)) : Prop where
  /-- One ballot per member, round and phase. -/
  single : ∀ b ∈ log, ∀ c ∈ log, b.voter = c.voter → b.round = c.round → b.phase = c.phase →
    b.value = c.value
  /-- Nobody commits to a value without a prepare quorum. -/
  prepared : ∀ i r v, ⟨i, r, .commit, some v⟩ ∈ log → HasQuorum W byz log .prepare r v
  /-- Nobody prepares against an own earlier commit without an earlier-cast quorum. -/
  justified : ∀ i r w earlier, (⟨i, r, .prepare, some w⟩ :: earlier) <:+ log →
    ∀ c v, ⟨i, c, .commit, some v⟩ ∈ log → c < r →
      ∃ k, c ≤ k ∧ k ≤ r ∧ HasQuorum W byz earlier .prepare k w

variable {W byz} {log : List (Ballot ι V)} {phase : Phase}

lemma HasQuorum.isQuorum {round : ℕ} {value : V} (h : HasQuorum W byz log phase round value) :
    W.IsQuorum (supporters W byz log phase round value) :=
  ⟨Finset.filter_subset _ _, h⟩

/-- A longer log supports at least as much. -/
lemma HasQuorum.mono {log' : List (Ballot ι V)} {round : ℕ} {value : V}
    (hsub : log ⊆ log') (h : HasQuorum W byz log phase round value) :
    HasQuorum W byz log' phase round value := by
  refine h.trans (W.power_mono fun i hi => ?_)
  rw [supporters, Finset.mem_filter] at hi ⊢
  exact ⟨hi.1, hi.2.imp id (@hsub _)⟩

variable {r : ℕ}

/-- Any two quorums meet in an honest member, who cast both ballots. -/
lemma exists_honest_common (hbyz : W.total + W.power byz < 2 * W.quorum)
    {log' : List (Ballot ι V)} {phase' : Phase} {r' : ℕ} {v v' : V}
    (h : HasQuorum W byz log phase r v) (h' : HasQuorum W byz log' phase' r' v') :
    ∃ i, ⟨i, r, phase, some v⟩ ∈ log ∧ ⟨i, r', phase', some v'⟩ ∈ log' := by
  obtain ⟨i, hi, hi', hbad⟩ := W.exists_mem_inter_not_mem h.isQuorum h'.isQuorum hbyz
  rw [supporters, Finset.mem_filter] at hi hi'
  exact ⟨i, hi.2.resolve_left hbad, hi'.2.resolve_left hbad⟩

section

variable (hlog : Disciplined W byz log) (hbyz : W.total + W.power byz < 2 * W.quorum)
include hlog hbyz

/-- Two quorums of one round and phase are for one value. -/
lemma Disciplined.quorum_unique {v w : V} (hv : HasQuorum W byz log phase r v)
    (hw : HasQuorum W byz log phase r w) : v = w := by
  obtain ⟨i, hiv, hiw⟩ := exists_honest_common hbyz hv hw
  exact Option.some_inj.mp (hlog.single _ hiv _ hiw rfl rfl rfl)

/-- A commit quorum rests on a prepare quorum of its round. -/
lemma Disciplined.prepare_of_commit {v : V} (hv : HasQuorum W byz log .commit r v) :
    HasQuorum W byz log .prepare r v := by
  obtain ⟨i, hi, _⟩ := exists_honest_common hbyz hv hv
  exact hlog.prepared i r v hi

/-- **The lock**: above a commit quorum for `v`, prepare quorums are for `v` only. -/
theorem Disciplined.prepare_quorum_unique {v : V} (hv : HasQuorum W byz log .commit r v) :
    ∀ r', r ≤ r' → ∀ w, HasQuorum W byz log .prepare r' w → w = v := by
  intro r'
  induction r' using Nat.strong_induction_on with
  | _ r' ihRound =>
    intro hle w hw
    rcases Nat.lt_or_eq_of_le hle with hlt | heq
    · -- a later round: descend along the log until the quorum cited is of a lower round
      have descend : ∀ suf, suf <:+ log → HasQuorum W byz suf .prepare r' w → w = v := by
        intro suf
        induction h : suf.length using Nat.strong_induction_on generalizing suf with
        | _ n ihLog =>
          intro hsuf hquorum
          obtain ⟨i, hcommit, hprepare⟩ := exists_honest_common hbyz hv hquorum
          obtain ⟨later, earlier, hsplit⟩ := List.append_of_mem hprepare
          have hcons : (⟨i, r', .prepare, some w⟩ :: earlier) <:+ suf := ⟨later, hsplit.symm⟩
          obtain ⟨k, hrk, hkr, hk⟩ :=
            hlog.justified i r' w earlier (hcons.trans hsuf) r v hcommit hlt
          have hearlier : earlier <:+ log :=
            (List.suffix_cons _ _).trans (hcons.trans hsuf)
          rcases Nat.lt_or_eq_of_le hkr with hk' | rfl
          · exact ihRound k hk' hrk w (hk.mono hearlier.subset)
          · refine ihLog earlier.length ?_ earlier rfl hearlier hk
            have := hcons.length_le
            rw [List.length_cons] at this
            omega
      exact descend log List.suffix_rfl hw
    · -- the commit round itself
      subst heq
      exact hlog.quorum_unique hbyz hw (hlog.prepare_of_commit hbyz hv)

/-- **Agreement**: two commit quorums, of whatever rounds, are for one value. -/
theorem Disciplined.agreement {r' : ℕ} {v v' : V} (hv : HasQuorum W byz log .commit r v)
    (hv' : HasQuorum W byz log .commit r' v') : v = v' := by
  rcases Nat.le_total r r' with h | h
  · exact (hlog.prepare_quorum_unique hbyz hv r' h v' (hlog.prepare_of_commit hbyz hv')).symm
  · exact hlog.prepare_quorum_unique hbyz hv' r h v (hlog.prepare_of_commit hbyz hv)

end

end Myelin.Lib.LockedVoting
