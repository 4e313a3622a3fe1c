/-
  Tendermint agreement over an asynchronous network with Byzantine validators.

  `Network` is the global state: one round state per validator, the values its `prevote_value` and
  `precommit_value` calls have returned (with the round they were called in), and the ballots honest
  validators have signed, newest first.  `act` lets any honest validator make any call at any time
  — with any message, so messages may be delivered in any order, twice or never — and sign at most
  one ballot per round and step, for nil or for a value that was returned to it in that round.
  Signing may lag behind the call: only the round the value was returned in matters.

  Byzantine validators have no state: what they sign is unrestricted.  The one restriction on
  delivery is `Unforged`: a vote that verifies under an honest validator's key was signed by it.
  It is stated on the content of the vote, since a collision of the vote digest would let one
  signature stand for two votes.

  **The proof** is a refinement.  `Sound` is the invariant of the network; from it the signed log
  keeps the three rules of `LockedVoting.Disciplined`, a decision is a commit quorum of that log,
  and agreement is the library's.  The one argument made here is `Sound.justified`: a prevote that
  `prevote_value` returned ABOVE an own earlier precommit rests on a prevote quorum between the two
  (`prevoteValue_some`) — the unlock rule.
-/
import Myelin.Consensus.RoundInvariant
import Myelin.Lib.LockedVoting

namespace Myelin.Consensus

open Lib Lib.LockedVoting TendermintRoundState Function

variable {crypto : Crypto}

/-! ## The network -/

/-- Prevotes prepare, precommits commit. -/
def TendermintStep.phase : TendermintStep → LockedVoting.Phase
  | .prevote => .prepare
  | .precommit => .commit

/-- The content of a validator's vote in a round and step. -/
def ballot (id : String) (round : UInt32) (step : TendermintStep) (value : Option Hash32) :
    Ballot String Hash32 := ⟨id, round.toNat, step.phase, value⟩

/-- The content of a signed vote. -/
def TendermintVote.ballot (vote : TendermintVote) : Ballot String Hash32 :=
  Consensus.ballot vote.validatorId vote.round vote.step vote.blockHash

/-- The global state. -/
structure Network where
  /-- The round state of each validator. -/
  nodes : String → TendermintRoundState
  /-- What `prevote_value` and `precommit_value` returned, with the round of the call. -/
  returned : List (Ballot String Hash32)
  /-- What honest validators have signed, newest first. -/
  signed : List (Ballot String Hash32)

/-- Every validator starts from the same fresh state. -/
def Network.initial (fresh : TendermintRoundState) : Network := ⟨fun _ => fresh, [], []⟩

/-- One event of the network. -/
inductive Action where
  /-- A validator makes a call on its round state. -/
  | call (id : String) (c : RoundCall)
  /-- A validator signs a ballot. -/
  | sign (id : String) (round : UInt32) (step : TendermintStep) (value : Option Hash32)

/-- A configured validator that is not Byzantine. -/
def Honest (e : Tendermint crypto) (byz : Finset String) (id : String) : Prop :=
  id ∈ e.committee.members ∧ id ∉ byz

instance (e : Tendermint crypto) (byz : Finset String) (id : String) :
    Decidable (Honest e byz id) := inferInstanceAs (Decidable (_ ∧ _))

/-- A delivered vote of the node's height that verifies under an honest validator's key was signed
    by that validator. -/
def Unforged (e : Tendermint crypto) (byz : Finset String) (net : Network) (id : String) :
    RoundCall → Prop
  | .receiveVote vote =>
    vote.height = (net.nodes id).height → e.verifyVote vote = .ok () → vote.validatorId ∉ byz →
      vote.ballot ∈ net.signed
  | _ => True

instance (e : Tendermint crypto) (byz : Finset String) (net : Network) (id : String) :
    (c : RoundCall) → Decidable (Unforged e byz net id c)
  | .receiveVote _ => inferInstanceAs (Decidable (_ → _))
  | .receiveProposal _ => inferInstanceAs (Decidable True)
  | .prevoteValue => inferInstanceAs (Decidable True)
  | .precommitValue => inferInstanceAs (Decidable True)
  | .advanceRound => inferInstanceAs (Decidable True)

/-- The ballot a returned value entitles its validator to sign. -/
def entitles (id : String) (round : UInt32) :
    RoundCall → Except ConsensusError RoundReturn → List (Ballot String Hash32)
  | .prevoteValue, .ok (.value value) => [ballot id round .prevote value]
  | .precommitValue, .ok (.value value) => [ballot id round .precommit value]
  | _, _ => []

/-- The network after an event, if the event is possible. -/
def act (e : Tendermint crypto) (byz : Finset String) (net : Network) : Action → Option Network
  | .call id c =>
    if Honest e byz id ∧ Unforged e byz net id c then
      let outcome := c.call e (net.nodes id)
      some {
        nodes := update net.nodes id outcome.2
        returned := entitles id (net.nodes id).round c outcome.1 ++ net.returned
        signed := net.signed }
    else none
  | .sign id number step value =>
    if Honest e byz id ∧
        (∀ b ∈ net.signed, ¬ (b.voter = id ∧ b.round = number.toNat ∧ b.phase = step.phase)) ∧
        (value = none ∨ ballot id number step value ∈ net.returned) then
      some { net with signed := ballot id number step value :: net.signed }
    else none

/-- The network after a sequence of events, if all are possible. -/
def exec (e : Tendermint crypto) (byz : Finset String) (net : Network) (actions : List Action) :
    Option Network :=
  actions.foldlM (act e byz) net

variable {e : Tendermint crypto} {byz : Finset String} {net : Network} {s s' : TendermintRoundState}
  {c : RoundCall} {result : Except ConsensusError RoundReturn}

/-! ## Frame facts of one call -/

section

variable (h : RoundStep e s c result s')
include h

lemma RoundStep.round_le : s.round.toNat ≤ s'.round.toNat := by
  cases h with
  | advance round live next => simp only; omega
  | _ => exact Nat.le_refl _

/-- A retained vote was there before, or is the admitted one just delivered. -/
lemma RoundStep.mem_votes {vote : TendermintVote} (hmem : vote ∈ s'.votes) :
    vote ∈ s.votes ∨ (c = .receiveVote vote ∧ s.admitVote e vote = .ok ()) := by
  cases h with
  | vote v _ _ admitted | prevoteQuorum v _ admitted | decide v _ admitted =>
    rcases List.mem_append.mp hmem with hold | hnew
    · exact .inl hold
    · rw [List.mem_singleton.mp hnew]
      exact .inr ⟨rfl, admitted⟩
  | _ => exact .inl hmem

/-- A decision was there before, or rests on a retained precommit quorum. -/
lemma RoundStep.decision_quorum (hd : s'.decision = some d) :
    s.decision = some d ∨ QuorumFor e s'.votes s'.height d.round .precommit (some d.blockHash) := by
  cases h with
  | decide vote blockHash admitted free step value quorum decision decided =>
    obtain rfl : decision = d := Option.some_inj.mp hd
    rw [decided]
    exact .inr quorum
  | _ => exact .inl hd

end

/-- **The unlock rule**: with a lock of round `r`, a returned prevote value has a retained prevote
    quorum of some round between `r` and the current one. -/
theorem prevoteValue_some (hs : VoteStore e s) (hl : LockRecord e s) {value : Hash32}
    (h : s.prevoteValue e = .ok (some value)) {lockedRound : UInt32}
    (hlock : s.lockedRound = some lockedRound) :
    ∃ k : UInt32, lockedRound ≤ k ∧ k ≤ s.round ∧
      QuorumFor e s.votes s.height k .prevote (some value) := by
  obtain ⟨locked, hlocked⟩ : ∃ locked, s.lockedValue = some locked := by
    rw [← Option.isSome_iff_exists, hl.lockedPair, hlock]
    rfl
  simp only [prevoteValue, eq_ok, hlocked, hlock] at h
  obtain ⟨_, h⟩ := h
  cases hfind : s.proposals.find? (·.round = s.round) with
  | none => simp [hfind] at h
  | some proposal =>
    simp only [hfind] at h
    by_cases heq : locked = proposal.blockHash
    · -- the proposal is the locked value itself
      rw [if_pos heq, Except.ok.injEq, Option.some_inj] at h
      subst h
      exact ⟨lockedRound, UInt32.le_refl _, hl.lockedLe _ hlock,
        hl.lockedQuorum _ (heq ▸ hlocked) _ hlock⟩
    · rw [if_neg heq] at h
      cases hvalid : proposal.validRound.filter (lockedRound ≤ ·) with
      | none => simp [hvalid] at h
      | some validRound =>
        have hle : lockedRound ≤ validRound := by
          simpa using (Option.filter_eq_some_iff.mp hvalid).2
        obtain ⟨power, hpower⟩ :=
          votePower_of_voteStore hs validRound .prevote (some proposal.blockHash)
        simp only [hvalid, hpower, eq_ok, Except.ok.injEq, exists_eq_left'] at h
        by_cases hquorum : e.quorumPower ≤ power
        · rw [if_pos hquorum, Option.some_inj] at h
          subst h
          have hq := (quorumFor_iff hpower).mp hquorum
          refine ⟨validRound, hle, ?_, hq⟩
          -- a quorum is not empty, and no retained vote is of a later round
          obtain ⟨vote, hvote, hfor⟩ := hq.exists_vote
          rw [← (TendermintVote.isFor_iff.mp hfor).2.1]
          exact hs.roundLe vote hvote
        · rw [if_neg hquorum] at h
          simp at h

/-! ## The invariant of the network -/

/-- What every reachable network satisfies. -/
structure Sound (e : Tendermint crypto) (byz : Finset String) (net : Network) : Prop where
  store : ∀ i, VoteStore e (net.nodes i)
  record : ∀ i, LockRecord e (net.nodes i)
  /-- Retained votes of honest validators were signed by them. -/
  authentic : ∀ i, ∀ vote ∈ (net.nodes i).votes, vote.validatorId ∉ byz → vote.ballot ∈ net.signed
  single : ∀ b ∈ net.signed, ∀ c ∈ net.signed, b.voter = c.voter → b.round = c.round →
    b.phase = c.phase → b.value = c.value
  /-- A signed value was returned first. -/
  entitled : ∀ b ∈ net.signed, b.value ≠ none → b ∈ net.returned
  /-- A returned precommit had a prevote quorum, and its validator is locked at or above it. -/
  commits : ∀ i r v, ⟨i, r, .commit, some v⟩ ∈ net.returned →
    HasQuorum e.committee byz net.signed .prepare r v ∧ r ≤ (net.nodes i).round.toNat ∧
      ∃ lockedRound ∈ (net.nodes i).lockedRound, r ≤ lockedRound.toNat
  /-- A returned prevote above an own precommit rests on a quorum between the two. -/
  prepares : ∀ i r w, ⟨i, r, .prepare, some w⟩ ∈ net.returned → r ≤ (net.nodes i).round.toNat ∧
      ∀ c v, ⟨i, c, .commit, some v⟩ ∈ net.returned → c < r →
        ∃ k, c ≤ k ∧ k ≤ r ∧ HasQuorum e.committee byz net.signed .prepare k w
  /-- The same for a signed prevote, with the quorum signed before it. -/
  justified : ∀ i r w earlier, (⟨i, r, .prepare, some w⟩ :: earlier) <:+ net.signed →
    ∀ c v, ⟨i, c, .commit, some v⟩ ∈ net.returned → c < r →
      ∃ k, c ≤ k ∧ k ≤ r ∧ HasQuorum e.committee byz earlier .prepare k w
  /-- A decision is a precommit quorum. -/
  decisions : ∀ i d, (net.nodes i).decision = some d →
    HasQuorum e.committee byz net.signed .commit d.round.toNat d.blockHash

/-- Retained quorums of votes are quorums of the signed log. -/
lemma hasQuorum_of_quorumFor {votes : List TendermintVote} {signed : List (Ballot String Hash32)}
    {height : UInt64} {round : UInt32} {step : TendermintStep} {value : Hash32}
    (hverified : ∀ vote ∈ votes, e.verifyVote vote = .ok ())
    (hauthentic : ∀ vote ∈ votes, vote.validatorId ∉ byz → vote.ballot ∈ signed)
    (h : QuorumFor e votes height round step (some value)) :
    HasQuorum e.committee byz signed step.phase round.toNat value := by
  refine h.trans (e.committee.power_mono fun id hid => ?_)
  obtain ⟨vote, hvote, hfor, rfl⟩ := mem_voters.mp hid
  obtain ⟨_, hround, hstep, hvalue⟩ := TendermintVote.isFor_iff.mp hfor
  rw [supporters, Finset.mem_filter]
  refine ⟨Tendermint.mem_members_of_verifyVote (hverified vote hvote), ?_⟩
  by_cases hbyz : vote.validatorId ∈ byz
  · exact .inl hbyz
  · have hsigned := hauthentic vote hvote hbyz
    rw [TendermintVote.ballot, ballot, hround, hstep, hvalue] at hsigned
    exact .inr hsigned

lemma Sound.initial {height : UInt64} {fresh : TendermintRoundState}
    (hnew : e.newRoundState height = .ok fresh) : Sound e byz (Network.initial fresh) where
  store _ := VoteStore.fresh hnew
  record _ := LockRecord.fresh hnew
  authentic _ vote hvote := by
    obtain ⟨_, rfl⟩ := newRoundState_ok hnew
    simp [Network.initial] at hvote
  single := by simp [Network.initial]
  entitled := by simp [Network.initial]
  commits := by simp [Network.initial]
  prepares := by simp [Network.initial]
  justified := by
    intro i r w earlier hsuffix
    exact absurd (List.suffix_nil.mp hsuffix) (List.cons_ne_nil _ _)
  decisions i d hd := by
    obtain ⟨_, rfl⟩ := newRoundState_ok hnew
    simp [Network.initial] at hd

section

variable (hs : Sound e byz net)
include hs

/-- Replacing one node by a later state of it. -/
lemma Sound.node (i : String) (hstore : VoteStore e s') (hrecord : LockRecord e s')
    (hauth : ∀ vote ∈ s'.votes, vote.validatorId ∉ byz → vote.ballot ∈ net.signed)
    (hround : (net.nodes i).round.toNat ≤ s'.round.toNat)
    (hlock : NeverDecreases (net.nodes i).lockedRound s'.lockedRound)
    (hdec : ∀ d, s'.decision = some d → HasQuorum e.committee byz net.signed .commit d.round.toNat
      d.blockHash) : Sound e byz { net with nodes := update net.nodes i s' } := by
  -- what holds of every old node and of the new state holds of every new node
  have cases : ∀ {P : TendermintRoundState → Prop} (j : String), P (net.nodes j) → P s' →
      P (update net.nodes i s' j) := by
    intro P j hold hnew
    by_cases hji : j = i
    · rw [hji, update_self]
      exact hnew
    · rw [update_of_ne hji]
      exact hold
  have hrounds : ∀ j, (net.nodes j).round.toNat ≤ (update net.nodes i s' j).round.toNat := by
    intro j
    by_cases hji : j = i
    · rw [hji, update_self]
      exact hround
    · rw [update_of_ne hji]
  refine ⟨fun j => cases j (hs.store j) hstore, fun j => cases j (hs.record j) hrecord,
    fun j => cases (P := fun t => ∀ vote ∈ t.votes, vote.validatorId ∉ byz →
      vote.ballot ∈ net.signed) j (hs.authentic j) hauth, hs.single, hs.entitled, ?_, ?_,
    hs.justified, fun j d => cases (P := fun t => t.decision = some d →
      HasQuorum e.committee byz net.signed .commit d.round.toNat d.blockHash) j
      (hs.decisions j d) (hdec d)⟩
  · intro j r v hmem
    obtain ⟨hquorum, hle, lockedRound, hlocked, hler⟩ := hs.commits j r v hmem
    refine ⟨hquorum, hle.trans (hrounds j), ?_⟩
    by_cases hji : j = i
    · subst hji
      obtain ⟨lockedRound', hlocked', hle'⟩ := hlock lockedRound hlocked
      simp only [update_self]
      exact ⟨lockedRound', hlocked', hler.trans (UInt32.le_iff_toNat_le.mp hle')⟩
    · simp only [update_of_ne hji]
      exact ⟨lockedRound, hlocked, hler⟩
  · intro j r w hmem
    obtain ⟨hle, hjust⟩ := hs.prepares j r w hmem
    exact ⟨hle.trans (hrounds j), hjust⟩

/-- Every honest call keeps the node part of the invariant. -/
lemma Sound.call_node {i : String} (hunforged : Unforged e byz net i c)
    (h : RoundStep e (net.nodes i) c result s') :
    Sound e byz { net with nodes := update net.nodes i s' } := by
  have hstore := (hs.store i).step h
  have hauth : ∀ vote ∈ s'.votes, vote.validatorId ∉ byz → vote.ballot ∈ net.signed := by
    intro vote hvote hhonest
    rcases h.mem_votes hvote with hold | ⟨rfl, hadm⟩
    · exact hs.authentic i vote hold hhonest
    · obtain ⟨_, hheight, _, hverify⟩ := admitVote_ok.mp hadm
      exact hunforged hheight hverify hhonest
  refine hs.node i hstore ((hs.record i).step h) hauth h.round_le
    (h.lockedRound_mono (hs.record i)) fun d hd => ?_
  rcases h.decision_quorum hd with hold | hquorum
  · exact hs.decisions i d hold
  · exact hasQuorum_of_quorumFor hstore.verified hauth hquorum

/-- Recording what a node returns: a precommit only when it is locked on the value. -/
lemma Sound.return {i : String} (step : TendermintStep) (value : Option Hash32)
    (hprevote : step = .prevote → (net.nodes i).prevoteValue e = .ok value)
    (hprecommit : step = .precommit → ∀ v ∈ value,
      (net.nodes i).lockedRound = some (net.nodes i).round ∧ QuorumFor e (net.nodes i).votes
        (net.nodes i).height (net.nodes i).round .prevote (some v)) :
    Sound e byz { net with
      returned := ballot i (net.nodes i).round step value :: net.returned } := by
  -- the new ballot is of the current round, above which its validator has prepared nothing
  have hcases : ∀ {j r phase w}, (⟨j, r, phase, some w⟩ : Ballot String Hash32) ∈
      ballot i (net.nodes i).round step value :: net.returned →
      ⟨j, r, phase, some w⟩ ∈ net.returned ∨
        (j = i ∧ r = (net.nodes j).round.toNat ∧ phase = step.phase ∧ some w = value) := by
    intro j r phase w hmem
    rcases List.mem_cons.mp hmem with heq | hold
    · simp only [ballot, Ballot.mk.injEq] at heq
      obtain ⟨rfl, hrest⟩ := heq
      exact .inr ⟨rfl, hrest⟩
    · exact .inl hold
  refine { hs with
    entitled := fun b hb hne => List.mem_cons_of_mem _ (hs.entitled b hb hne)
    commits := ?_
    prepares := ?_
    justified := ?_ }
  · intro j r v hmem
    rcases hcases hmem with hold | ⟨rfl, rfl, hphase, rfl⟩
    · exact hs.commits j r v hold
    · have hstep : step = .precommit := by cases step <;> simp [TendermintStep.phase] at hphase ⊢
      obtain ⟨hlock, hquorum⟩ := hprecommit hstep v rfl
      exact ⟨hasQuorum_of_quorumFor (hs.store j).verified (hs.authentic j) hquorum,
        Nat.le_refl _, _, hlock, Nat.le_refl _⟩
  · intro j r w hmem
    rcases hcases hmem with hold | ⟨rfl, rfl, hphase, rfl⟩
    · obtain ⟨hle, hjust⟩ := hs.prepares j r w hold
      refine ⟨hle, fun c v hc hcr => ?_⟩
      rcases hcases hc with hold | ⟨-, rfl, -⟩
      · exact hjust c v hold hcr
      · exact absurd hcr (by omega)
    · have hstep : step = .prevote := by cases step <;> simp [TendermintStep.phase] at hphase ⊢
      refine ⟨Nat.le_refl _, fun c v hc hcr => ?_⟩
      rcases hcases hc with hold | ⟨-, rfl, -⟩
      · obtain ⟨_, _, lockedRound, hlocked, hle⟩ := hs.commits j c v hold
        obtain ⟨k, hlk, hkr, hquorum⟩ :=
          prevoteValue_some (hs.store j) (hs.record j) (hprevote hstep) hlocked
        exact ⟨k.toNat, hle.trans (UInt32.le_iff_toNat_le.mp hlk), UInt32.le_iff_toNat_le.mp hkr,
          hasQuorum_of_quorumFor (hs.store j).verified (hs.authentic j) hquorum⟩
      · exact absurd hcr (Nat.lt_irrefl _)
  · intro j r w earlier hsuf c v hc hcr
    rcases hcases hc with hold | ⟨-, rfl, -⟩
    · exact hs.justified j r w earlier hsuf c v hold hcr
    · have hmem := hsuf.subset List.mem_cons_self
      obtain ⟨hle, _⟩ := hs.prepares j r w (hs.entitled _ hmem (Option.some_ne_none w))
      exact absurd hcr (by omega)

/-- Signing a ballot one is entitled to. -/
lemma Sound.sign
    (hfree : ∀ c ∈ net.signed, ¬ (c.voter = b.voter ∧ c.round = b.round ∧ c.phase = b.phase))
    (hentitled : b.value = none ∨ b ∈ net.returned) :
    Sound e byz { net with signed := b :: net.signed } := by
  have hgrow : net.signed ⊆ b :: net.signed := List.subset_cons_self _ _
  refine {
    store := hs.store
    record := hs.record
    authentic := fun i vote hvote hhonest => hgrow (hs.authentic i vote hvote hhonest)
    single := ?_
    entitled := ?_
    commits := fun i r v hmem =>
      ⟨(hs.commits i r v hmem).1.mono hgrow, (hs.commits i r v hmem).2⟩
    prepares := ?_
    justified := ?_
    decisions := fun i d hd => (hs.decisions i d hd).mono hgrow }
  · intro x hx y hy hvoter hround hphase
    rcases List.mem_cons.mp hx with rfl | hx' <;> rcases List.mem_cons.mp hy with rfl | hy'
    · rfl
    · exact absurd ⟨hvoter.symm, hround.symm, hphase.symm⟩ (hfree y hy')
    · exact absurd ⟨hvoter, hround, hphase⟩ (hfree x hx')
    · exact hs.single x hx' y hy' hvoter hround hphase
  · intro x hx hne
    rcases List.mem_cons.mp hx with rfl | hx'
    · exact hentitled.resolve_left hne
    · exact hs.entitled x hx' hne
  · intro i r w hmem
    obtain ⟨hle, hjust⟩ := hs.prepares i r w hmem
    refine ⟨hle, fun c v hc hcr => ?_⟩
    obtain ⟨k, hck, hkr, hquorum⟩ := hjust c v hc hcr
    exact ⟨k, hck, hkr, hquorum.mono hgrow⟩
  · intro i r w earlier hsuf c v hc hcr
    rcases List.suffix_cons_iff.mp hsuf with heq | hold
    · -- the ballot just signed: everything in the log is earlier
      obtain ⟨rfl, rfl⟩ := List.cons.inj heq
      have hmem := hentitled.resolve_left (Option.some_ne_none w)
      exact (hs.prepares i r w hmem).2 c v hc hcr
    · exact hs.justified i r w earlier hold c v hc hcr

/-- Every event keeps the invariant. -/
lemma Sound.act {action : Action} {net' : Network}
    (h : Consensus.act e byz net action = some net') : Sound e byz net' := by
  cases action with
  | sign i round step value =>
    simp only [Consensus.act, Option.ite_none_right_eq_some, Option.some_inj] at h
    obtain ⟨⟨_, hfree, hentitled⟩, rfl⟩ := h
    exact hs.sign hfree hentitled
  | call i c =>
    simp only [Consensus.act, Option.ite_none_right_eq_some, Option.some_inj] at h
    obtain ⟨⟨_, hunforged⟩, rfl⟩ := h
    have hstep := roundStep_of_call (hs.store i) c
    have hnode := hs.call_node hunforged hstep
    generalize (c.call e (net.nodes i)).1 = result at hstep
    generalize hs' : (c.call e (net.nodes i)).2 = s' at hstep hnode
    cases hstep with
    | prevote value live returns =>
      have hsame : update net.nodes i (net.nodes i) = net.nodes := update_eq_self _ _
      rw [hsame] at hnode ⊢
      exact hs.return .prevote value (fun _ => returns) nofun
    | precommitNil live =>
      have hsame : update net.nodes i (net.nodes i) = net.nodes := update_eq_self _ _
      rw [hsame] at hnode ⊢
      exact hs.return .precommit none nofun (by simp)
    | lock blockHash live quorum =>
      have hreturn := hnode.return (i := i) .precommit (some blockHash) nofun (by
        rintro - _ ⟨⟩
        simp only [update_self, true_and]
        exact quorum)
      simp only [update_self] at hreturn
      exact hreturn
    | fail c error => cases c <;> exact hnode
    | _ => exact hnode

lemma Sound.exec (h : Consensus.exec e byz net actions = some net') : Sound e byz net' := by
  induction actions generalizing net with
  | nil =>
    obtain rfl : net = net' := Option.some_inj.mp h
    exact hs
  | cons action rest ih =>
    simp only [Consensus.exec, List.foldlM_cons, Option.bind_eq_bind, Option.bind_eq_some_iff] at h
    obtain ⟨mid, hact, hrest⟩ := h
    exact ih (hs.act hact) hrest

/-! ## Agreement -/

/-- The signed log keeps the rules of locked voting. -/
lemma Sound.disciplined : Disciplined e.committee byz net.signed where
  single := hs.single
  prepared i r v hmem := (hs.commits i r v (hs.entitled _ hmem (Option.some_ne_none v))).1
  justified i r w earlier hsuf c v hmem hcr :=
    hs.justified i r w earlier hsuf c v (hs.entitled _ hmem (Option.some_ne_none v)) hcr

end

/-- **Agreement.**  Whatever the network does and whatever Byzantine validators of less than a
    third of the power sign, two honest validators never decide differently, in the same round or
    in different ones. -/
theorem tendermint_agreement {height : UInt64} {fresh : TendermintRoundState}
    (hnew : e.newRoundState height = .ok fresh)
    (hbyz : 3 * e.committee.power byz < e.committee.total)
    {actions : List Action} (hexec : exec e byz (Network.initial fresh) actions = some net) :
    ∀ p q, Honest e byz p → Honest e byz q → ∀ d ∈ (net.nodes p).decision,
      ∀ d' ∈ (net.nodes q).decision, d.blockHash = d'.blockHash := by
  intro p q _ _ d hd d' hd'
  have hs : Sound e byz net := (Sound.initial hnew).exec hexec
  have htwoThirds := Tendermint.validateTendermintQuorum_ok (newRoundState_ok hnew).1
  have hoverlap : e.committee.total + e.committee.power byz < 2 * e.committee.quorum := by
    rw [Tendermint.committee_quorum]
    omega
  exact hs.disciplined.agreement hoverlap (hs.decisions p d hd) (hs.decisions q d' hd')

/-- A block for the toy network to decide on. -/
def toyBlockHash : Hash32 := FixedBytes.fill 32 7

/-- The votes of alice, bob and (Byzantine) dave in one step, delivered to one validator. -/
def toyDeliver (id : String) (step : TendermintStep) : List Action := [
  .call id (.receiveVote (toyVote "alice" 1 0 step (some toyBlockHash))),
  .call id (.receiveVote (toyVote "dave" 4 0 step (some toyBlockHash))),
  .call id (.receiveVote (toyVote "bob" 2 0 step (some toyBlockHash)))]

/-- A round in which alice and bob decide with dave's help; carol stays silent. -/
def toyActions : List Action :=
  [.call "alice" (.receiveProposal ⟨8, 0, toyBlockHash, none, "alice", List.replicate 64 1⟩),
    .call "bob" (.receiveProposal ⟨8, 0, toyBlockHash, none, "alice", List.replicate 64 1⟩),
    .call "alice" .prevoteValue, .call "bob" .prevoteValue,
    .sign "alice" 0 .prevote (some toyBlockHash), .sign "bob" 0 .prevote (some toyBlockHash)] ++
  toyDeliver "alice" .prevote ++ toyDeliver "bob" .prevote ++
  [.call "alice" .precommitValue, .call "bob" .precommitValue,
    .sign "alice" 0 .precommit (some toyBlockHash), .sign "bob" 0 .precommit (some toyBlockHash)] ++
  toyDeliver "alice" .precommit ++ toyDeliver "bob" .precommit

/-- The toy round runs, with a quarter of the power Byzantine, and both honest deciders agree. -/
theorem tendermint_agreement_toyActions :
    ∃ net, exec toyEngine {"dave"} (Network.initial toyFresh) toyActions = some net ∧
      ∃ d ∈ (net.nodes "alice").decision, ∃ d' ∈ (net.nodes "bob").decision,
        d.blockHash = d'.blockHash := by
  have hrun : ((exec toyEngine {"dave"} (Network.initial toyFresh) toyActions).map fun net =>
      (net.nodes "alice").decision.isSome && (net.nodes "bob").decision.isSome) = some true := by
    decide +kernel
  obtain ⟨net, hexec, hdecided⟩ := Option.map_eq_some_iff.mp hrun
  rw [Bool.and_eq_true, Option.isSome_iff_exists, Option.isSome_iff_exists] at hdecided
  obtain ⟨⟨d, hd⟩, d', hd'⟩ := hdecided
  exact ⟨net, hexec, d, hd, d', hd', tendermint_agreement (e := toyEngine) rfl (by decide) hexec
    "alice" "bob" (by decide) (by decide) d hd d' hd'⟩

end Myelin.Consensus
