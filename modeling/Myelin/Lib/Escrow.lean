/-
  Escrow: value that leaves one party through a lock and reaches another through a claim.

  A claim is backed by a lock of the party that issued it.  Paying a claim out credits a party while
  the lock stays behind, so value is counted as

      free value  +  locks whose claim is not SPENT,

  and a payout moves it from the second sum to the first without touching the lock.  This balances
  only if every live claim has exactly one lock and every lock at most one claim (`Backed`).  All
  moves keep `Backed` and, given it, the value (`Move.backed`, `Move.value_eq`): at most one lock
  becomes outstanding or ceases to be (`value_insert`).
-/
import Mathlib.Data.Fintype.BigOperators

namespace Myelin.Lib

open Function

/-- Where a claim stands. -/
inductive Phase where
  | pending
  | spent
  | cancelled
  /-- The lock is gone: refunded after a cancellation, or dropped after a payout. -/
  | closed
  deriving DecidableEq

/-- Parties with free value and locks, and the claims issued so far. -/
structure Escrow (σ κ ι τ : Type) where
  free : σ → Nat
  locks : σ → Finset κ
  claim : ι → Option (τ × Phase)

lemma update_eq_some {α β : Type} [DecidableEq α] {f : α → Option β} {a b : α} {x y : β} :
    update f a (some x) b = some y ↔ (b = a ∧ y = x) ∨ (b ≠ a ∧ f b = some y) := by
  by_cases h : b = a
  · subst h
    simp [eq_comm]
  · simp [h]

namespace Escrow

section

variable {σ κ : Type} [DecidableEq σ] [DecidableEq κ] {all : σ → Finset κ} {s r : σ} {lock other : κ}

lemma mem_update_insert : other ∈ update all s (insert lock (all s)) r ↔
    (r = s ∧ other = lock) ∨ other ∈ all r := by
  by_cases h : r = s
  · subst h
    simp
  · simp [h]

lemma mem_update_erase : other ∈ update all s ((all s).erase lock) r ↔
    ¬(r = s ∧ other = lock) ∧ other ∈ all r := by
  by_cases h : r = s
  · subst h
    simp
  · simp [h]

end

lemma claim_update {ι τ : Type} [DecidableEq ι] {claims : ι → Option (τ × Phase)} {i j : ι}
    {t u : τ} :
    update claims i (some (t, p)) j = some (u, q) ↔
      (j = i ∧ u = t ∧ q = p) ∨ (j ≠ i ∧ claims j = some (u, q)) := by
  rw [update_eq_some, Prod.mk.injEq]

variable {σ κ ι τ : Type} [DecidableEq σ] [DecidableEq κ] [DecidableEq ι]
  {backs : κ → τ → Prop} {amount : κ → Nat} {e e' : Escrow σ κ ι τ}

/-- The claim behind a lock has been paid out. -/
def Spent (backs : κ → τ → Prop) (e : Escrow σ κ ι τ) (lock : κ) : Prop :=
  ∃ i t, e.claim i = some (t, .spent) ∧ backs lock t

open Classical in
/-- Locked value of a party that is not paid out yet. -/
noncomputable def outstanding (backs : κ → τ → Prop) (amount : κ → Nat) (e : Escrow σ κ ι τ)
    (s : σ) : Nat :=
  ∑ lock ∈ (e.locks s).filter (¬ e.Spent backs ·), amount lock

/-- All value there is. -/
noncomputable def value [Fintype σ] (backs : κ → τ → Prop) (amount : κ → Nat)
    (e : Escrow σ κ ι τ) : Nat :=
  ∑ s, e.free s + ∑ s, e.outstanding backs amount s

/-- Claims and locks correspond. -/
structure Backed (backs : κ → τ → Prop) (e : Escrow σ κ ι τ) : Prop where
  backed : ∀ {i t p}, e.claim i = some (t, p) → p ≠ .closed → ∃ s, ∃ lock ∈ e.locks s, backs lock t
  unique : ∀ {i t p s₁ s₂ lock₁ lock₂}, e.claim i = some (t, p) → lock₁ ∈ e.locks s₁ →
    lock₂ ∈ e.locks s₂ → backs lock₁ t → backs lock₂ t → s₁ = s₂ ∧ lock₁ = lock₂
  released : ∀ {i t s lock}, e.claim i = some (t, .closed) → lock ∈ e.locks s → ¬ backs lock t
  single : ∀ {i j t u p q s lock}, lock ∈ e.locks s → e.claim i = some (t, p) →
    e.claim j = some (u, q) → backs lock t → backs lock u → i = j

/-! ## Moves -/

/-- The moves. -/
inductive Move (backs : κ → τ → Prop) (amount : κ → Nat) (e : Escrow σ κ ι τ) :
    Escrow σ κ ι τ → Prop where
  | issue {s : σ} {lock : κ} {i : ι} {t : τ} {rest : Nat} :
      lock ∉ e.locks s → e.claim i = none → backs lock t →
      (∀ j u p, e.claim j = some (u, p) → ¬ backs lock u) →
      (∀ r, ∀ other ∈ e.locks r, ¬ backs other t) → rest + amount lock = e.free s →
      Move backs amount e ⟨update e.free s rest, update e.locks s (insert lock (e.locks s)),
        update e.claim i (some (t, .pending))⟩
  | pay {r : σ} {i : ι} {t : τ} {n : Nat} : e.claim i = some (t, .pending) →
      (∀ s, ∀ lock ∈ e.locks s, backs lock t → amount lock = n) →
      Move backs amount e ⟨update e.free r (e.free r + n), e.locks,
        update e.claim i (some (t, .spent))⟩
  | cancel {i : ι} {t : τ} : e.claim i = some (t, .pending) →
      Move backs amount e ⟨e.free, e.locks, update e.claim i (some (t, .cancelled))⟩
  | refund {s : σ} {lock : κ} {i : ι} {t : τ} : e.claim i = some (t, .cancelled) →
      lock ∈ e.locks s → backs lock t →
      Move backs amount e ⟨update e.free s (e.free s + amount lock),
        update e.locks s ((e.locks s).erase lock),
        update e.claim i (some (t, .closed))⟩
  | retire {s : σ} {lock : κ} {i : ι} {t : τ} : e.claim i = some (t, .spent) →
      lock ∈ e.locks s → backs lock t →
      Move backs amount e ⟨e.free, update e.locks s ((e.locks s).erase lock),
        update e.claim i (some (t, .closed))⟩
  /-- Parties change their names. -/
  | rename (π : Equiv.Perm σ) : Move backs amount e ⟨e.free ∘ π, e.locks ∘ π, e.claim⟩

/-! ## Claims and locks stay in correspondence -/

section

variable (h : Backed backs e)
include h

omit [DecidableEq σ] [DecidableEq κ] [DecidableEq ι] in
/-- Where every lock and claim that belong together did so before, only that no live claim is left
    without its lock has to be shown. -/
lemma Backed.restrict
    (hpair : ∀ {s lock i t p}, lock ∈ e'.locks s → e'.claim i = some (t, p) → backs lock t →
      lock ∈ e.locks s ∧ ∃ q, e.claim i = some (t, q) ∧ (p = .closed → q = .closed))
    (hbacked : ∀ {i t p}, e'.claim i = some (t, p) → p ≠ .closed →
      ∃ s, ∃ lock ∈ e'.locks s, backs lock t) : Backed backs e' where
  backed := hbacked
  unique hi h₁ h₂ hback₁ hback₂ := by
    obtain ⟨h₁, q, hi', -⟩ := hpair h₁ hi hback₁
    exact h.unique hi' h₁ (hpair h₂ hi hback₂).1 hback₁ hback₂
  released hi hlock hback := by
    obtain ⟨hlock, q, hi, hclosed⟩ := hpair hlock hi hback
    exact h.released (hclosed rfl ▸ hi) hlock hback
  single hlock hi hj hback₁ hback₂ := by
    obtain ⟨hlock', _, hi, -⟩ := hpair hlock hi hback₁
    obtain ⟨-, _, hj, -⟩ := hpair hlock hj hback₂
    exact h.single hlock' hi hj hback₁ hback₂

omit [DecidableEq σ] [DecidableEq κ] in
/-- A phase change that keeps the claim alive. -/
lemma Backed.rephase {i : ι} {t : τ} {p q : Phase} {free : σ → Nat}
    (hi : e.claim i = some (t, p)) (hp : p ≠ .closed) (hq : q ≠ .closed) :
    Backed backs ⟨free, e.locks, update e.claim i (some (t, q))⟩ := by
  refine h.restrict (fun hlock hj _ => ⟨hlock, ?_⟩) fun hj hr => ?_
  · rcases claim_update.mp hj with ⟨rfl, rfl, rfl⟩ | ⟨-, hc⟩
    · exact ⟨p, hi, fun hclosed => absurd hclosed hq⟩
    · exact ⟨_, hc, id⟩
  · rcases claim_update.mp hj with ⟨rfl, rfl, rfl⟩ | ⟨-, hc⟩
    · exact h.backed hi hp
    · exact h.backed hc hr

/-- A lock and its claim go together. -/
lemma Backed.close {i : ι} {t : τ} {p : Phase} {s : σ} {lock : κ}
    {free : σ → Nat} (hi : e.claim i = some (t, p)) (hlock : lock ∈ e.locks s)
    (hbacks : backs lock t) :
    Backed backs ⟨free, update e.locks s ((e.locks s).erase lock),
      update e.claim i (some (t, .closed))⟩ := by
  refine h.restrict ?_ fun hj hr => ?_
  · intro r other j u q hother hj hback
    obtain ⟨hne, hold⟩ := mem_update_erase.mp hother
    rcases claim_update.mp hj with ⟨rfl, rfl, -⟩ | ⟨-, hc⟩
    · exact absurd (h.unique hi hold hlock hback hbacks) hne
    · exact ⟨hold, _, hc, id⟩
  · rcases claim_update.mp hj with ⟨-, -, rfl⟩ | ⟨hne, hc⟩
    · exact absurd rfl hr
    · obtain ⟨r, other, hother, hback⟩ := h.backed hc hr
      refine ⟨r, other, mem_update_erase.mpr ⟨?_, hother⟩, hback⟩
      rintro ⟨rfl, rfl⟩
      exact hne (h.single hother hc hi hback hbacks)

/-- A new claim with its own new lock. -/
lemma Backed.issue {i : ι} {t : τ} {s : σ} {lock : κ} {free : σ → Nat}
    (hi : e.claim i = none) (hbacks : backs lock t)
    (hlock : ∀ j u p, e.claim j = some (u, p) → ¬ backs lock u)
    (hclaim : ∀ r, ∀ other ∈ e.locks r, ¬ backs other t) :
    Backed backs ⟨free, update e.locks s (insert lock (e.locks s)),
      update e.claim i (some (t, .pending))⟩ := by
  -- nothing old backs the new claim, and the new lock backs nothing old
  have hpair : ∀ {r other j u q}, other ∈ update e.locks s (insert lock (e.locks s)) r →
      update e.claim i (some (t, .pending)) j = some (u, q) → backs other u →
      (r = s ∧ other = lock ∧ j = i ∧ q = .pending) ∨
        (other ∈ e.locks r ∧ j ≠ i ∧ e.claim j = some (u, q)) := by
    intro r other j u q hother hj hback
    rcases claim_update.mp hj with ⟨rfl, rfl, rfl⟩ | ⟨hne, hc⟩ <;>
      rcases mem_update_insert.mp hother with ⟨rfl, rfl⟩ | hmem
    · exact .inl ⟨rfl, rfl, rfl, rfl⟩
    · exact absurd hback (hclaim _ _ hmem)
    · exact absurd hback (hlock _ _ _ hc)
    · exact .inr ⟨hmem, hne, hc⟩
  constructor
  · intro j u r hj hr
    rcases claim_update.mp hj with ⟨rfl, rfl, -⟩ | ⟨-, hc⟩
    · exact ⟨s, lock, mem_update_insert.mpr (.inl ⟨rfl, rfl⟩), hbacks⟩
    · obtain ⟨r, other, hother, hback⟩ := h.backed hc hr
      exact ⟨r, other, mem_update_insert.mpr (.inr hother), hback⟩
  · intro j u r s₁ s₂ lock₁ lock₂ hj h₁ h₂ hback₁ hback₂
    rcases hpair h₁ hj hback₁ with ⟨rfl, rfl, rfl, -⟩ | ⟨hold₁, hne, hc⟩ <;>
      rcases hpair h₂ hj hback₂ with ⟨rfl, rfl, hsame, -⟩ | ⟨hold₂, hne', -⟩
    · exact ⟨rfl, rfl⟩
    · exact absurd rfl hne'
    · exact absurd hsame hne
    · exact h.unique hc hold₁ hold₂ hback₁ hback₂
  · intro j u r other hj hother hback
    rcases hpair hother hj hback with ⟨-, -, -, hphase⟩ | ⟨hold, -, hc⟩
    · cases hphase
    · exact h.released hc hold hback
  · intro j₁ j₂ u₁ u₂ r₁ r₂ r other hother hj₁ hj₂ hback₁ hback₂
    rcases hpair hother hj₁ hback₁ with ⟨-, rfl, rfl, -⟩ | ⟨hold, -, hc₁⟩ <;>
      rcases hpair hother hj₂ hback₂ with ⟨-, hsame, hi₂, -⟩ | ⟨-, -, hc₂⟩
    · exact hi₂.symm
    · exact absurd hback₂ (hlock _ _ _ hc₂)
    · exact absurd hback₁ (hsame ▸ hlock _ _ _ hc₁)
    · exact h.single hold hc₁ hc₂ hback₁ hback₂

lemma Move.backed (hmove : Move backs amount e e') : Backed backs e' := by
  cases hmove with
  | issue _ hi hbacks hlock hclaim _ => exact h.issue hi hbacks hlock hclaim
  | pay hi _ | cancel hi => exact h.rephase hi nofun nofun
  | refund hi hlock hbacks | retire hi hlock hbacks => exact h.close hi hlock hbacks
  | rename π =>
    constructor
    · intro i t p hi hp
      obtain ⟨s, lock, hlock, hback⟩ := h.backed hi hp
      exact ⟨π.symm s, lock, by simpa using hlock, hback⟩
    · intro i t p s₁ s₂ lock₁ lock₂ hi h₁ h₂ hback₁ hback₂
      obtain ⟨hs, hlock⟩ := h.unique hi h₁ h₂ hback₁ hback₂
      exact ⟨π.injective hs, hlock⟩
    · intro i t s lock hi hlock
      exact h.released hi hlock
    · intro i j t u p q s lock hlock hi hj
      exact h.single hlock hi hj

omit [DecidableEq κ] [DecidableEq ι] in
/-- A party enters; its locks back nothing. -/
lemma Backed.enter {r : σ} {free : σ → Nat} {locks : Finset κ} (hempty : e.locks r = ∅)
    (hlocks : ∀ lock ∈ locks, ∀ i t p, e.claim i = some (t, p) → ¬ backs lock t) :
    Backed backs ⟨free, update e.locks r locks, e.claim⟩ := by
  refine h.restrict (fun {s} lock i t p hlock hi hback => ⟨?_, _, hi, id⟩) fun hi hp => ?_
  · rcases eq_or_ne s r with rfl | hs
    · exact absurd hback (hlocks _ (by simpa using hlock) _ _ _ hi)
    · simpa [hs] using hlock
  · obtain ⟨s, lock, hlock, hback⟩ := h.backed hi hp
    have hs : s ≠ r := by
      rintro rfl
      simp [hempty] at hlock
    exact ⟨s, lock, by simpa [hs] using hlock, hback⟩

end

/-! ## Value is conserved -/

lemma sum_update_add {σ : Type} [DecidableEq σ] [Fintype σ] (f : σ → Nat) (s : σ) (n : Nat) :
    ∑ r, update f s n r + f s = ∑ r, f r + n := by
  rw [Finset.sum_update_of_mem (Finset.mem_univ s), ← Finset.add_sum_erase _ f (Finset.mem_univ s),
    Finset.sdiff_singleton_eq_erase]
  omega

/-- A claim other than one of them is spent, and backed by the lock. -/
def SpentBut (backs : κ → τ → Prop) (e : Escrow σ κ ι τ) (i : ι) (lock : κ) : Prop :=
  ∃ j u, j ≠ i ∧ e.claim j = some (u, .spent) ∧ backs lock u

omit [DecidableEq σ] [DecidableEq κ] in
/-- Which locks are spent, by one of the claims and the others. -/
lemma spent_iff : e.Spent backs lock ↔
    (∃ t, e.claim i = some (t, .spent) ∧ backs lock t) ∨ e.SpentBut backs i lock := by
  constructor
  · rintro ⟨j, u, hj, hback⟩
    by_cases hji : j = i
    · exact .inl ⟨u, hji ▸ hj, hback⟩
    · exact .inr ⟨j, u, hji, hj, hback⟩
  · rintro (⟨t, hi, hback⟩ | ⟨j, u, -, hj, hback⟩)
    · exact ⟨i, t, hi, hback⟩
    · exact ⟨j, u, hj, hback⟩

omit [DecidableEq σ] [DecidableEq κ] in
@[simp] lemma spentBut_update {free : σ → Nat} {locks : σ → Finset κ} {new : Option (τ × Phase)} :
    SpentBut backs ⟨free, locks, update e.claim i new⟩ i lock ↔ e.SpentBut backs i lock := by
  refine exists₂_congr fun j u => and_congr_right fun hne => ?_
  simp [hne]

variable [Fintype σ]

open Classical in
/-- The locks that are outstanding, each with its party. -/
noncomputable def live (backs : κ → τ → Prop) (e : Escrow σ κ ι τ) : Finset ((_ : σ) × κ) :=
  Finset.univ.sigma fun s => (e.locks s).filter (¬ e.Spent backs ·)

section

omit [DecidableEq σ] [DecidableEq κ] [DecidableEq ι]

lemma mem_live {x : (_ : σ) × κ} : x ∈ e.live backs ↔ x.2 ∈ e.locks x.1 ∧ ¬ e.Spent backs x.2 := by
  simp [live]

lemma value_eq_live : e.value backs amount = ∑ s, e.free s + ∑ x ∈ e.live backs, amount x.2 := by
  rw [value, live, Finset.sum_sigma]
  rfl

/-- One more lock is outstanding, and its amount has left the free value. -/
lemma value_insert {x : (_ : σ) × κ} (hx : x ∉ e.live backs)
    (hlive : ∀ y, y ∈ e'.live backs ↔ y = x ∨ y ∈ e.live backs)
    (hfree : ∑ s, e'.free s + amount x.2 = ∑ s, e.free s) :
    e'.value backs amount = e.value backs amount := by
  classical
  have hinsert : e'.live backs = insert x (e.live backs) :=
    Finset.ext fun y => (hlive y).trans Finset.mem_insert.symm
  rw [value_eq_live, value_eq_live, hinsert, Finset.sum_insert hx]
  omega

/-- The same locks are outstanding. -/
lemma value_congr (hfree : e'.free = e.free) (hlive : ∀ y, y ∈ e'.live backs ↔ y ∈ e.live backs) :
    e'.value backs amount = e.value backs amount := by
  rw [value_eq_live, value_eq_live, hfree, Finset.ext hlive]

end

variable (h : Backed backs e)
include h

/-- Every move conserves value. -/
lemma Move.value_eq (hmove : Move backs amount e e') :
    e'.value backs amount = e.value backs amount := by
  -- a claim has one lock, and a lock has one claim
  have hother : ∀ {i t p s r lock other}, e.claim i = some (t, p) → lock ∈ e.locks s →
      backs lock t → ¬(r = s ∧ other = lock) → other ∈ e.locks r → ¬ backs other t :=
    fun hi hlock hback hne hmem hback' => hne (h.unique hi hmem hlock hback' hback)
  have halone : ∀ {i t p s lock}, e.claim i = some (t, p) → lock ∈ e.locks s → backs lock t →
      ¬ e.SpentBut backs i lock := fun hi hlock hback ⟨_, _, hne, hj, hback'⟩ =>
    hne (h.single hlock hj hi hback' hback)
  cases hmove with
  | @issue s lock i t rest hnew hi hbacks hlock hclaim hrest =>
    have hfree := sum_update_add e.free s rest
    refine value_insert (x := ⟨s, lock⟩) (fun hmem => hnew (mem_live.mp hmem).1) ?_ ?_
    · rintro ⟨r, other⟩
      simp only [mem_live, spent_iff (i := i), spentBut_update, update_self, hi, mem_update_insert,
        Sigma.mk.injEq, heq_eq_eq, Option.some_inj, Prod.mk.injEq, reduceCtorEq, and_false, false_and,
        exists_false, false_or]
      rw [or_and_right, and_iff_left_of_imp]
      rintro ⟨-, rfl⟩ ⟨j, u, -, hj, hback⟩
      exact hlock j u _ hj hback
    · simp only
      omega
  | @pay r i t n hi hamount =>
    obtain ⟨s, lock, hlock, hback⟩ := h.backed hi nofun
    have hfree := sum_update_add e.free r (e.free r + n)
    refine (value_insert (x := ⟨s, lock⟩) ?_ ?_ ?_).symm
    · simp [mem_live, spent_iff (i := i), hback]
    · rintro ⟨r, other⟩
      by_cases hsame : r = s ∧ other = lock
      · obtain ⟨rfl, rfl⟩ := hsame
        simp [mem_live, spent_iff (i := i), hi, hlock, halone hi hlock hback]
      · have hnot := hother hi hlock hback hsame
        simp +contextual [mem_live, spent_iff (i := i), hi, hsame, hnot]
    · simp only [hamount s lock hlock hback]
      omega
  | @cancel i t hi =>
    refine value_congr rfl fun y => ?_
    simp [mem_live, spent_iff (i := i), hi]
  | @refund s lock i t hi hlock hbacks =>
    have hfree := sum_update_add e.free s (e.free s + amount lock)
    refine (value_insert (x := ⟨s, lock⟩) ?_ ?_ ?_).symm
    · simp [mem_live]
    · rintro ⟨r, other⟩
      by_cases hsame : r = s ∧ other = lock
      · obtain ⟨rfl, rfl⟩ := hsame
        simp [mem_live, spent_iff (i := i), hi, hlock, halone hi hlock hbacks]
      · simp [mem_live, spent_iff (i := i), hi, mem_update_erase, hsame]
    · simp only
      omega
  | @retire s lock i t hi hlock hbacks =>
    refine value_congr rfl fun ⟨r, other⟩ => ?_
    by_cases hsame : r = s ∧ other = lock
    · obtain ⟨rfl, rfl⟩ := hsame
      simp [mem_live, spent_iff (i := i), hi, hbacks]
    · have hnot := hother hi hlock hbacks hsame
      simp +contextual [mem_live, spent_iff (i := i), hi, mem_update_erase, hsame, hnot]
  | rename π =>
    rw [value, value]
    congr 1
    · exact Equiv.sum_comp π e.free
    · exact Equiv.sum_comp π (e.outstanding backs amount)

end Escrow

end Myelin.Lib
