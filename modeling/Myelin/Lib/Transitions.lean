/-
  Labelled transition systems and their runs.

  `Trace step s events t`: from `s`, the listed events lead to `t`.  When a state REMEMBERS the
  events that produced it (`Trace.history`), two runs to one state saw the same events, so every
  "at most once" and "never both" about the events is read off the state.

  `Forward` is the same idea for a value that is only LOOKED at, at moments somebody else chooses: a
  value that never comes back to what it has left, found the same at two moments, was the same in
  between.  That is why reading everything twice gives a common moment for whatever is read twice.
-/
import Mathlib.Logic.Relation
import Myelin.Lib.Result

namespace Myelin.Lib

variable {σ ε : Type} {step : σ → ε → σ → Prop}

/-- A finite run with its events, in order. -/
inductive Trace (step : σ → ε → σ → Prop) : σ → List ε → σ → Prop where
  | nil (s : σ) : Trace step s [] s
  | cons {s t u : σ} {event : ε} {events : List ε} :
      step s event t → Trace step t events u → Trace step s (event :: events) u

namespace Trace

variable {s t : σ}

lemma single (h : step s event t) : Trace step s [event] t :=
  .cons h (.nil t)

lemma append (h₁ : Trace step s first t) (h₂ : Trace step t second u) :
    Trace step s (first ++ second) u := by
  induction h₁ with
  | nil => exact h₂
  | cons hstep _ ih => exact .cons hstep (ih h₂)

/-- A state that records each event as it happens holds exactly the events of its run. -/
lemma history {word : σ → List ε}
    (hstep : ∀ s event t, step s event t → word t = word s ++ [event]) {events : List ε}
    (h : Trace step s events t) : word t = word s ++ events := by
  induction h with
  | nil => exact (List.append_nil _).symm
  | cons h _ ih => rw [ih, hstep _ _ _ h, List.append_assoc, List.singleton_append]

lemma of_singleton (h : Trace step s [event] t) : step s event t := by
  cases h with
  | cons hstep hrest =>
    cases hrest
    exact hstep

lemma of_nil (h : Trace step s [] t) : t = s := by
  cases h
  rfl

/-- A run of at most one event. -/
lemma eq_or_step (h : Trace step s events t) (hlength : events.length ≤ 1) :
    t = s ∨ ∃ event, step s event t := by
  cases h with
  | nil => exact .inl rfl
  | cons hfirst hrest =>
    cases hrest with
    | nil => exact .inr ⟨_, hfirst⟩
    | cons => exact absurd hlength (by simp)

/-- A run seen through `view`, when each event shows as a (possibly empty) run there. -/
lemma project {τ δ : Type} {small : τ → δ → τ → Prop} {events : ε → List δ} (view : σ → τ)
    (hstep : ∀ s event t, step s event t → Trace small (view s) (events event) (view t))
    (h : Trace step s labels t) : Trace small (view s) (labels.flatMap events) (view t) := by
  induction h with
  | nil => exact .nil _
  | cons h _ ih => exact (hstep _ _ _ h).append ih

/-- A fallible fold whose passes are simulated is simulated as a whole. -/
lemma of_foldlM {τ α β : Type} {f : τ → α → Except β τ} (step : σ → ε → σ → Prop)
    (R : τ → σ → Prop) (label : α → ε)
    (hstep : ∀ b a b' s, R b s → f b a = .ok b' → ∃ t, step s (label a) t ∧ R b' t) {list : List α}
    {b b' : τ} (hs : R b s) (h : list.foldlM f b = .ok b') :
    ∃ t, Trace step s (list.map label) t ∧ R b' t := by
  induction list generalizing b s with
  | nil =>
    rw [List.foldlM_nil, pure_eq_ok] at h
    exact ⟨s, .nil s, h ▸ hs⟩
  | cons a rest ih =>
    rw [List.foldlM_cons, bind_eq_ok] at h
    obtain ⟨next, hnext, hrest⟩ := h
    obtain ⟨middle, hmove, hmiddle⟩ := hstep b a next s hs hnext
    obtain ⟨t, htrace, ht⟩ := ih hmiddle hrest
    exact ⟨t, .cons hmove htrace, ht⟩

end Trace

/-! ## Values over time -/

/-- A value over time that never comes back to what it has left. -/
def Forward {α : Type} (value : Nat → α) : Prop :=
  ∀ ⦃a b c : Nat⦄, a ≤ b → b ≤ c → value a = value c → value b = value a

/-- Seen twice, a forward value was the same in between. -/
lemma Forward.between {α : Type} {value : Nat → α} (h : Forward value) {v : α} (hab : a ≤ b)
    (hbc : b ≤ c) (ha : value a = v) (hc : value c = v) : value b = v :=
  (h hab hbc (ha.trans hc.symm)).trans ha

end Myelin.Lib
