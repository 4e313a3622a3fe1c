/-
  Everything reachable from some roots: a set of what has been seen, and a queue.

  `serve` takes a node from the queue, notes its successors and queues those that are new.  Each node
  is queued once, so the nodes outside the set plus the length of the queue go down with every turn
  (`pending`), and as many turns as there are nodes empty the queue.  What is left then is the LEAST
  set that contains the roots and the successors of its members: `closure_closed` and
  `closure_induction`.
-/
import Myelin.Lib.SortedMap

namespace Myelin.Lib

variable {κ : Type} [LinearOrder κ]

/-- Nodes seen, and those of them whose successors are still to be noted. -/
structure Worklist (κ : Type) [LinearOrder κ] where
  seen : SortedMap κ Unit
  queue : List κ

namespace Worklist

/-- Note a successor; a new one is queued. -/
def note (work : Worklist κ) (k : κ) : Worklist κ :=
  if k ∈ work.seen.keys then work else ⟨work.seen.insert k (), work.queue ++ [k]⟩

/-- Serve the queue, for at most so many turns. -/
def serve (next : κ → List κ) : Nat → Worklist κ → Worklist κ
  | 0, work => work
  | fuel + 1, work =>
      match work.queue with
      | [] => work
      | k :: rest => serve next fuel ((next k).foldl note ⟨work.seen, rest⟩)

/-- What the roots reach. -/
def closure (next : κ → List κ) (fuel : Nat) (roots : SortedMap κ Unit) : SortedMap κ Unit :=
  (serve next fuel ⟨roots, roots.keys⟩).seen

/-! ## One turn -/

variable {next : κ → List κ} {work : Worklist κ} {k j : κ} {list : List κ}

lemma mem_seen_note : j ∈ (work.note k).seen.keys ↔ j ∈ work.seen.keys ∨ j = k := by
  unfold note
  split_ifs with h
  · exact ⟨.inl, fun hj => hj.elim id fun heq => heq ▸ h⟩
  · rw [SortedMap.mem_keys_insert, or_comm]

lemma mem_seen_foldl : j ∈ (list.foldl note work).seen.keys ↔ j ∈ work.seen.keys ∨ j ∈ list := by
  induction list generalizing work with
  | nil => simp
  | cons k list ih => rw [List.foldl_cons, ih, mem_seen_note, List.mem_cons, or_assoc]

/-- What is queued was queued before, or is a new node. -/
lemma mem_queue_note : j ∈ (work.note k).queue ↔ j ∈ work.queue ∨ j = k ∧ k ∉ work.seen.keys := by
  unfold note
  split_ifs with h
  · simp [h]
  · simp [h]

lemma queue_foldl (h : j ∈ work.queue) : j ∈ (list.foldl note work).queue := by
  induction list generalizing work with
  | nil => exact h
  | cons k list ih => exact ih (mem_queue_note.mpr (.inl h))

/-- New nodes are queued. -/
lemma queue_of_new (hnew : j ∉ work.seen.keys) (h : j ∈ (list.foldl note work).seen.keys) :
    j ∈ (list.foldl note work).queue := by
  induction list generalizing work with
  | nil => exact absurd h hnew
  | cons k list ih =>
    rcases eq_or_ne j k with rfl | hne
    · rw [List.foldl_cons]
      exact queue_foldl (mem_queue_note.mpr (.inr ⟨rfl, hnew⟩))
    · exact ih (fun hseen => (mem_seen_note.mp hseen).elim hnew hne) h

/-- Only new nodes are queued. -/
lemma mem_queue_foldl (h : j ∈ (list.foldl note work).queue) : j ∈ work.queue ∨ j ∈ list := by
  induction list generalizing work with
  | nil => exact .inl h
  | cons k list ih =>
    rcases ih h with hqueue | hlist
    · rcases mem_queue_note.mp hqueue with hold | ⟨rfl, -⟩
      · exact .inl hold
      · exact .inr List.mem_cons_self
    · exact .inr (List.mem_cons_of_mem _ hlist)

/-- Nodes that may still be served, out of `all` there are. -/
def pending (all : List κ) (work : Worklist κ) : Nat :=
  work.queue.length + (all.filter (· ∉ work.seen.keys)).length

lemma pending_note (h : k ∈ all) : (work.note k).pending all ≤ work.pending all := by
  unfold note
  split_ifs with hseen
  · exact Nat.le_refl _
  · -- one node more in the queue, and at least one fewer outside the set
    have hfilter : all.filter (· ∉ (work.seen.insert k ()).keys) =
        (all.filter (· ∉ work.seen.keys)).filter (· ≠ k) := by
      rw [List.filter_filter]
      refine List.filter_congr fun j _ => ?_
      simp [SortedMap.mem_keys_insert]
    have hless : ((all.filter (· ∉ work.seen.keys)).filter (· ≠ k)).length <
        (all.filter (· ∉ work.seen.keys)).length := by
      refine List.length_filter_lt_length_iff_exists.mpr ⟨k, ?_, by simp⟩
      exact List.mem_filter.mpr ⟨h, by simpa using hseen⟩
    simp only [pending, hfilter, List.length_append, List.length_singleton]
    omega

lemma pending_foldl (h : ∀ k ∈ list, k ∈ all) :
    (list.foldl note work).pending all ≤ work.pending all := by
  induction list generalizing work with
  | nil => exact Nat.le_refl _
  | cons k list ih =>
    obtain ⟨hk, hrest⟩ := List.forall_mem_cons.mp h
    exact Nat.le_trans (ih hrest) (pending_note hk)

/-! ## The whole search -/

/-- What holds between turns. -/
structure Underway (next : κ → List κ) (roots : SortedMap κ Unit) (work : Worklist κ) : Prop where
  rooted : ∀ k ∈ roots.keys, k ∈ work.seen.keys
  queued : ∀ k ∈ work.queue, k ∈ work.seen.keys
  /-- A node that has left the queue has its successors in the set. -/
  served : ∀ k ∈ work.seen.keys, k ∈ work.queue ∨ ∀ j ∈ next k, j ∈ work.seen.keys

lemma Underway.turn (h : Underway next roots ⟨work.seen, k :: rest⟩) :
    Underway next roots ((next k).foldl note ⟨work.seen, rest⟩) where
  rooted j hj := mem_seen_foldl.mpr (.inl (h.rooted j hj))
  queued j hj := by
    refine mem_seen_foldl.mpr ((mem_queue_foldl hj).imp_left fun hrest => ?_)
    exact h.queued j (List.mem_cons_of_mem _ hrest)
  served j hj := by
    by_cases hold : j ∈ work.seen.keys
    · rcases h.served j hold with hqueue | hdone
      · rcases List.mem_cons.mp hqueue with rfl | hrest
        · exact .inr fun i hi => mem_seen_foldl.mpr (.inr hi)
        · exact .inl (queue_foldl hrest)
      · exact .inr fun i hi => mem_seen_foldl.mpr (.inl (hdone i hi))
    · exact .inl (queue_of_new hold hj)

/-- Enough turns empty the queue. -/
lemma Underway.serve (hall : ∀ k, ∀ j ∈ next k, j ∈ all) (h : Underway next roots work)
    (hfuel : work.pending all ≤ fuel) :
    Underway next roots (serve next fuel work) ∧ (Worklist.serve next fuel work).queue = [] := by
  induction fuel generalizing work with
  | zero =>
    refine ⟨h, List.eq_nil_of_length_eq_zero ?_⟩
    unfold pending at hfuel
    show work.queue.length = 0
    omega
  | succ fuel ih =>
    obtain ⟨seen, queue⟩ := work
    cases queue with
    | nil => exact ⟨h, rfl⟩
    | cons k rest =>
      have hless := @pending_foldl κ _ ⟨seen, rest⟩ (next k) all (hall k)
      refine ih (@Underway.turn κ _ next ⟨seen, rest⟩ k roots rest h) ?_
      simp only [pending, List.length_cons] at hfuel hless ⊢
      omega

section Closure

variable {fuel : Nat} {roots : SortedMap κ Unit} {all : List κ}

/-- **The roots and the successors of members are members.** -/
theorem closure_closed (hall : ∀ k, ∀ j ∈ next k, j ∈ all)
    (hfuel : roots.keys.length + all.length ≤ fuel) :
    (∀ k ∈ roots.keys, k ∈ (closure next fuel roots).keys) ∧
      ∀ k ∈ (closure next fuel roots).keys, ∀ j ∈ next k, j ∈ (closure next fuel roots).keys := by
  have hstart : Underway next roots ⟨roots, roots.keys⟩ :=
    ⟨fun _ h => h, fun _ h => h, fun _ h => .inl h⟩
  have henough : pending all ⟨roots, roots.keys⟩ ≤ fuel := by
    have hle := List.length_filter_le (fun k => decide (k ∉ roots.keys)) all
    simp only [pending]
    omega
  obtain ⟨hdone, hempty⟩ := hstart.serve hall henough
  refine ⟨hdone.rooted, fun k hk => (hdone.served k hk).resolve_left fun hqueue => ?_⟩
  rw [hempty] at hqueue
  exact List.not_mem_nil hqueue

/-- **Members are roots or reached from members**: what holds of the roots and passes on to successors
    holds of all members. -/
theorem closure_induction {P : κ → Prop} (hroots : ∀ k ∈ roots.keys, P k)
    (hstep : ∀ k, P k → ∀ j ∈ next k, P j) : ∀ k ∈ (closure next fuel roots).keys, P k := by
  suffices hserve : ∀ (fuel : Nat) (work : Worklist κ), (∀ k ∈ work.seen.keys, P k) →
      (∀ k ∈ work.queue, P k) → ∀ k ∈ (serve next fuel work).seen.keys, P k from
    hserve fuel ⟨roots, roots.keys⟩ hroots hroots
  intro fuel
  induction fuel with
  | zero => exact fun work hseen _ => hseen
  | succ fuel ih =>
    rintro ⟨seen, queue⟩ hseen hqueue
    cases queue with
    | nil => exact hseen
    | cons k rest =>
      obtain ⟨hk, hrest⟩ := List.forall_mem_cons.mp hqueue
      refine ih _ (fun j hj => ?_) fun j hj => ?_
      · exact (mem_seen_foldl.mp hj).elim (hseen j) (hstep k hk j)
      · exact (mem_queue_foldl hj).elim (hrest j) (hstep k hk j)

end Closure

end Worklist

end Myelin.Lib
