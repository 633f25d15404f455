import RmqStream.Library.Transition

/-! Runs without end of a machine, and what they come to when they are fair.

A group of labels is what one thread may do. A run is fair to a group that is not left
able to move for ever without moving. A measure that every move of the group makes smaller,
and that no other step makes larger, then leads to the goal. -/

set_option autoImplicit false

namespace RmqStream.Library
namespace Machine
variable {σ α : Type}

structure Endless (m : Machine σ α) where
  state : Nat → σ
  label : Nat → α
  first : m.Reach anyStep (state 0)
  move : ∀ i, m.step (state i) (label i) = some (state (i + 1))

def Enabled (m : Machine σ α) (group : α → Prop) (s : σ) : Prop := ∃ a, group a ∧ (m.step s a).isSome

namespace Endless
variable {m : Machine σ α} {run : m.Endless}

theorem reach (run : m.Endless) (i : Nat) : m.Reach anyStep (run.state i) := by
  induction i with
  | zero => exact run.first
  | succ i ih => exact .step ih trivial (run.move i)

/-- The group is not able to move for ever without moving. -/
def Fair (run : m.Endless) (group : α → Prop) : Prop :=
  ∀ i, (∀ j ≥ i, m.Enabled group (run.state j)) → ∃ j ≥ i, group (run.label j)

/-- Whenever the one holds, the other holds then or later. -/
def LeadsTo (run : m.Endless) (p q : σ → Prop) : Prop := ∀ i, p (run.state i) → ∃ j ≥ i, q (run.state j)

section LeadsTo
variable {p q : σ → Prop}

theorem lasts (keep : ∀ s a s', m.Reach anyStep s → p s → m.step s a = some s' → p s') {i j : Nat}
    (here : p (run.state i)) (later : i ≤ j) : p (run.state j) := by
  induction j, later using Nat.le_induction with
  | base => exact here
  | succ j _ ih => exact keep _ _ _ (run.reach j) ih (run.move j)

theorem lasts_until (keep : ∀ s a s', m.Reach anyStep s → p s → m.step s a = some s' → q s' ∨ p s') {i : Nat}
    (here : p (run.state i)) (never : ∀ j ≥ i, ¬ q (run.state j)) {j : Nat} (later : i ≤ j) : p (run.state j) := by
  induction j, later using Nat.le_induction with
  | base => exact here
  | succ j later ih =>
    exact (keep _ _ _ (run.reach j) ih (run.move j)).resolve_left (never _ (Nat.le_succ_of_le later))

end LeadsTo

/-! ## Measures -/

/-- What the moves of a group, and those of all others, do to a measure until the goal. -/
structure Descends {β : Type} [Preorder β] (m : Machine σ α) (group : α → Prop) (measure : σ → β)
    (p q : σ → Prop) : Prop where
  own : ∀ s a s', m.Reach anyStep s → p s → group a → m.step s a = some s' →
    q s' ∨ p s' ∧ measure s' < measure s
  others : ∀ s a s', m.Reach anyStep s → p s → ¬ group a → m.step s a = some s' →
    q s' ∨ p s' ∧ measure s' ≤ measure s

variable {β : Type} [Preorder β] {group : α → Prop} {measure : σ → β} {p q : σ → Prop}

theorem Descends.step (descends : Descends m group measure p q) {s s' : σ} {a : α} (reach : m.Reach anyStep s)
    (here : p s) (move : m.step s a = some s') : q s' ∨ p s' ∧ measure s' ≤ measure s := by
  by_cases mine : group a
  · exact (descends.own s a s' reach here mine move).imp_right fun ⟨still, less⟩ => ⟨still, less.le⟩
  · exact descends.others s a s' reach here mine move

theorem Descends.antitone (descends : Descends m group measure p q) {i : Nat} (here : p (run.state i))
    (never : ∀ j ≥ i, ¬ q (run.state j)) {j : Nat} (later : i ≤ j) :
    p (run.state j) ∧ measure (run.state j) ≤ measure (run.state i) := by
  induction j, later using Nat.le_induction with
  | base => exact ⟨here, le_rfl⟩
  | succ j later ih =>
    obtain ⟨still, less⟩ := (descends.step (run.reach j) ih.1 (run.move j)).resolve_left
      (never _ (Nat.le_succ_of_le later))
    exact ⟨still, less.trans ih.2⟩

/-- A fair run reaches the goal, if a group that stops short of it is able to move from some
point on. -/
theorem LeadsTo.of_measure [WellFoundedLT β] (group : α → Prop) (measure : σ → β)
    (descends : Descends m group measure p q) (fair : run.Fair group)
    (enabled : ∀ i, (∀ j ≥ i, p (run.state j) ∧ ¬ group (run.label j)) →
      ∃ j ≥ i, ∀ k ≥ j, m.Enabled group (run.state k)) : run.LeadsTo p q := by
  intro i here
  by_contra none
  have never : ∀ j ≥ i, ¬ q (run.state j) := fun j later goal => none ⟨j, later, goal⟩
  clear none
  -- By induction on the measure: the group moves once more, and the measure is smaller.
  induction smaller : measure (run.state i) using WellFoundedLT.induction generalizing i with
  | ind value ih =>
    have moves : ∃ j ≥ i, group (run.label j) := by
      by_contra still
      have rests : ∀ j ≥ i, p (run.state j) ∧ ¬ group (run.label j) := fun j later =>
        ⟨(descends.antitone here never later).1, fun mine => still ⟨j, later, mine⟩⟩
      obtain ⟨j, later, able⟩ := enabled i rests
      obtain ⟨k, after, mine⟩ := fair j able
      exact still ⟨k, later.trans after, mine⟩
    obtain ⟨j, later, mine⟩ := moves
    obtain ⟨there, bound⟩ := descends.antitone here never later
    obtain ⟨still, less⟩ := (descends.own _ _ _ (run.reach j) there mine (run.move j)).resolve_left
      (never _ (Nat.le_succ_of_le later))
    have beyond : i ≤ j + 1 := Nat.le_succ_of_le later
    exact ih _ (smaller ▸ less.trans_le bound) (j + 1) still (fun k after => never k (beyond.trans after)) rfl

theorem LeadsTo.of_measure_enabled [WellFoundedLT β] (group : α → Prop) (measure : σ → β)
    (descends : Descends m group measure p q) (fair : run.Fair group)
    (enabled : ∀ s, m.Reach anyStep s → p s → m.Enabled group s) : run.LeadsTo p q :=
  .of_measure group measure descends fair fun i rests =>
    ⟨i, Nat.le_refl i, fun k later => enabled _ (run.reach k) (rests k later).1⟩

/-- The same where the group may have to wait for others, but not for ever at one place. -/
theorem LeadsTo.of_waiting [WellFoundedLT β] {γ : Type} (place : σ → γ) (group : α → Prop) (measure : σ → β)
    (descends : Descends m group measure p q) (fair : run.Fair group)
    (still : ∀ s a s', m.Reach anyStep s → p s → ¬ group a → m.step s a = some s' → place s' = place s)
    (enabled : ∀ i, p (run.state i) → ∃ j ≥ i, ∀ k ≥ j, p (run.state k) → place (run.state k) = place (run.state i) →
      m.Enabled group (run.state k)) : run.LeadsTo p q := by
  refine .of_measure group measure descends fair fun i rests => ?_
  have stays : ∀ j ≥ i, place (run.state j) = place (run.state i) := by
    intro j later
    induction j, later using Nat.le_induction with
    | base => rfl
    | succ j later ih =>
      obtain ⟨here, other⟩ := rests j later
      exact (still _ _ _ (run.reach j) here other (run.move j)).trans ih
  obtain ⟨j, later, able⟩ := enabled i (rests i le_rfl).1
  exact ⟨j, later, fun k after => able k after (rests k (later.trans after)).1 (stays k (later.trans after))⟩

/-- A group that waits for others at some points, and gets away from each of them, is fair if it
is fair to the steps that it takes elsewhere. -/
theorem Fair.of_parts {ι : Type} {own : α → Prop} (blocked : ι → σ → Prop) (scheduled : run.Fair own)
    (part : ∀ a, own a → group a) (returns : ∀ x, run.LeadsTo (blocked x) fun s => ¬ blocked x s)
    (still : ∀ x s a s', m.Reach anyStep s → m.Enabled group s → blocked x s → ¬ group a → m.step s a = some s' →
      blocked x s')
    (free : ∀ s, m.Enabled group s → (∀ x, ¬ blocked x s) → m.Enabled own s) : run.Fair group := by
  intro i able
  by_contra none
  have others : ∀ j ≥ i, ¬ group (run.label j) := fun j later mine => none ⟨j, later, mine⟩
  -- Nobody else would take it away from a point where it waits.
  have away : ∀ j ≥ i, ∀ x, ¬ blocked x (run.state j) := by
    intro j later x waits
    obtain ⟨k, after, gone⟩ := returns x j waits
    have stays : ∀ l ≥ j, blocked x (run.state l) := by
      intro l beyond
      induction l, beyond using Nat.le_induction with
      | base => exact waits
      | succ l beyond ih =>
        have past := later.trans beyond
        exact still x _ _ _ (run.reach l) (able l past) ih (others l past) (run.move l)
    exact gone (stays k after)
  obtain ⟨j, later, mine⟩ := scheduled i fun j later => free _ (able j later) (away j later)
  exact others j later (part _ mine)

def inFront {γ : Type} (x : γ) (xs : Nat → γ) : Nat → γ
  | 0 => x
  | i + 1 => xs i

def after (e : m.Endless) {s : σ} {a : α} (reach : m.Reach anyStep s) (move : m.step s a = some (e.state 0)) :
    m.Endless where
  state := inFront s e.state
  label := inFront a e.label
  first := reach
  move i := by
    cases i with
    | zero => exact move
    | succ i => exact e.move i

theorem exists_endless {labels : List α} {s s' : σ} {a : α} (reach : m.Reach anyStep s)
    (ran : m.exec anyStep s labels = some s') (rest : Nat → σ) (begins : rest 0 = s')
    (goes : ∀ i, m.step (rest i) a = some (rest (i + 1))) :
    ∃ e : m.Endless, e.state 0 = s ∧ (∀ i, e.state (labels.length + i) = rest i) ∧ ∀ i, e.label i ∈ a :: labels := by
  induction labels generalizing s with
  | nil =>
    cases ran
    exact ⟨⟨rest, fun _ => a, begins ▸ reach, goes⟩, begins, fun i => by simp,
      fun i => List.mem_singleton.mpr rfl⟩
  | cons b labels ih =>
    obtain ⟨middle, move, ran⟩ := Option.bind_eq_some_iff.mp ran
    obtain ⟨e, starts, rests, does⟩ := ih (reach.step trivial move) ran
    refine ⟨e.after reach (move.trans (congrArg some starts.symm)), rfl, fun i => ?_, fun i => ?_⟩
    · rw [List.length_cons, Nat.add_right_comm]
      exact rests i
    · cases i with
      | zero => exact List.mem_cons_of_mem a List.mem_cons_self
      | succ i => exact List.mem_cons.mpr ((List.mem_cons.mp (does i)).imp_right (List.mem_cons_of_mem b))

theorem Fair.of_rest (n : Nat) (rests : ∀ i, ¬ m.Enabled group (run.state (n + i))) : run.Fair group := by
  intro i able
  exact absurd (able (n + i) (Nat.le_add_left i n)) (rests i)

end Endless
end Machine
end RmqStream.Library
