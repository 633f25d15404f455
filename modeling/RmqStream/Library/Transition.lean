import Mathlib.Tactic

/-! Machines that move by labelled partial steps.

A run is a list of labels. `Reach` is taken with respect to a condition on each
step, so that one development serves all runs and the runs that avoid some step. -/

set_option autoImplicit false

namespace RmqStream.Library

structure Machine (σ α : Type) where
  init : σ → Prop
  step : σ → α → Option σ

namespace Machine
variable {σ α : Type}

/-- The states of the runs all of whose steps are allowed where they are taken. -/
inductive Reach (m : Machine σ α) (allowed : σ → α → Prop) : σ → Prop where
  | init {s : σ} : m.init s → Reach m allowed s
  | step {s s' : σ} {a : α} : Reach m allowed s → allowed s a → m.step s a = some s' → Reach m allowed s'

def anyStep (_ : σ) (_ : α) : Prop := True

instance (s : σ) (a : α) : Decidable (anyStep s a) := inferInstanceAs (Decidable True)

variable {m : Machine σ α} {allowed : σ → α → Prop}

/-- What holds at the start and is kept by every allowed step from a state reached holds
in every state reached. -/
theorem Reach.invariant (inv : σ → Prop) (start : ∀ s, m.init s → inv s)
    (keep : ∀ s a s', m.Reach allowed s → inv s → allowed s a → m.step s a = some s' → inv s') {s : σ}
    (reach : m.Reach allowed s) : inv s := by
  induction reach with
  | init first => exact start _ first
  | step before allow move ih => exact keep _ _ _ before ih allow move

/-- Run a list of labels, stopping at the first step that is not allowed or not possible. -/
def exec (m : Machine σ α) (allowed : σ → α → Prop) [∀ s a, Decidable (allowed s a)] : σ → List α → Option σ
  | s, [] => some s
  | s, a :: run => if allowed s a then (m.step s a).bind fun s' => exec m allowed s' run else none

theorem Reach.exec [∀ s a, Decidable (allowed s a)] {run : List α} {s s' : σ} (reach : m.Reach allowed s)
    (ran : m.exec allowed s run = some s') : m.Reach allowed s' := by
  induction run generalizing s with
  | nil =>
    cases ran
    exact reach
  | cons a run ih =>
    unfold Machine.exec at ran
    split at ran
    next allow =>
      obtain ⟨middle, move, rest⟩ := Option.bind_eq_some_iff.mp ran
      exact ih (reach.step allow move) rest
    · simp at ran

/-- A property of the last state of a concrete run holds in some state reached. -/
theorem reach_of_exec [∀ s a, Decidable (allowed s a)] {run : List α} {s : σ} {property : σ → Bool}
    (first : m.init s) (ran : (m.exec allowed s run).any property = true) :
    ∃ s', m.Reach allowed s' ∧ property s' = true := by
  obtain ⟨s', final, holds⟩ := (Option.any_eq_true property _).mp ran
  exact ⟨s', Reach.exec (.init first) final, holds⟩

/-- Steps that leave the state as it is can be left out of a run. -/
theorem exec_filter {silent : α → Bool} (still : ∀ s a s', silent a = true → m.step s a = some s' → s' = s)
    {run : List α} {s s' : σ} (ran : m.exec anyStep s run = some s') :
    m.exec anyStep s (run.filter fun a => !silent a) = some s' := by
  induction run generalizing s with
  | nil => exact ran
  | cons a run ih =>
    obtain ⟨middle, move, rest⟩ := Option.bind_eq_some_iff.mp ran
    cases quiet : silent a with
    | true =>
      rw [List.filter_cons_of_neg (by simp [quiet]), ← still s a middle quiet move]
      exact ih rest
    | false =>
      rw [List.filter_cons_of_pos (by simp [quiet])]
      exact Option.bind_eq_some_iff.mpr ⟨middle, move, ih rest⟩

theorem exec_follows {τ : Type} {n : Machine τ α} {rel : σ → τ → Prop}
    (follow : ∀ s t a s', rel s t → m.step s a = some s' → ∃ t', n.step t a = some t' ∧ rel s' t') {run : List α}
    {s s' : σ} {t : τ} (related : rel s t) (ran : m.exec anyStep s run = some s') :
    ∃ t', n.exec anyStep t run = some t' ∧ rel s' t' := by
  induction run generalizing s t with
  | nil =>
    cases ran
    exact ⟨t, rfl, related⟩
  | cons a run ih =>
    obtain ⟨middle, move, rest⟩ := Option.bind_eq_some_iff.mp ran
    obtain ⟨between, same, still⟩ := follow s t a middle related move
    obtain ⟨t', ran, final⟩ := ih still rest
    exact ⟨t', Option.bind_eq_some_iff.mpr ⟨between, same, ran⟩, final⟩

def startingAt (m : Machine σ α) (first : σ) : Machine σ α := { m with init := fun s => s = first }

theorem Reach.mono {narrower : σ → α → Prop} {s : σ} (wider : ∀ s a, narrower s a → allowed s a)
    (reach : m.Reach narrower s) : m.Reach allowed s := by
  induction reach with
  | init start => exact .init start
  | step _ allow move ih => exact .step ih (wider _ _ allow) move

theorem Reach.extend {narrower : σ → α → Prop} {first s : σ} (reach : m.Reach allowed first)
    (wider : ∀ s a, narrower s a → allowed s a) (run : (m.startingAt first).Reach narrower s) :
    m.Reach allowed s := by
  induction run with
  | init start =>
    cases start
    exact reach
  | step _ allow move ih => exact .step ih (wider _ _ allow) move

/-- The states a run went through, the latest first. -/
inductive Path (m : Machine σ α) (allowed : σ → α → Prop) : List σ → Prop where
  | init {s : σ} : m.init s → Path m allowed [s]
  | step {s s' : σ} {past : List σ} {a : α} : Path m allowed (s :: past) → allowed s a → m.step s a = some s' →
    Path m allowed (s' :: s :: past)

/-- Some step of a history was such an event. -/
def Took (m : Machine σ α) (event : σ → α → σ → Prop) (run : List σ) : Prop :=
  ∃ s a s', m.step s a = some s' ∧ event s a s' ∧ [s', s] <:+: run

theorem Took.now {event : σ → α → σ → Prop} {s s' : σ} {a : α} (move : m.step s a = some s')
    (happened : event s a s') (past : List σ) : m.Took event (s' :: s :: past) :=
  ⟨s, a, s', move, happened, (List.prefix_append [s', s] past).isInfix⟩

theorem Took.later {event : σ → α → σ → Prop} {run : List σ} (took : m.Took event run) (s : σ) :
    m.Took event (s :: run) := by
  obtain ⟨before, a, after, move, happened, part⟩ := took
  exact ⟨before, a, after, move, happened, List.infix_cons part⟩

theorem Path.reach {run : List σ} {s : σ} (path : m.Path allowed run) (member : s ∈ run) :
    m.Reach allowed s := by
  induction path generalizing s with
  | init first =>
    rw [List.mem_singleton.mp member]
    exact .init first
  | step before allow move ih =>
    rcases List.mem_cons.mp member with rfl | earlier
    · exact .step (ih List.mem_cons_self) allow move
    · exact ih earlier

theorem Reach.path {s : σ} (reach : m.Reach allowed s) : ∃ past, m.Path allowed (s :: past) := by
  induction reach with
  | init first => exact ⟨[], .init first⟩
  | step before allow move ih =>
    obtain ⟨past, path⟩ := ih
    exact ⟨_, .step path allow move⟩

theorem Path.exec [∀ s a, Decidable (allowed s a)] {run : List α} {s s' : σ} {past : List σ}
    (path : m.Path allowed (s :: past)) (ran : m.exec allowed s run = some s') :
    ∃ more, m.Path allowed (s' :: more) ∧ s :: past <:+ s' :: more := by
  induction run generalizing s past with
  | nil =>
    cases ran
    exact ⟨past, path, List.suffix_refl _⟩
  | cons a run ih =>
    unfold Machine.exec at ran
    split at ran
    next allow =>
      obtain ⟨middle, move, rest⟩ := Option.bind_eq_some_iff.mp ran
      obtain ⟨more, longer, before⟩ := ih (path.step allow move) rest
      exact ⟨more, longer, (List.suffix_cons _ _).trans before⟩
    · cases ran

end Machine
end RmqStream.Library
