import Mathlib.Tactic

/-! Objects that many threads use at once and that behave as if they did so in turns.

A sequential object says what an operation answers and leaves when nothing else goes on. A
history linearizes if every operation takes effect at one moment between its call and its
return, and the sequential object, given the operations in the order of these moments,
answers the same. -/

set_option autoImplicit false

namespace RmqStream.Library

structure Sequential (τ ι ρ : Type) where
  start : τ
  apply : τ → ι → ρ × τ

inductive Moment (ι ρ : Type) where
  | called (n : Nat) (op : ι)
  | effected (n : Nat) (op : ι) (answer : ρ)
  | returned (n : Nat) (answer : ρ)
  deriving DecidableEq, Repr

inductive Phase (ι ρ : Type) where
  | outside
  | before (op : ι)
  | behind (op : ι) (answer : ρ)
  deriving DecidableEq, Repr

variable {τ ι ρ : Type}

/-- The histories in which each thread makes one operation after the other, and each
operation takes effect once before it returns. -/
inductive Orderly : List (Moment ι ρ) → (Nat → Phase ι ρ) → Prop where
  | start : Orderly [] fun _ => .outside
  | called {history : List (Moment ι ρ)} {phases : Nat → Phase ι ρ} {n : Nat} {op : ι} :
      Orderly history phases → phases n = .outside →
      Orderly (history ++ [.called n op]) (Function.update phases n (.before op))
  | effected {history : List (Moment ι ρ)} {phases : Nat → Phase ι ρ} {n : Nat} {op : ι} {answer : ρ} :
      Orderly history phases → phases n = .before op →
      Orderly (history ++ [.effected n op answer]) (Function.update phases n (.behind op answer))
  | returned {history : List (Moment ι ρ)} {phases : Nat → Phase ι ρ} {n : Nat} {op : ι} {answer : ρ} :
      Orderly history phases → phases n = .behind op answer →
      Orderly (history ++ [.returned n answer]) (Function.update phases n .outside)

def effects (history : List (Moment ι ρ)) : List (ι × ρ) := history.filterMap fun
  | .effected _ op answer => some (op, answer)
  | _ => none

theorem effects_append (front back : List (Moment ι ρ)) : effects (front ++ back) = effects front ++ effects back :=
  List.filterMap_append

namespace Sequential
variable {object : Sequential τ ι ρ}

/-- The object answers so and is left so. -/
inductive Runs (object : Sequential τ ι ρ) : List (ι × ρ) → τ → Prop where
  | start : Runs object [] object.start
  | apply {log : List (ι × ρ)} {t : τ} {op : ι} :
      Runs object log t → Runs object (log ++ [(op, (object.apply t op).1)]) (object.apply t op).2

theorem Runs.invariant (inv : List (ι × ρ) → τ → Prop) (first : inv [] object.start)
    (keep : ∀ log t op, inv log t → inv (log ++ [(op, (object.apply t op).1)]) (object.apply t op).2)
    {log : List (ι × ρ)} {t : τ} (runs : object.Runs log t) : inv log t := by
  induction runs with
  | start => exact first
  | apply _ ih => exact keep _ _ _ ih

structure Linearizes (object : Sequential τ ι ρ) (history : List (Moment ι ρ)) (phases : Nat → Phase ι ρ) (t : τ) :
    Prop where
  orderly : Orderly history phases
  runs : object.Runs (effects history) t

namespace Linearizes
variable {history : List (Moment ι ρ)} {phases : Nat → Phase ι ρ} {t : τ} {n : Nat} {op : ι} {answer : ρ}

theorem start : object.Linearizes [] (fun _ => .outside) object.start := ⟨.start, .start⟩

theorem called (linear : object.Linearizes history phases t) (outside : phases n = .outside) (op : ι) :
    object.Linearizes (history ++ [.called n op]) (Function.update phases n (.before op)) t where
  orderly := linear.orderly.called outside
  runs := by
    rw [effects_append]
    exact (List.append_nil _).symm ▸ linear.runs

theorem effected (linear : object.Linearizes history phases t) (before : phases n = .before op) :
    object.Linearizes (history ++ [.effected n op (object.apply t op).1])
      (Function.update phases n (.behind op (object.apply t op).1)) (object.apply t op).2 where
  orderly := linear.orderly.effected before
  runs := by
    rw [effects_append]
    exact linear.runs.apply

theorem returned (linear : object.Linearizes history phases t) (behind : phases n = .behind op answer) :
    object.Linearizes (history ++ [.returned n answer]) (Function.update phases n .outside) t where
  orderly := linear.orderly.returned behind
  runs := by
    rw [effects_append]
    exact (List.append_nil _).symm ▸ linear.runs

end Linearizes
end Sequential
end RmqStream.Library
