import Mathlib.Tactic

/-! Stateful computations that can fail, and keep the state they failed in.

`Ensures` is the usual judgement with one postcondition for each outcome; the
rules below compose it along `bind`. -/

set_option autoImplicit false

namespace RmqStream.Library

/-- A computation over `σ`. The state is returned with an error as well. -/
structure Fallible (σ ε α : Type) where
  run : σ → Except ε α × σ

namespace Fallible
variable {σ ε α β γ : Type}

instance : Monad (Fallible σ ε) where
  pure value := ⟨fun s => (.ok value, s)⟩
  bind m next := ⟨fun s =>
    match m.run s with
    | (.ok value, after) => (next value).run after
    | (.error e, after) => (.error e, after)⟩

def fail (e : ε) : Fallible σ ε α := ⟨fun s => (.error e, s)⟩

def ofExcept (result : Except ε α) : Fallible σ ε α := ⟨fun s => (result, s)⟩

def modify (update : σ → σ) : Fallible σ ε Unit := ⟨fun s => (.ok (), update s)⟩

def mapError {δ : Type} (rename : ε → δ) (m : Fallible σ ε α) : Fallible σ δ α :=
  ⟨fun s => ((m.run s).1.mapError rename, (m.run s).2)⟩

@[simp] theorem run_pure (value : α) (s : σ) : (pure value : Fallible σ ε α).run s = (.ok value, s) := rfl

theorem run_bind (m : Fallible σ ε α) (next : α → Fallible σ ε β) (s : σ) :
    (m >>= next).run s =
      match m.run s with
      | (.ok value, after) => (next value).run after
      | (.error e, after) => (.error e, after) := rfl

theorem bind_ok {m : Fallible σ ε α} {next : α → Fallible σ ε β} {s after : σ} {value : α}
    (first : m.run s = (.ok value, after)) : (m >>= next).run s = (next value).run after := by
  rw [run_bind, first]

theorem bind_error {m : Fallible σ ε α} {next : α → Fallible σ ε β} {s after : σ} {e : ε}
    (first : m.run s = (.error e, after)) : (m >>= next).run s = (.error e, after) := by
  rw [run_bind, first]

theorem mapError_bind {δ : Type} (rename : ε → δ) (m : Fallible σ ε α) (next : α → Fallible σ ε β) :
    mapError rename (m >>= next) = mapError rename m >>= fun value => mapError rename (next value) := by
  have same : ∀ s, (mapError rename (m >>= next)).run s =
      (mapError rename m >>= fun value => mapError rename (next value)).run s := by
    intro s
    rcases started : m.run s with ⟨e | value, after⟩ <;> simp only [mapError, run_bind, started, Except.mapError]
  exact congrArg Fallible.mk (funext same)

theorem bind_assoc (m : Fallible σ ε α) (next : α → Fallible σ ε β) (final : β → Fallible σ ε γ) :
    (m >>= next) >>= final = m >>= fun value => next value >>= final := by
  have same : ∀ s, ((m >>= next) >>= final).run s = (m >>= fun value => next value >>= final).run s := by
    intro s
    rcases started : m.run s with ⟨e | value, after⟩
    · rw [bind_error started, bind_error (bind_error started)]
    · rw [bind_ok started, run_bind, bind_ok started, run_bind]
  exact congrArg Fallible.mk (funext same)

theorem bind_pure (m : Fallible σ ε α) : (m >>= fun value => pure value) = m := by
  have same : ∀ s, (m >>= fun value => pure value).run s = m.run s := by
    intro s
    rw [run_bind]
    rcases m.run s with ⟨e | value, after⟩ <;> rfl
  exact congrArg Fallible.mk (funext same)

/-- From every state in `before`, a success ends in `ok` and a failure in `error`. -/
def Ensures (m : Fallible σ ε α) (before : σ → Prop) (ok : α → σ → Prop) (error : σ → Prop) : Prop :=
  ∀ s, before s →
    match m.run s with
    | (.ok value, after) => ok value after
    | (.error _, after) => error after

namespace Ensures
variable {before : σ → Prop} {error : σ → Prop}

theorem pure {value : α} {ok : α → σ → Prop} (done : ∀ s, before s → ok value s) :
    Ensures (pure value : Fallible σ ε α) before ok error :=
  fun s start => done s start

theorem fail {e : ε} {ok : α → σ → Prop} (bad : ∀ s, before s → error s) :
    Ensures (Fallible.fail e : Fallible σ ε α) before ok error :=
  fun s start => bad s start

theorem bind {m : Fallible σ ε α} {next : α → Fallible σ ε β} {middle : α → σ → Prop} {ok : β → σ → Prop}
    (first : Ensures m before middle error) (second : ∀ value, Ensures (next value) (middle value) ok error) :
    Ensures (m >>= next) before ok error := by
  intro s start
  have done := first s start
  rcases run : m.run s with ⟨e | value, after⟩
  · rw [run] at done
    rw [bind_error run]
    exact done
  · rw [run] at done
    rw [bind_ok run]
    exact second value after done

theorem mono {m : Fallible σ ε α} {ok good : α → σ → Prop} {worse : σ → Prop} (ensures : Ensures m before ok error)
    (weaken : ∀ value s, ok value s → good value s) (worsen : ∀ s, error s → worse s) :
    Ensures m before good worse := by
  intro s start
  have done := ensures s start
  rcases run : m.run s with ⟨e | value, after⟩
  · rw [run] at done
    exact worsen after done
  · rw [run] at done
    exact weaken value after done

end Ensures

section Record
variable {τ : Type}

def lift (m : Fallible σ ε α) : Fallible (σ × τ) ε α :=
  ⟨fun s => ((m.run s.1).1, ((m.run s.1).2, s.2))⟩

theorem lift_run {m : Fallible σ ε α} {s after : σ} {outcome : Except ε α} (run : m.run s = (outcome, after))
    (record : τ) : (lift m).run (s, record) = (outcome, after, record) := by
  simp only [lift, run]

def note (update : σ → τ → τ) : Fallible (σ × τ) ε Unit := modify fun s => (s.1, update s.1 s.2)

/-- Without its record, the first computation is the second. -/
def Erases (m : Fallible (σ × τ) ε α) (plain : Fallible σ ε α) : Prop :=
  ∀ s record, ((m.run (s, record)).1, (m.run (s, record)).2.1) = plain.run s

namespace Erases

theorem lift (m : Fallible σ ε α) : Erases (Fallible.lift m : Fallible (σ × τ) ε α) m :=
  fun _ _ => rfl

theorem pure (value : α) : Erases (pure value : Fallible (σ × τ) ε α) (pure value) :=
  fun _ _ => rfl

theorem note (update : σ → τ → τ) : Erases (Fallible.note update : Fallible (σ × τ) ε Unit) (Pure.pure ()) :=
  fun _ _ => rfl

theorem bind {m : Fallible (σ × τ) ε α} {plain : Fallible σ ε α} {next : α → Fallible (σ × τ) ε β}
    {plainNext : α → Fallible σ ε β} (first : Erases m plain)
    (second : ∀ value, Erases (next value) (plainNext value)) :
    Erases (m >>= next) (plain >>= plainNext) := by
  intro s record
  have started := first s record
  rcases run : m.run (s, record) with ⟨e | value, after, noted⟩
  · rw [run] at started
    rw [bind_error run, bind_error started.symm]
  · rw [run] at started
    rw [bind_ok run, bind_ok started.symm]
    exact second value after noted

end Erases
end Record

/-- From related states they come to the same outcome, and to related states. -/
def Agree {τ : Type} (rel : σ → τ → Prop) (m : Fallible σ ε α) (n : Fallible τ ε α) : Prop :=
  ∀ s t, rel s t → (m.run s).1 = (n.run t).1 ∧ rel (m.run s).2 (n.run t).2

namespace Agree
variable {τ : Type} {rel : σ → τ → Prop}

theorem pure (value : α) : Agree rel (pure value : Fallible σ ε α) (Pure.pure value) :=
  fun _ _ related => ⟨rfl, related⟩

theorem fail (e : ε) : Agree rel (Fallible.fail e : Fallible σ ε α) (Fallible.fail e) :=
  fun _ _ related => ⟨rfl, related⟩

theorem ofExcept (result : Except ε α) : Agree rel (Fallible.ofExcept result) (Fallible.ofExcept result) :=
  fun _ _ related => ⟨rfl, related⟩

theorem modify {update : σ → σ} {change : τ → τ} (keeps : ∀ s t, rel s t → rel (update s) (change t)) :
    Agree rel (Fallible.modify update : Fallible σ ε Unit) (Fallible.modify change) :=
  fun s t related => ⟨rfl, keeps s t related⟩

theorem bind {m : Fallible σ ε α} {n : Fallible τ ε α} {next : α → Fallible σ ε β} {after : α → Fallible τ ε β}
    (first : Agree rel m n) (second : ∀ value, Agree rel (next value) (after value)) :
    Agree rel (m >>= next) (n >>= after) := by
  intro s t related
  obtain ⟨outcome, still⟩ := first s t related
  rcases left : m.run s with ⟨e | value, s'⟩
  all_goals
    rcases right : n.run t with ⟨f | other, t'⟩
    all_goals
      rw [left, right] at outcome still
      cases outcome
  · rw [bind_error left, bind_error right]
    exact ⟨rfl, still⟩
  · rw [bind_ok left, bind_ok right]
    exact second value s' t' still

theorem ite {m m' : Fallible σ ε α} {n n' : Fallible τ ε α} {p : Prop} [Decidable p] (yes : Agree rel m n)
    (no : Agree rel m' n') : Agree rel (if p then m else m') (if p then n else n') := by
  split
  · exact yes
  · exact no

end Agree

end Fallible
end RmqStream.Library
