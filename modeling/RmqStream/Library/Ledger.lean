import Mathlib.Tactic

/-! Resources that the events of a trace take and give back.

`held` replays a trace. It fails where something is given back that is not held, so that a
value says of every prefix that nothing was given back twice. -/

set_option autoImplicit false

namespace RmqStream.Library

inductive Use (ρ : Type) where
  | takes (r : ρ)
  | gives (r : ρ)
  | neither
  deriving DecidableEq, Repr

section Ledger
variable {ε ρ : Type} [DecidableEq ρ]

def Use.apply (holding : List ρ) : Use ρ → Option (List ρ)
  | .takes r => some (r :: holding)
  | .gives r => if r ∈ holding then some (holding.erase r) else none
  | .neither => some holding

def held (use : ε → Use ρ) (trace : List ε) : Option (List ρ) :=
  trace.foldlM (fun holding e => (use e).apply holding) []

def taken (use : ε → Use ρ) (r : ρ) (trace : List ε) : Nat := trace.countP fun e => use e = .takes r

def given (use : ε → Use ρ) (r : ρ) (trace : List ε) : Nat := trace.countP fun e => use e = .gives r

variable {use : ε → Use ρ} {trace : List ε} {holding : List ρ} {e : ε}

theorem held_snoc (use : ε → Use ρ) (trace : List ε) (e : ε) :
    held use (trace ++ [e]) = (held use trace).bind (use e).apply := by
  simp [held, List.foldlM_append]

theorem held_neither (before : held use trace = some holding) (neither : use e = .neither) :
    held use (trace ++ [e]) = some holding := by
  rw [held_snoc, before, neither]
  rfl

theorem held_takes {r : ρ} (before : held use trace = some holding) (takes : use e = .takes r) :
    held use (trace ++ [e]) = some (r :: holding) := by
  rw [held_snoc, before, takes]
  rfl

theorem held_gives {r : ρ} (before : held use trace = some (r :: holding)) (gives : use e = .gives r) :
    held use (trace ++ [e]) = some holding := by
  rw [held_snoc, before, gives]
  simp [Use.apply]

theorem held_gives_mem {r : ρ} (before : held use trace = some holding) (gives : use e = .gives r) (mem : r ∈ holding) :
    held use (trace ++ [e]) = some (holding.erase r) := by
  rw [held_snoc, before, gives]
  exact if_pos mem

/-- Everything taken was given back once, or is held. -/
theorem taken_eq_given (replayed : held use trace = some holding) (r : ρ) :
    taken use r trace = given use r trace + holding.count r := by
  -- From the end of the trace: only its last event moves the balance.
  induction trace using List.reverseRecOn generalizing holding with
  | nil =>
    cases replayed
    rfl
  | append_singleton trace e ih =>
    rw [held_snoc] at replayed
    obtain ⟨before, earlier, last⟩ := Option.bind_eq_some_iff.mp replayed
    have counted := ih earlier
    unfold taken given at counted ⊢
    rw [List.countP_append, List.countP_append, counted]
    cases action : use e with
    | neither =>
      rw [action] at last
      cases last
      simp [action]
    | takes other =>
      rw [action] at last
      cases last
      by_cases same : other = r
      · simp [action, same]
        omega
      · simp [action, same]
    | gives other =>
      rw [action] at last
      obtain ⟨member, last⟩ := Option.ite_none_right_eq_some.mp last
      cases last
      by_cases same : other = r
      · subst same
        have positive := List.count_pos_iff.mpr member
        simp [action, List.count_erase_self]
        omega
      · simp [action, same, List.count_erase_of_ne (Ne.symm same)]

end Ledger
end RmqStream.Library
