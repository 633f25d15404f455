import Mathlib.Tactic

/-! Messages that go out piece by piece through one stream, one after the other. -/

set_option autoImplicit false

namespace RmqStream.Library

/-- A message and how much of it has gone out. -/
structure Fragment (α : Type) where
  whole : List α
  sent : Nat
  within : sent ≤ whole.length
  deriving DecidableEq, Repr

namespace Fragment
variable {α : Type}

theorem zero_within (whole : List α) : 0 ≤ whole.length := Nat.zero_le _

def start (whole : List α) : Fragment α := ⟨whole, 0, zero_within whole⟩

def gone (x : Fragment α) : List α := x.whole.take x.sent

def Done (x : Fragment α) : Prop := x.sent = x.whole.length

/-- Some of the message has gone out, but not all of it. -/
def Cut (x : Fragment α) : Prop := 0 < x.sent ∧ x.sent < x.whole.length

instance (x : Fragment α) : Decidable x.Done := inferInstanceAs (Decidable (_ = _))

instance (x : Fragment α) : Decidable x.Cut := inferInstanceAs (Decidable (_ ∧ _))

def advance (x : Fragment α) (count : Nat) (fits : x.sent + count ≤ x.whole.length) : Fragment α :=
  ⟨x.whole, x.sent + count, fits⟩

@[simp] theorem gone_start (whole : List α) : (start whole).gone = [] := List.take_zero

theorem gone_advance (x : Fragment α) (count : Nat) (fits : x.sent + count ≤ x.whole.length) :
    (x.advance count fits).gone = x.gone ++ (x.whole.drop x.sent).take count := List.take_add

theorem Done.gone {x : Fragment α} (done : x.Done) : x.gone = x.whole := by
  rw [Fragment.gone, done, List.take_length]

theorem Done.not_cut {x : Fragment α} (done : x.Done) : ¬ x.Cut := fun cut => cut.2.ne done

theorem gone_of_not_cut {x : Fragment α} (undone : ¬ x.Done) (whole : ¬ x.Cut) : x.gone = [] := by
  have zero : x.sent = 0 := by
    have := x.within
    unfold Done at undone
    unfold Cut at whole
    omega
  rw [gone, zero, List.take_zero]

/-- After a message that was cut nothing has gone out. -/
def Serial (xs : List (Fragment α)) : Prop := xs.Pairwise fun x y => x.Cut → y.gone = []

def complete (xs : List (Fragment α)) : List (List α) := (xs.filter fun x => x.Done).map whole

theorem complete_cons_done {x : Fragment α} (done : x.Done) (xs : List (Fragment α)) :
    complete (x :: xs) = x.whole :: complete xs := by
  simp [complete, done]

theorem complete_cons_undone {x : Fragment α} (undone : ¬ x.Done) (xs : List (Fragment α)) :
    complete (x :: xs) = complete xs := by
  simp [complete, undone]

theorem complete_append (xs ys : List (Fragment α)) : complete (xs ++ ys) = complete xs ++ complete ys := by
  simp [complete]

theorem complete_of_done {xs : List (Fragment α)} (all : ∀ x ∈ xs, x.Done) : complete xs = xs.map whole := by
  rw [complete, List.filter_eq_self.mpr]
  exact fun x member => decide_eq_true (all x member)

/-- A stream without pieces after a cut is made of whole messages, and of a part of one more
at its end. -/
theorem Serial.stream {xs : List (Fragment α)} (serial : Serial xs) : ∃ rest,
    xs.flatMap gone = (complete xs).flatten ++ rest ∧ (rest = [] ∨ ∃ x ∈ xs, x.Cut ∧ rest = x.gone) := by
  induction xs with
  | nil => exact ⟨[], rfl, .inl rfl⟩
  | cons x xs ih =>
    obtain ⟨after, serial⟩ := List.pairwise_cons.mp serial
    obtain ⟨rest, stream, last⟩ := ih serial
    by_cases cut : x.Cut
    · -- Nothing has gone out behind it, whole or not.
      have silent : xs.flatMap gone = [] := by
        simp only [List.flatMap_eq_nil_iff]
        exact fun y member => after y member cut
      rw [silent] at stream
      have nothing := (List.append_eq_nil_iff.mp stream.symm).1
      refine ⟨x.gone, ?_, .inr ⟨x, List.mem_cons_self, cut, rfl⟩⟩
      have undone : ¬ x.Done := fun done => done.not_cut cut
      rw [List.flatMap_cons, silent, complete_cons_undone undone, nothing, List.append_nil, List.nil_append]
    · have later : rest = [] ∨ ∃ y ∈ x :: xs, y.Cut ∧ rest = y.gone :=
        last.imp_right fun ⟨y, member, found⟩ => ⟨y, List.mem_cons_of_mem _ member, found⟩
      refine ⟨rest, ?_, later⟩
      by_cases done : x.Done
      · rw [List.flatMap_cons, stream, complete_cons_done done, List.flatten_cons, List.append_assoc, done.gone]
      · rw [List.flatMap_cons, stream, complete_cons_undone done, gone_of_not_cut done cut, List.nil_append]

theorem Serial.append {xs : List (Fragment α)} (serial : Serial xs) {x : Fragment α}
    (behind : ∀ y ∈ xs, y.Cut → x.gone = []) : Serial (xs ++ [x]) := by
  refine List.pairwise_append.mpr ⟨serial, List.pairwise_singleton _ _, ?_⟩
  intro y member z last
  rw [List.mem_singleton.mp last]
  exact behind y member

end Fragment
end RmqStream.Library
