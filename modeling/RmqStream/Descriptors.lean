import RmqStream.Connect
import RmqStream.Library.Transition

/-! The class `Socket` of `include/stream/socket.hpp` in any program.

A program has storage for some sockets, and descriptors in plain integers. It may construct,
move, release, close and destroy sockets in any order. It hands a descriptor to a socket only
when it has it in an integer. -/

set_option autoImplicit false

namespace RmqStream
open Library

namespace Socket

/-- Move assignment from another object: the target and the source after it. -/
def assign (k : Kernel) (s other : Socket) : Sys (Socket × Socket) := do
  let _ ← s.close k
  pure (⟨other.release.1⟩, other.release.2)

end Socket

structure SocketProgram (slots : Nat) where
  sockets : Fin slots → Option Socket := fun _ => none
  /-- The descriptors that are held in plain integers. -/
  integers : List Int32 := []
  calls : Trace := []

inductive SocketOp (slots : Nat) where
  | socket (family socktype protocol : Int32)
  | construct (n : Fin slots)
  | own (n : Fin slots) (fd : Int32)
  | moveConstruct (n other : Fin slots)
  | moveAssign (n other : Fin slots)
  | release (n : Fin slots)
  | close (n : Fin slots)
  | destroy (n : Fin slots)
  /-- `::close` on an integer. -/
  | closeInteger (fd : Int32)
  deriving DecidableEq, Repr

namespace SocketProgram
variable {slots : Nat}

def set (p : SocketProgram slots) (n : Fin slots) (value : Option Socket) : SocketProgram slots :=
  { p with sockets := Function.update p.sockets n value }

def closed (k : Kernel) (p : SocketProgram slots) (s : Socket) : SocketProgram slots :=
  { p with calls := ((s.close k).run p.calls).2 }

def step (k : Kernel) (p : SocketProgram slots) : SocketOp slots → Option (SocketProgram slots)
  | .socket family socktype protocol =>
    let call := Syscall.socket family socktype protocol
    let answer := k.answer p.calls call
    some { p with
      calls := p.calls ++ [⟨call, answer⟩]
      integers := if answer.value < 0 then p.integers else answer.value :: p.integers }
  | .construct n => if p.sockets n = none then some (p.set n (some {})) else none
  | .own n fd =>
    if p.sockets n = none ∧ fd ∈ p.integers then
      some { p.set n (some ⟨fd⟩) with integers := p.integers.erase fd }
    else none
  | .moveConstruct n other =>
    match p.sockets n, p.sockets other with
    | none, some source => some ((p.set other (some (Socket.move source).2)).set n (some (Socket.move source).1))
    | _, _ => none
  | .moveAssign n other =>
    match p.sockets n, p.sockets other with
    | some target, some source =>
      -- `this != &other`.
      if n = other then some p
      else
        some { (p.set other (some source.release.2)).set n (some ⟨source.release.1⟩) with
          calls := ((target.assign k source).run p.calls).2 }
    | _, _ => none
  | .release n =>
    match p.sockets n with
    | some s =>
      some { p.set n (some s.release.2) with
        integers := if s.release.1 = -1 then p.integers else s.release.1 :: p.integers }
    | none => none
  | .close n =>
    match p.sockets n with
    | some s => some ((p.closed k s).set n (some {}))
    | none => none
  | .destroy n =>
    match p.sockets n with
    | some s => some ((p.closed k s).set n none)
    | none => none
  | .closeInteger fd =>
    if fd ∈ p.integers then
      some { p with
        calls := p.calls ++ [⟨.close fd, k.answer p.calls (.close fd)⟩]
        integers := p.integers.erase fd }
    else none

end SocketProgram

def socketPrograms (k : Kernel) (slots : Nat) : Machine (SocketProgram slots) (SocketOp slots) where
  init p := p = {}
  step := SocketProgram.step k

/-! ## Who owns which descriptor -/

def owns : Option Socket → List Int32
  | none => []
  | some s => if s.fd = -1 then [] else [s.fd]

@[simp] theorem owns_none : owns none = [] := rfl
@[simp] theorem owns_empty : owns (some {}) = [] := rfl

theorem owns_valid {fd : Int32} (valid : fd ≠ -1) : owns (some ⟨fd⟩) = [fd] := if_neg valid

theorem close_gives {k : Kernel} {s : Socket} {calls : Trace} {opened : List Int32}
    (before : held Called.use calls = some opened) (inside : ∀ fd ∈ owns (some s), fd ∈ opened) :
    ∃ rest, held Called.use ((s.close k).run calls).2 = some rest ∧
      ∀ fd, opened.count fd = rest.count fd + (owns (some s)).count fd := by
  by_cases valid : s.fd = -1
  · have same : s.close k = pure s := if_neg (not_not.mpr valid)
    refine ⟨opened, by rw [same]; exact before, fun fd => ?_⟩
    rw [owns, if_pos valid, List.count_nil, Nat.add_zero]
  · have mem : s.fd ∈ opened := inside s.fd (by simp [owns, valid])
    have closes : s.close k = (do let _ ← k.sys (.close s.fd); pure { s with fd := -1 }) := if_pos valid
    refine ⟨opened.erase s.fd, by rw [closes]; exact held_gives_mem before rfl mem, fun fd => ?_⟩
    rw [owns, if_neg valid]
    by_cases same : s.fd = fd
    · subst same
      have positive := List.count_pos_iff.mpr mem
      rw [List.count_erase_self, List.count_singleton_self]
      omega
    · rw [List.count_erase_of_ne (Ne.symm same), List.count_singleton, if_neg (by simpa using same), Nat.add_zero]

namespace SocketProgram
variable {slots : Nat} {k : Kernel} {p p' : SocketProgram slots}

def owners (p : SocketProgram slots) (fd : Int32) : Nat := ∑ n, (owns (p.sockets n)).count fd

theorem owners_set (p : SocketProgram slots) (n : Fin slots) (value : Option Socket) (fd : Int32) :
    (p.set n value).owners fd + (owns (p.sockets n)).count fd = p.owners fd + (owns value).count fd := by
  unfold owners set
  rw [← Finset.add_sum_erase _ _ (Finset.mem_univ n), ← Finset.add_sum_erase _ (fun m => (owns (p.sockets m)).count fd)
    (Finset.mem_univ n)]
  have others : ∑ m ∈ Finset.univ.erase n, (owns (Function.update p.sockets n value m)).count fd =
      ∑ m ∈ Finset.univ.erase n, (owns (p.sockets m)).count fd := by
    refine Finset.sum_congr rfl fun m member => ?_
    rw [Function.update_of_ne (Finset.ne_of_mem_erase member)]
  simp only [others, Function.update_self]
  omega

theorem owners_of_slot (n : Fin slots) (fd : Int32) : (owns (p.sockets n)).count fd ≤ p.owners fd :=
  Finset.single_le_sum (f := fun m => (owns (p.sockets m)).count fd) (fun _ _ => Nat.zero_le _) (Finset.mem_univ n)

/-- Every open descriptor is owned as often as it was handed out: by slots and integers. -/
structure Accounted (p : SocketProgram slots) (opened : List Int32) : Prop where
  held : held Called.use p.calls = some opened
  owned : ∀ fd, opened.count fd = p.integers.count fd + p.owners fd
  valid : ∀ fd ∈ p.integers, fd ≠ -1

theorem Accounted.moves {opened : List Int32} (accounted : Accounted p opened) (calls : p'.calls = p.calls)
    (same : ∀ fd, p'.integers.count fd + p'.owners fd = p.integers.count fd + p.owners fd)
    (valid : ∀ fd ∈ p'.integers, fd ≠ -1) : Accounted p' opened where
  held := calls ▸ accounted.held
  owned fd := (accounted.owned fd).trans (same fd).symm
  valid := valid

theorem owners_moved {n other : Fin slots} (apart : n ≠ other) {source : Socket} (here : p.sockets other = some source)
    (fd : Int32) : ((p.set other (some source.release.2)).set n (some ⟨source.release.1⟩)).owners fd +
      (owns (p.sockets n)).count fd = p.owners fd := by
  have emptied := owners_set p other (some source.release.2) fd
  have filled := owners_set (p.set other (some source.release.2)) n (some ⟨source.release.1⟩) fd
  have untouched : (p.set other (some source.release.2)).sockets n = p.sockets n := Function.update_of_ne apart _ _
  have left : (owns (some source.release.2)).count fd = 0 := rfl
  have moved : owns (some ⟨source.release.1⟩) = owns (some source) := rfl
  rw [here, left] at emptied
  rw [untouched, moved] at filled
  omega

theorem Accounted.inside {opened : List Int32} (accounted : Accounted p opened) {n : Fin slots} {fd : Int32}
    (own : fd ∈ owns (p.sockets n)) : fd ∈ opened := by
  rw [← List.count_pos_iff, accounted.owned]
  have one := List.count_pos_iff.mpr own
  have bound := owners_of_slot n fd (p := p)
  omega

/-- The kernel does not hand out a descriptor that is open. -/
def Fresh (k : Kernel) : Prop := ∀ trace opened family socktype protocol,
  held Called.use trace = some opened → 0 ≤ (k.answer trace (.socket family socktype protocol)).value →
    (k.answer trace (.socket family socktype protocol)).value ∉ opened

theorem assign_calls (target source : Socket) (calls : Trace) :
    ((target.assign k source).run calls).2 = ((target.close k).run calls).2 := by
  rcases run : (target.close k).run calls with ⟨e | s, after⟩
  · rw [Socket.assign, Fallible.bind_error run]
  · rw [Socket.assign, Fallible.bind_ok run]
    rfl

/-- What a slot gives back when it is closed is owned nowhere else. -/
theorem Accounted.closes {opened : List Int32} (accounted : Accounted p opened) {n : Fin slots} {s : Socket}
    (here : p.sockets n = some s) (calls : p'.calls = ((s.close k).run p.calls).2) (integers : p'.integers = p.integers)
    (given : ∀ fd, p'.owners fd + (owns (some s)).count fd = p.owners fd) :
    ∃ after, Accounted p' after ∧ (Fresh k → opened.Nodup → after.Nodup) := by
  obtain ⟨rest, held, counts⟩ := close_gives (k := k) accounted.held fun fd own =>
    accounted.inside (show fd ∈ owns (p.sockets n) from here ▸ own)
  refine ⟨rest, ⟨calls ▸ held, fun fd => ?_, integers ▸ accounted.valid⟩, fun _ once => ?_⟩
  · have before := accounted.owned fd
    have split := counts fd
    have less := given fd
    rw [integers]
    omega
  · refine List.nodup_iff_count_le_one.mpr fun fd => ?_
    have before := List.nodup_iff_count_le_one.mp once fd
    have split := counts fd
    omega

theorem step_socket {family socktype protocol : Int32} {opened : List Int32} (accounted : Accounted p opened)
    (run : step k p (.socket family socktype protocol) = some p') :
    ∃ after, Accounted p' after ∧ (Fresh k → opened.Nodup → after.Nodup) := by
  cases run
  by_cases failed : (k.answer p.calls (.socket family socktype protocol)).value < 0
  · refine ⟨opened, ⟨held_neither accounted.held (if_pos failed), ?_, ?_⟩, fun _ => id⟩
    · simpa only [if_pos failed, owners] using accounted.owned
    · simpa only [if_pos failed] using accounted.valid
  · refine ⟨_, ⟨held_takes accounted.held (if_neg failed), fun fd => ?_, ?_⟩, fun fresh once => ?_⟩
    · have before := accounted.owned fd
      simp only [if_neg failed, List.count_cons, owners] at before ⊢
      omega
    · simp only [if_neg failed]
      intro fd member
      rcases List.mem_cons.mp member with rfl | old
      · intro invalid
        rw [invalid] at failed
        exact failed (by decide)
      · exact accounted.valid fd old
    · exact List.nodup_cons.mpr ⟨fresh _ _ _ _ _ accounted.held (Int32.not_lt.mp failed), once⟩

theorem step_accounted {op : SocketOp slots} {opened : List Int32} (accounted : Accounted p opened)
    (run : step k p op = some p') :
    ∃ after, Accounted p' after ∧ (Fresh k → opened.Nodup → after.Nodup) := by
  cases op with
  | socket family socktype protocol => exact step_socket accounted run
  | construct n =>
    obtain ⟨free, run⟩ := Option.ite_none_right_eq_some.mp run
    cases run
    refine ⟨opened, accounted.moves rfl (fun fd => ?_) accounted.valid, fun _ => id⟩
    have filled := owners_set p n (some {}) fd
    rw [free, owns_none, owns_empty] at filled
    exact congrArg (p.integers.count fd + ·) filled
  | own n fd =>
    obtain ⟨⟨free, mem⟩, run⟩ := Option.ite_none_right_eq_some.mp run
    cases run
    refine ⟨opened, accounted.moves rfl (fun other => ?_) fun other member => ?_, fun _ => id⟩
    · have filled := owners_set p n (some ⟨fd⟩) other
      have taken : (p.integers.erase fd).count other = _ := List.count_erase
      have positive := List.count_pos_iff.mpr mem
      rw [free, owns_none, owns_valid (accounted.valid fd mem), List.count_nil, List.count_singleton] at filled
      simp only [owners, set] at filled ⊢
      by_cases same : fd = other
      · subst same
        simp only [BEq.rfl, if_true] at filled taken
        omega
      · simp only [beq_iff_eq, same, if_false] at filled taken
        omega
    · exact accounted.valid other (List.mem_of_mem_erase member)
  | moveConstruct n other =>
    simp only [step] at run
    split at run
    next source free here =>
      cases run
      have apart : n ≠ other := by
        rintro rfl
        rw [free] at here
        cases here
      refine ⟨opened, accounted.moves rfl (fun fd => ?_) accounted.valid, fun _ => id⟩
      have moved := owners_moved apart here fd
      rw [free, owns_none, List.count_nil, Nat.add_zero] at moved
      exact congrArg (p.integers.count fd + ·) moved
    · cases run
  | moveAssign n other =>
    simp only [step] at run
    split at run
    next target source there here =>
      split at run
      · cases run
        exact ⟨opened, accounted, fun _ => id⟩
      next apart =>
        cases run
        refine accounted.closes there (assign_calls target source p.calls) rfl fun fd => ?_
        rw [← there]
        exact owners_moved apart here fd
    · cases run
  | release n =>
    simp only [step] at run
    split at run
    next s here =>
      cases run
      refine ⟨opened, accounted.moves rfl (fun fd => ?_) ?_, fun _ => id⟩
      · have emptied := owners_set p n (some s.release.2) fd
        have left : (owns (some s.release.2)).count fd = 0 := rfl
        rw [here, left] at emptied
        by_cases valid : s.release.1 = -1
        · rw [owns, if_pos (show s.fd = -1 from valid), List.count_nil] at emptied
          simp only [if_pos valid]
          exact congrArg (p.integers.count fd + ·) emptied
        · rw [owns, if_neg (show ¬ s.fd = -1 from valid), List.count_singleton] at emptied
          simp only [if_neg valid]
          simp only [List.count_cons, owners, Socket.release] at emptied ⊢
          omega
      · by_cases valid : s.release.1 = -1
        · simpa only [if_pos valid] using accounted.valid
        · simp only [if_neg valid]
          intro fd member
          rcases List.mem_cons.mp member with rfl | old
          · exact valid
          · exact accounted.valid fd old
    · cases run
  | close n =>
    simp only [step] at run
    split at run
    next s here =>
      cases run
      refine accounted.closes here rfl rfl fun fd => ?_
      rw [← here]
      exact owners_set (p.closed k s) n (some {}) fd
    · cases run
  | destroy n =>
    simp only [step] at run
    split at run
    next s here =>
      cases run
      refine accounted.closes here rfl rfl fun fd => ?_
      rw [← here]
      exact owners_set (p.closed k s) n none fd
    · cases run
  | closeInteger fd =>
    obtain ⟨mem, run⟩ := Option.ite_none_right_eq_some.mp run
    cases run
    have positive := List.count_pos_iff.mpr mem
    have inside : fd ∈ opened := by
      rw [← List.count_pos_iff, accounted.owned]
      omega
    refine ⟨_, ⟨held_gives_mem accounted.held rfl inside, fun other => ?_, fun other member => ?_⟩, fun _ once =>
      once.erase fd⟩
    · have before := accounted.owned other
      simp only [List.count_erase, owners] at before ⊢
      by_cases same : fd = other
      · subst same
        simp only [BEq.rfl, if_true]
        omega
      · simp only [beq_iff_eq, same, if_false]
        omega
    · exact accounted.valid other (List.mem_of_mem_erase member)

end SocketProgram

structure OwnedOnce {slots : Nat} (k : Kernel) (p : SocketProgram slots) : Prop where
  /-- No `close` was of a descriptor that was not open, and each open descriptor is owned. -/
  accounted : ∃ opened, p.Accounted opened
  closed_once : ∀ fd, taken Called.use fd p.calls = given Called.use fd p.calls + p.integers.count fd + p.owners fd
  /-- No two sockets own the same one, and none owns one that is also in an integer. -/
  apart : SocketProgram.Fresh k → ∀ fd, p.integers.count fd + p.owners fd ≤ 1
  /-- Nothing is left open when all sockets were destroyed. -/
  gone : p.integers = [] → (∀ n, p.sockets n = none) → held Called.use p.calls = some []

theorem sockets_own_once {slots : Nat} {k : Kernel} {p : SocketProgram slots}
    (reach : (socketPrograms k slots).Reach Machine.anyStep p) : OwnedOnce k p := by
  obtain ⟨opened, accounted, once⟩ := reach.invariant
    (fun p => ∃ opened, p.Accounted opened ∧ (SocketProgram.Fresh k → opened.Nodup))
    (by
      rintro _ rfl
      exact ⟨[], ⟨rfl, by simp [SocketProgram.owners], by simp⟩, fun _ => List.nodup_nil⟩)
    (by
      rintro p op p' _ ⟨opened, accounted, once⟩ _ run
      obtain ⟨after, still, kept⟩ := SocketProgram.step_accounted accounted run
      exact ⟨after, still, fun fresh => kept fresh (once fresh)⟩)
  constructor
  case accounted => exact ⟨opened, accounted⟩
  case closed_once =>
    intro fd
    rw [taken_eq_given accounted.held, accounted.owned, Nat.add_assoc]
  case apart =>
    intro fresh fd
    rw [← accounted.owned]
    exact List.nodup_iff_count_le_one.mp (once fresh) fd
  case gone =>
    intro integers slots
    have nothing : opened = [] := by
      rw [List.eq_nil_iff_forall_not_mem]
      intro fd
      rw [← List.count_eq_zero, accounted.owned, integers]
      simp [SocketProgram.owners, slots]
    exact nothing ▸ accounted.held

def lowestFree : Kernel where
  nonblock := 2048
  inProgress := 115
  answer trace
    | .socket _ _ _ =>
      ⟨((held Called.use trace).bind fun opened =>
        ((List.range 16).map Int32.ofNat).find? fun fd => decide (fd ∉ opened)).getD (-1), 0, 0⟩
    | _ => ⟨0, 0, 0⟩

theorem lowestFree_fresh : SocketProgram.Fresh lowestFree := by
  intro trace opened family socktype protocol before valid
  simp only [lowestFree, before, Option.bind_some] at valid ⊢
  cases found : ((List.range 16).map Int32.ofNat).find? fun fd => decide (fd ∉ opened) with
  | none =>
    rw [found] at valid
    exact absurd valid (by decide)
  | some fd => simpa using List.find?_some found

/-- A descriptor is moved twice, once over one that is open, and released in the end. -/
def movesAround : List (SocketOp 3) :=
  [.socket 2 1 6, .own 0 0, .socket 2 1 6, .own 1 1, .moveAssign 0 1, .moveAssign 0 0, .moveConstruct 2 0, .release 2,
    .closeInteger 1, .close 2, .destroy 0, .destroy 1, .destroy 2]

theorem sockets_own_once_moves : ∃ p, (socketPrograms lowestFree 3).Reach Machine.anyStep p ∧
    p.calls.map Called.use = [.takes 0, .takes 1, .gives 0, .gives 1] ∧ OwnedOnce lowestFree p ∧
    ∀ fd, p.integers.count fd + p.owners fd ≤ 1 := by
  have ran : ((socketPrograms lowestFree 3).exec Machine.anyStep {} movesAround).any (fun p =>
      p.calls.map Called.use = [.takes 0, .takes 1, .gives 0, .gives 1]) = true := by decide +kernel
  obtain ⟨p, reach, uses⟩ := Machine.reach_of_exec rfl ran
  have owned := sockets_own_once reach
  exact ⟨p, reach, of_decide_eq_true uses, owned, owned.apart lowestFree_fresh⟩

end RmqStream
