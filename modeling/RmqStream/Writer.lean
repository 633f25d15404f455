import RmqStream.Library.Fragment
import RmqStream.Library.Transition
import RmqStream.Socket

/-! `SocketWriter::write_all` of `src/socket.cpp` under concurrent callers.

A call takes the lock, sends until its frame is out or a `send` fails, and lets go of the
lock as it returns. Nothing remembers that a frame was cut: the next caller sends its own
frame behind the part that went out. -/

set_option autoImplicit false

namespace RmqStream
open Library

inductive SendOutcome where
  | accepted (count : Nat)
  | interrupted
  | failed (strerror : Bytes)
  | closed
  deriving DecidableEq, Repr

def sendFailed (strerror : Bytes) : StreamError := ⟨.ioError, text "send: " ++ strerror, none⟩
def closedDuringSend : StreamError := ⟨.connectionClosed, text "connection closed during send", none⟩

/-- One call of `write_all`. Its frame and `sent` are a fragment. -/
inductive WriteCall where
  | idle
  | waiting (frame : Bytes)
  | sending (part : Fragment UInt8)
  | returned (part : Fragment UInt8) (result : Result Unit)
  deriving DecidableEq, Repr

def WriteCall.part : WriteCall → Option (Fragment UInt8)
  | .sending part => some part
  | .returned part _ => some part
  | _ => none

def WriteCall.failedMidway : WriteCall → Bool
  | .returned part (.error _) => 0 < part.sent
  | _ => false

structure SocketWriter where
  calls : Nat → WriteCall := fun _ => .idle
  mu : Option Nat := none
  /-- The bytes the socket has accepted. -/
  wire : Bytes := []
  /-- The calls in the order in which they got the lock. -/
  order : List Nat := []

inductive WriteAction where
  | call (n : Nat) (frame : Bytes)
  | lock (n : Nat)
  | send (n : Nat) (outcome : SendOutcome)
  | finish (n : Nat)
  deriving DecidableEq, Repr

def WriteAction.isInterrupt : WriteAction → Bool
  | .send _ .interrupted => true
  | _ => false

namespace SocketWriter

def setCall (s : SocketWriter) (n : Nat) (call : WriteCall) : SocketWriter :=
  { s with calls := Function.update s.calls n call }

/-- `write_all` returns, and the lock is released. -/
def ret (s : SocketWriter) (n : Nat) (part : Fragment UInt8) (result : Result Unit) : SocketWriter :=
  { s.setCall n (.returned part result) with mu := none }

def step (s : SocketWriter) : WriteAction → Option SocketWriter
  | .call n frame => if s.calls n = .idle then some (s.setCall n (.waiting frame)) else none
  | .lock n =>
    match s.calls n, s.mu with
    | .waiting frame, none =>
      some { s.setCall n (.sending (.start frame)) with mu := some n, order := s.order ++ [n] }
    | _, _ => none
  | .send n outcome =>
    match s.calls n with
    | .sending part =>
      if part.sent < part.whole.length then
        match outcome with
        | .accepted count =>
          -- `send` takes at least one byte and no more than it is given.
          if fits : 0 < count ∧ part.sent + count ≤ part.whole.length then
            some { s.setCall n (.sending (part.advance count fits.2)) with
              wire := s.wire ++ (part.whole.drop part.sent).take count }
          else none
        | .interrupted => some s
        | .failed strerror => some (s.ret n part (.error (sendFailed strerror)))
        | .closed => some (s.ret n part (.error closedDuringSend))
      else none
    | _ => none
  | .finish n =>
    match s.calls n with
    | .sending part => if part.sent < part.whole.length then none else some (s.ret n part (.ok ()))
    | _ => none

/-- The calls that have had the lock, in that order, with what they have sent. -/
def fragments (s : SocketWriter) : List (Fragment UInt8) := s.order.filterMap fun n => (s.calls n).part

def torn (s : SocketWriter) : Bool := s.order.any fun n => (s.calls n).failedMidway

def SendsBehindWhole (s : SocketWriter) : WriteAction → Prop
  | .send _ (.accepted _) => s.torn = false
  | _ => True

instance (s : SocketWriter) : (a : WriteAction) → Decidable (s.SendsBehindWhole a)
  | .send _ (.accepted _) => inferInstanceAs (Decidable (_ = _))
  | .send _ .interrupted => .isTrue trivial
  | .send _ (.failed _) => .isTrue trivial
  | .send _ .closed => .isTrue trivial
  | .call _ _ => .isTrue trivial
  | .lock _ => .isTrue trivial
  | .finish _ => .isTrue trivial

inductive Move (s : SocketWriter) : WriteAction → SocketWriter → Prop where
  | call {n : Nat} {frame : Bytes} (here : s.calls n = .idle) :
    Move s (.call n frame) (s.setCall n (.waiting frame))
  | lock {n : Nat} {frame : Bytes} (here : s.calls n = .waiting frame) (free : s.mu = none) :
    Move s (.lock n) { s.setCall n (.sending (.start frame)) with mu := some n, order := s.order ++ [n] }
  | accepted {n count : Nat} {part : Fragment UInt8} (here : s.calls n = .sending part) (some : 0 < count)
      (fits : part.sent + count ≤ part.whole.length) :
    Move s (.send n (.accepted count)) { s.setCall n (.sending (part.advance count fits)) with
      wire := s.wire ++ (part.whole.drop part.sent).take count }
  | interrupted {n : Nat} {part : Fragment UInt8} (here : s.calls n = .sending part) :
    Move s (.send n .interrupted) s
  | failed {n : Nat} {part : Fragment UInt8} {outcome : SendOutcome} {e : StreamError}
      (here : s.calls n = .sending part) (more : part.sent < part.whole.length) (stops : outcome ≠ .interrupted) :
    Move s (.send n outcome) (s.ret n part (.error e))
  | finish {n : Nat} {part : Fragment UInt8} (here : s.calls n = .sending part) (done : part.Done) :
    Move s (.finish n) (s.ret n part (.ok ()))

variable {s s' : SocketWriter} {a : WriteAction}

theorem step_move (run : s.step a = some s') : Move s a s' := by
  revert run
  fun_cases step s a <;> intro run <;> cases run
  case case1.refl here => exact .call here
  case case3.refl free here => exact .lock here free
  case case5.refl here _ _ fits => exact .accepted here fits.1 fits.2
  case case7.refl here _ => exact .interrupted here
  case case8.refl here more _ => exact .failed here more (by simp)
  case case9.refl here more => exact .failed here more (by simp)
  case case13.refl here all => exact .finish here (Nat.le_antisymm (Fragment.within _) (Nat.not_lt.mp all))

/-! ## The wire in every run -/

/-- The lock keeps the calls apart: what is on the wire is what each of them has sent, in
the order in which they got it. -/
structure Locked (s : SocketWriter) : Prop where
  holder : ∀ n part, s.calls n = .sending part → s.mu = some n
  last : ∀ n, s.mu = some n → ∃ before, s.order = before ++ [n]
  entered : ∀ n, n ∈ s.order ↔ (s.calls n).part.isSome = true
  once : s.order.Nodup
  ok : ∀ n part, s.calls n = .returned part (.ok ()) → part.Done
  wire : s.wire = s.fragments.flatMap Fragment.gone

theorem filterMap_update {before : List Nat} {n : Nat} (absent : n ∉ before) (calls : Nat → WriteCall) (c : WriteCall) :
    before.filterMap (fun m => (Function.update calls n c m).part) = before.filterMap fun m => (calls m).part := by
  refine List.filterMap_congr fun m member => ?_
  have other : m ≠ n := fun same => absent (same ▸ member)
  rw [Function.update_of_ne other]

theorem Locked.absent {n : Nat} (locked : Locked s) (none : (s.calls n).part = none) : n ∉ s.order := by
  rw [locked.entered, none]
  exact Bool.false_ne_true

/-- The call that holds the lock is the last one, and its number occurs once. -/
theorem Locked.split {n : Nat} {part : Fragment UInt8} (locked : Locked s) (here : s.calls n = .sending part) :
    ∃ before, s.order = before ++ [n] ∧ n ∉ before ∧
      s.fragments = (before.filterMap fun m => (s.calls m).part) ++ [part] := by
  obtain ⟨before, order⟩ := locked.last n (locked.holder n part here)
  have once := locked.once
  rw [order] at once
  refine ⟨before, order, fun member => ?_, ?_⟩
  · exact List.disjoint_of_nodup_append once member List.mem_cons_self
  · simp [fragments, order, here, WriteCall.part]

theorem Locked.hold {n : Nat} {part next : Fragment UInt8} {c : WriteCall} {mu : Option Nat} {more : Bytes}
    (locked : Locked s) (here : s.calls n = .sending part) (after : c.part = some next)
    (gone : next.gone = part.gone ++ more) (ok : ∀ p, c = .returned p (.ok ()) → p.Done)
    (holds : ∀ p, c = .sending p → mu = some n) (released : ∀ m, mu = some m → m = n) :
    Locked { s with calls := Function.update s.calls n c, mu := mu, wire := s.wire ++ more } := by
  obtain ⟨before, order, absent, split⟩ := locked.split here
  constructor
  case holder =>
    intro m p sending
    by_cases same : m = n
    · subst same
      exact holds p (by simpa using sending)
    · simp only [Function.update_of_ne same] at sending
      -- Two senders would both hold the lock.
      have mine := (locked.holder n part here).symm.trans (locked.holder m p sending)
      exact absurd (Option.some.inj mine).symm same
  case last =>
    intro m locker
    rw [released m locker]
    exact ⟨before, order⟩
  case entered =>
    intro m
    by_cases same : m = n
    · subst same
      simp [order, after]
    · simp only [Function.update_of_ne same]
      exact locked.entered m
  case once => exact locked.once
  case ok =>
    intro m p returned
    by_cases same : m = n
    · subst same
      exact ok p (by simpa using returned)
    · simp only [Function.update_of_ne same] at returned
      exact locked.ok m p returned
  case wire =>
    -- Its fragment is the last one, so the wire grows where the fragment does.
    have moved : fragments { s with calls := Function.update s.calls n c, mu := mu, wire := s.wire ++ more } =
        (before.filterMap fun m => (s.calls m).part) ++ [next] := by
      simp only [fragments, order, List.filterMap_append, filterMap_update absent]
      simp [after]
    rw [moved, List.flatMap_append, locked.wire, split, List.flatMap_append]
    simp [gone]

theorem Locked.ret {n : Nat} {part : Fragment UInt8} {result : Result Unit} (locked : Locked s)
    (here : s.calls n = .sending part) (ok : result = .ok () → part.Done) : Locked (s.ret n part result) := by
  have same : s.ret n part result =
      { s with calls := Function.update s.calls n (.returned part result), mu := none, wire := s.wire ++ [] } := by
    rw [List.append_nil]
    rfl
  rw [same]
  refine locked.hold here rfl (List.append_nil _).symm ?_ (by simp) (by simp)
  rintro p ⟨⟩
  exact ok rfl

theorem Locked.wait {n : Nat} {frame : Bytes} (locked : Locked s) (here : s.calls n = .idle) :
    Locked (s.setCall n (.waiting frame)) := by
  have absent := locked.absent (by rw [here]; rfl)
  constructor
  case holder =>
    intro m part sending
    by_cases same : m = n
    · simp [same, setCall] at sending
    · simp only [setCall, Function.update_of_ne same] at sending
      exact locked.holder m part sending
  case last => exact locked.last
  case entered =>
    intro m
    by_cases same : m = n
    · simp [same, setCall, absent, WriteCall.part]
    · simp only [setCall, Function.update_of_ne same]
      exact locked.entered m
  case once => exact locked.once
  case ok =>
    intro m part returned
    by_cases same : m = n
    · simp [same, setCall] at returned
    · simp only [setCall, Function.update_of_ne same] at returned
      exact locked.ok m part returned
  case wire =>
    simp only [fragments, setCall, filterMap_update absent]
    exact locked.wire

theorem fragments_lock {n : Nat} {frame : Bytes} (absent : n ∉ s.order) : fragments
    { s.setCall n (.sending (.start frame)) with mu := some n, order := s.order ++ [n] } =
      s.fragments ++ [.start frame] := by
  simp only [fragments, setCall, List.filterMap_append, filterMap_update absent]
  simp [WriteCall.part]

theorem Locked.lock {n : Nat} {frame : Bytes} (locked : Locked s) (here : s.calls n = .waiting frame)
    (free : s.mu = none) :
    Locked { s.setCall n (.sending (.start frame)) with mu := some n, order := s.order ++ [n] } := by
  have absent := locked.absent (by rw [here]; rfl)
  constructor
  case holder =>
    intro m part sending
    by_cases same : m = n
    · rw [same]
    · -- Nobody else is sending while the lock is free.
      simp only [setCall, Function.update_of_ne same] at sending
      have held := locked.holder m part sending
      rw [free] at held
      cases held
  case last =>
    rintro m ⟨⟩
    exact ⟨s.order, rfl⟩
  case entered =>
    intro m
    by_cases same : m = n
    · simp [same, setCall, WriteCall.part]
    · simp only [setCall, Function.update_of_ne same, List.mem_append, List.mem_singleton, same, or_false]
      exact locked.entered m
  case once => exact locked.once.append (List.nodup_singleton n) (List.disjoint_singleton.mpr absent)
  case ok =>
    intro m part returned
    by_cases same : m = n
    · simp [same, setCall] at returned
    · simp only [setCall, Function.update_of_ne same] at returned
      exact locked.ok m part returned
  case wire =>
    rw [fragments_lock absent, List.flatMap_append]
    simp [setCall, locked.wire]

theorem step_locked (locked : Locked s) (run : s.step a = some s') : Locked s' := by
  cases step_move run with
  | call here => exact locked.wait here
  | lock here free => exact locked.lock here free
  | @accepted n count part here _ fits =>
    refine locked.hold here rfl (part.gone_advance count fits) (by simp) (fun _ _ => ?_) (fun m mine => ?_)
    · exact locked.holder n part here
    · exact Option.some.inj (mine.symm.trans (locked.holder n part here))
  | interrupted => exact locked
  | failed here => exact locked.ret here (by simp)
  | finish here done => exact locked.ret here fun _ => done

/-! ## Frames that are not cut -/

theorem fragments_ret {n : Nat} {part : Fragment UInt8} {result : Result Unit} (locked : Locked s)
    (here : s.calls n = .sending part) : (s.ret n part result).fragments = s.fragments := by
  obtain ⟨before, order, absent, split⟩ := locked.split here
  rw [split]
  simp only [fragments, SocketWriter.ret, setCall, order, List.filterMap_append, filterMap_update absent]
  simp [WriteCall.part]

theorem earlier_not_cut {n : Nat} {part : Fragment UInt8} {before : List Nat} (locked : Locked s)
    (here : s.calls n = .sending part) (order : s.order = before ++ [n]) (absent : n ∉ before)
    (whole : s.torn = false) : ∀ x ∈ before.filterMap (fun m => (s.calls m).part), ¬ x.Cut := by
  intro x member cut
  obtain ⟨m, earlier, found⟩ := List.mem_filterMap.mp member
  have intact := List.any_eq_false.mp whole m (by rw [order]; exact List.mem_append_left _ earlier)
  cases call : s.calls m with
  | idle | waiting =>
    rw [call] at found
    cases found
  | sending other =>
    have mine := (locked.holder n part here).symm.trans (locked.holder m other call)
    exact absent (Option.some.inj mine ▸ earlier)
  | returned other result =>
    rw [call] at found intact
    cases found
    cases result with
    | ok => exact (locked.ok m x call).not_cut cut
    | error e => exact intact (decide_eq_true cut.1)

theorem step_serial (locked : Locked s) (serial : Fragment.Serial s.fragments) (behind : s.SendsBehindWhole a)
    (run : s.step a = some s') : Fragment.Serial s'.fragments := by
  cases step_move run with
  | @call n frame here =>
    have absent := locked.absent (by rw [here]; rfl)
    simp only [fragments, setCall, filterMap_update absent]
    exact serial
  | @lock n frame here =>
    rw [fragments_lock (locked.absent (by rw [here]; rfl))]
    exact serial.append fun _ _ _ => Fragment.gone_start frame
  | @accepted n count part here _ fits =>
    obtain ⟨before, order, absent, split⟩ := locked.split here
    have intact := earlier_not_cut locked here order absent behind
    rw [split] at serial
    have moved : fragments { s.setCall n (.sending (part.advance count fits)) with
        wire := s.wire ++ (part.whole.drop part.sent).take count } =
          (before.filterMap fun m => (s.calls m).part) ++ [part.advance count fits] := by
      simp only [fragments, setCall, order, List.filterMap_append, filterMap_update absent]
      simp [WriteCall.part]
    rw [moved]
    have earlier : Fragment.Serial (before.filterMap fun m => (s.calls m).part) := (List.pairwise_append.mp serial).1
    exact earlier.append fun y member cut => absurd cut (intact y member)
  | interrupted => exact serial
  | failed here | finish here =>
    rw [fragments_ret locked here]
    exact serial

/-- `EINTR` makes the loop call `send` again, with nothing changed. -/
theorem step_interrupted (interrupt : a.isInterrupt = true) (run : s.step a = some s') : s' = s := by
  cases step_move run with
  | interrupted => rfl
  | @failed n part outcome e here more stops =>
    cases outcome with
    | interrupted => exact absurd rfl stops
    | _ => cases interrupt
  | _ => cases interrupt

end SocketWriter

def socketWriter : Machine SocketWriter WriteAction where
  init s := s = {}
  step := SocketWriter.step

theorem reach_locked {allowed : SocketWriter → WriteAction → Prop} {s : SocketWriter}
    (reach : socketWriter.Reach allowed s) : s.Locked := by
  refine reach.invariant SocketWriter.Locked ?_ ?_
  · rintro _ rfl
    exact ⟨by simp, by simp, by simp [WriteCall.part], List.nodup_nil, by simp, rfl⟩
  · intro s a s' _ locked _ run
    exact SocketWriter.step_locked locked run

theorem reach_serial {s : SocketWriter} (reach : socketWriter.Reach SocketWriter.SendsBehindWhole s) :
    Fragment.Serial s.fragments := by
  refine reach.invariant (fun s => Fragment.Serial s.fragments) ?_ ?_
  · rintro _ rfl
    exact List.Pairwise.nil
  · intro s a s' before serial behind run
    exact SocketWriter.step_serial (reach_locked before) serial behind run

/-- The wire is made of whole frames in lock order and of a part of one more at its end,
and who has reported success has sent its frame whole and once. -/
structure NeverTorn (s : SocketWriter) : Prop where
  stream : ∃ rest, s.wire = (Fragment.complete s.fragments).flatten ++ rest ∧
    (rest = [] ∨ ∃ x ∈ s.fragments, x.Cut ∧ rest = x.gone)
  whole : ∀ n part, s.calls n = .returned part (.ok ()) → part.Done ∧ s.order.count n = 1

/-- Frames never tear in the runs in which no byte is accepted after a call has failed with
part of its frame sent; interrupted sends can be left out of every run. -/
theorem frames_never_torn {s : SocketWriter} (reach : socketWriter.Reach SocketWriter.SendsBehindWhole s) :
    NeverTorn s ∧ ∀ run s', socketWriter.exec Machine.anyStep s run = some s' →
      socketWriter.exec Machine.anyStep s (run.filter fun a => !a.isInterrupt) = some s' := by
  have locked := reach_locked reach
  refine ⟨⟨?_, fun n part returned => ⟨locked.ok n part returned, ?_⟩⟩, ?_⟩
  · rw [locked.wire]
    exact (reach_serial reach).stream
  · refine List.count_eq_one_of_mem locked.once ((locked.entered n).mpr ?_)
    rw [returned]
    rfl
  · intro run s' ran
    exact Machine.exec_filter (fun s a s' => SocketWriter.step_interrupted) ran

/-- A caller asks to write, gets the lock and sends in two pieces, interrupted in between. -/
def writeInterrupted (n : Nat) (frame : Bytes) : List WriteAction :=
  [.call n frame, .lock n, .send n (.accepted 1), .send n .interrupted, .send n (.accepted (frame.length - 1)),
    .finish n]

/-- Two frames go out, and the third is cut. -/
theorem frames_never_torn_cut : ∃ s, socketWriter.Reach SocketWriter.SendsBehindWhole s ∧
    s.wire = [1, 2, 3, 4, 5] ∧ NeverTorn s := by
  have ran : (socketWriter.exec SocketWriter.SendsBehindWhole {} (writeInterrupted 0 [1, 2] ++
      .call 1 [5, 6] :: writeInterrupted 2 [3, 4] ++ [.lock 1, .send 1 (.accepted 1),
        .send 1 (.failed (text "Broken pipe"))])).any (fun s => s.wire = [1, 2, 3, 4, 5]) = true := by
    decide +kernel
  obtain ⟨s, reach, holds⟩ := Machine.reach_of_exec rfl ran
  exact ⟨s, reach, of_decide_eq_true holds, (frames_never_torn reach).1⟩

/-- A `send` fails with one of two bytes out, and the next caller succeeds. -/
theorem frame_torn_after_failure :
    ¬ ∀ s : SocketWriter, socketWriter.Reach Machine.anyStep s → NeverTorn s := by
  intro claimed
  have ran : (socketWriter.exec Machine.anyStep {} ([.call 0 [1, 2], .lock 0, .send 0 (.accepted 1),
      .send 0 (.failed (text "No buffer space available"))] ++ writeInterrupted 1 [3, 4])).any (fun s =>
        s.wire = [1, 3, 4] ∧ s.fragments = [⟨[1, 2], 1, by decide⟩, ⟨[3, 4], 2, by decide⟩]) = true := by
    decide +kernel
  obtain ⟨s, reach, holds⟩ := Machine.reach_of_exec rfl ran
  obtain ⟨wire, fragments⟩ := of_decide_eq_true holds
  obtain ⟨rest, stream, _⟩ := (claimed s reach).stream
  rw [wire, fragments] at stream
  cases stream

end RmqStream
