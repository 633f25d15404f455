import RmqStream.Client.Watchdog
import RmqStream.Library.Fairness

/-! Runs of the client that do not end, and what the threads come to in them.

The clock goes on and no thread is kept for ever from the steps that it makes by itself. That a
system call returns is another matter: `send` has no timeout, `write_all` waits for its mutex
too, and `recv` has a timeout only with a heartbeat. Where a result needs it, it says so. -/

set_option autoImplicit false

namespace RmqStream
open Library

namespace Action

def OfCall (n : Nat) : Action → Prop
  | .call m _ => m = n
  | _ => False

def OfControl : Action → Prop
  | .control _ => True
  | _ => False

def OfIo : Action → Prop
  | .io _ => True
  | _ => False

def OfHeartbeat : Action → Prop
  | .heartbeat _ => True
  | _ => False

def begins : Action → Bool
  | .invoke _ _ | .close _ => true
  | _ => false

end Action

/-- The outcome of a system call is not up to the thread. -/
def Input.own : Input → Bool
  | .none | .pick _ => true
  | _ => false

def Action.own : Action → Bool
  | .call _ input | .control input | .io input | .heartbeat input => input.own
  | _ => true

variable {cfg : ConnectionConfig} {run : (client cfg).Endless}

def TimePasses (run : (client cfg).Endless) : Prop := ∀ t : Int, ∃ i, t ≤ (run.state i).now

/-- The thread is not kept from moving, wherever it can, system calls included. -/
structure ThreadsFair (run : (client cfg).Endless) : Prop where
  control : run.Fair Action.OfControl
  io : run.Fair Action.OfIo
  heartbeat : run.Fair Action.OfHeartbeat

/-- The thread is not kept from its own steps. It has none while it is in a system call. -/
def Scheduled (run : (client cfg).Endless) (thread : Action → Prop) : Prop :=
  run.Fair fun a => thread a ∧ a.own = true

/-- A system call that was entered returns. -/
def Returns (run : (client cfg).Endless) (inside : Client → Prop) : Prop := run.LeadsTo inside fun s => ¬ inside s

/-- The call is in `write_all`: it waits for the mutex, or for the peer to take the bytes. -/
def Client.InWrite (n : Nat) (s : Client) : Prop := ∃ op cid, s.calls n = .write op cid

structure ThreadsScheduled (run : (client cfg).Endless) : Prop where
  control : Scheduled run Action.OfControl
  io : Scheduled run Action.OfIo
  heartbeat : Scheduled run Action.OfHeartbeat

/-- What the control thread and the two that it starts wait for outside comes about. -/
structure SystemCallsReturn (run : (client cfg).Endless) : Prop where
  tcp : Returns run fun s => s.control = .connectTcp
  /-- Each read and write of `run_handshake` returns, and the server ends its challenges. -/
  handshake : Returns run fun s => s.control = .connectHandshake
  closeWrite : Returns run fun s => ∃ n cid, s.control = .closeWrite n cid
  recv : Returns run fun s => s.io = .reading
  heartbeatWrite : Returns run fun s => ∃ now, s.heartbeat = .write now

theorem TimePasses.later (time : TimePasses run) (i : Nat) (t : Int) :
    ∃ j ≥ i, ∀ k ≥ j, t ≤ (run.state k).now := by
  obtain ⟨j, passed⟩ := time t
  refine ⟨max i j, le_max_left i j, fun k after => ?_⟩
  have keep : ∀ s a s', (client cfg).Reach Machine.anyStep s → t ≤ s.now → (client cfg).step s a = some s' →
      t ≤ s'.now := fun s a s' _ before move => before.trans (Client.step_clock move)
  exact run.lasts keep passed ((le_max_right i j).trans after)

/-! ## Runs that come to rest -/

def CallPc.busy : CallPc → Bool
  | .idle | .close | .returned _ _ | .threw _ => false
  | _ => true

def ControlPc.busy : ControlPc → Bool
  | .idle | .destroyed => false
  | _ => true

namespace Client
variable {s s' : Client} {input : Input}

def threadsGone (s : Client) : Prop :=
  (s.io = .finished ∨ s.io = .notStarted) ∧ (s.heartbeat = .finished ∨ s.heartbeat = .notStarted)

theorem ioStep_running (run : ioStep s input = some s') : ¬ (s.io = .finished ∨ s.io = .notStarted) := by
  cases ioStep_move run <;> simp_all

theorem heartbeatStep_running (run : heartbeatStep s input = some s') :
    ¬ (s.heartbeat = .finished ∨ s.heartbeat = .notStarted) := by
  cases heartbeatStep_move run <;> simp_all

/-- Neither the control thread nor those that it starts have anything to do. -/
def atRest (s : Client) : Prop := s.threadsGone ∧ s.control.busy = false

instance (s : Client) : Decidable s.atRest := inferInstanceAs (Decidable ((_ ∧ _) ∧ _))

theorem callStep_underway {n : Nat} (run : callStep cfg s n input = some s') : (s.calls n).busy = true := by
  cases callStep_move run <;> simp_all [CallPc.busy]

theorem step_idle {a : Action} (quiet : a.begins = false) (idle : ∀ n, s.calls n = .idle)
    (run : step cfg s a = some s') : ∀ n, s'.calls n = .idle := by
  cases a with
  | tick | onUnexpectedClose =>
    cases run
    exact idle
  | invoke | close => cases quiet
  | connect => obtain ⟨_, ⟨e, rfl⟩ | rfl⟩ := step_connect run <;> exact idle
  | destroy =>
    obtain ⟨_, rfl⟩ := step_destroy run
    exact idle
  | call n input => simpa [idle n, CallPc.busy] using callStep_underway run
  | control input =>
    obtain ⟨_, _, _, _, _, _, _, _, _, _, _, _, _, _, _, rfl⟩ := controlStep_writes run
    exact idle
  | io input =>
    obtain ⟨_, _, _, _, _, _, _, _, _, rfl⟩ := ioStep_writes run
    exact idle
  | heartbeat input =>
    obtain ⟨_, _, _, rfl⟩ := heartbeatStep_writes run
    exact idle

theorem exec_idle {labels : List Action} (quiet : ∀ a ∈ labels, a.begins = false) (idle : ∀ n, s.calls n = .idle)
    (ran : (client cfg).exec Machine.anyStep s labels = some s') : ∀ n, s'.calls n = .idle := by
  induction labels generalizing s with
  | nil =>
    cases ran
    exact idle
  | cons a labels ih =>
    obtain ⟨middle, move, rest⟩ := Option.bind_eq_some_iff.mp ran
    obtain ⟨first, others⟩ := List.forall_mem_cons.mp quiet
    exact ih others (step_idle first idle move) rest

theorem controlStep_underway (run : controlStep cfg s input = some s') : s.control.busy = true := by
  cases controlStep_move run <;> simp_all [ControlPc.busy]

end Client

def Rests (run : (client cfg).Endless) (s : Client) : Prop :=
  ∃ n, ∀ i : Nat, run.state (n + i) = { s with now := s.now + i }

namespace Rests
variable {s : Client}

theorem time (rests : Rests run s) : TimePasses run := by
  obtain ⟨n, rest⟩ := rests
  intro t
  refine ⟨n + (t - s.now).toNat, ?_⟩
  rw [rest]
  have bound := Int.self_le_toNat (t - s.now)
  simp only
  omega

theorem returns {inside : Client → Prop} (rests : Rests run s) (out : ∀ i : Nat, ¬ inside { s with now := s.now + i }) :
    Returns run inside := by
  obtain ⟨n, rest⟩ := rests
  intro i _
  refine ⟨n + i, Nat.le_add_left i n, ?_⟩
  rw [rest]
  exact out i

theorem fair (rests : Rests run s) (thread : Action → Prop)
    (idle : ∀ a s' (i : Nat), thread a → ¬ Client.step cfg { s with now := s.now + i } a = some s') :
    run.Fair thread ∧ Scheduled run thread := by
  obtain ⟨n, rest⟩ := rests
  have unable : ∀ i, ¬ (client cfg).Enabled thread (run.state (n + i)) := by
    rintro i ⟨a, mine, moves⟩
    rw [rest] at moves
    obtain ⟨s', move⟩ := Option.isSome_iff_exists.mp moves
    exact idle a s' i mine move
  refine ⟨.of_rest n unable, .of_rest n fun i able => ?_⟩
  obtain ⟨a, ⟨mine, _⟩, moves⟩ := able
  exact unable i ⟨a, mine, moves⟩

theorem threads (rests : Rests run s) (rest : s.atRest) :
    ThreadsFair run ∧ ThreadsScheduled run ∧ SystemCallsReturn run := by
  obtain ⟨⟨io, heartbeat⟩, control⟩ := rest
  have controlIdle := rests.fair Action.OfControl fun a s' i mine move => by
    cases a with
    | control input => simpa [control] using Client.controlStep_underway move
    | _ => cases mine
  have ioIdle := rests.fair Action.OfIo fun a s' i mine move => by
    cases a with
    | io input => exact Client.ioStep_running move io
    | _ => cases mine
  have heartbeatIdle := rests.fair Action.OfHeartbeat fun a s' i mine move => by
    cases a with
    | heartbeat input => exact Client.heartbeatStep_running move heartbeat
    | _ => cases mine
  refine ⟨⟨controlIdle.1, ioIdle.1, heartbeatIdle.1⟩, ⟨controlIdle.2, ioIdle.2, heartbeatIdle.2⟩, ?_⟩
  have outside : ∀ pc : ControlPc, pc.busy = true → s.control ≠ pc := by
    rintro _ busy rfl
    simp [busy] at control
  refine ⟨rests.returns fun _ => outside _ rfl, rests.returns fun _ => outside _ rfl, rests.returns ?_,
    rests.returns ?_, rests.returns ?_⟩
  · rintro _ ⟨n, cid, here⟩
    exact outside _ rfl here
  · intro _ here
    have reading : s.io = .reading := here
    simp [reading] at io
  · rintro _ ⟨now, here⟩
    have writing : s.heartbeat = .write now := here
    simp [writing] at heartbeat

theorem call (rests : Rests run s) {n : Nat} (idle : (s.calls n).busy = false) :
    Scheduled run (Action.OfCall n) ∧ Returns run (Client.InWrite n) := by
  refine ⟨(rests.fair (Action.OfCall n) fun a s' i mine move => ?_).2, rests.returns ?_⟩
  · cases a with
    | call m input =>
      cases mine
      simpa [idle] using Client.callStep_underway move
    | _ => cases mine
  · rintro _ ⟨op, cid, here⟩
    have waits : s.calls n = .write op cid := here
    rw [waits] at idle
    cases idle

end Rests

theorem exists_resting {s s' : Client} {labels : List Action} (reach : (client cfg).Reach Machine.anyStep s)
    (ran : (client cfg).exec Machine.anyStep s labels = some s') :
    ∃ run : (client cfg).Endless, run.state 0 = s ∧ Rests run s' ∧ ∀ i, run.label i ∈ .tick 1 :: labels := by
  obtain ⟨run, starts, rests, does⟩ := Machine.Endless.exists_endless (a := Action.tick 1) reach ran
    (fun i => { s' with now := s'.now + i }) (by simp) (by simp [client, Client.step, add_assoc])
  exact ⟨run, starts, ⟨labels.length, rests⟩, does⟩

theorem resting_of_exec {before labels : List Action} {property : Client → Bool} (n : Nat)
    (ran : ((client cfg).exec Machine.anyStep {} before).any (fun s => property s &&
      ((client cfg).exec Machine.anyStep s labels).any fun s' => s'.atRest ∧ (s'.calls n).busy = false) = true) :
    ∃ (run : (client cfg).Endless) (s' : Client), property (run.state 0) = true ∧ Rests run s' ∧ s'.atRest ∧
      (s'.calls n).busy = false ∧ ∀ i, run.label i ∈ .tick 1 :: labels := by
  obtain ⟨s, reach, holds⟩ := Machine.reach_of_exec rfl ran
  rw [Bool.and_eq_true] at holds
  obtain ⟨s', ran, rests⟩ := (Option.any_eq_true _ _).mp holds.2
  obtain ⟨rest, idle⟩ := of_decide_eq_true rests
  obtain ⟨run, starts, still, does⟩ := exists_resting reach ran
  exact ⟨run, s', starts ▸ holds.1, still, rest, idle, does⟩

/-! ## Lifecycle calls -/

namespace CallPc

/-- It has come back to its caller, with a result or with an exception. -/
def ended : CallPc → Bool
  | .returned _ _ | .threw _ => true
  | _ => false

def distance : CallPc → Nat
  | .requireOpen _ => 11
  | .checkArguments _ => 10
  | .allocate _ => 9
  | .deadline _ _ => 8
  | .register _ _ _ => 7
  | .checkSize _ _ => 6
  | .touch _ _ => 5
  | .write _ _ => 4
  | .written _ _ => 3
  | .wait _ _ _ => 2
  | .answered _ _ _ => 1
  | .idle | .close | .returned _ _ | .threw _ => 0

end CallPc

namespace Client
variable {s s' : Client} {input : Input} {n : Nat}

theorem callStep_distance (run : callStep cfg s n input = some s') :
    (s'.calls n).ended = true ∨ (s'.calls n).busy = true ∧ (s'.calls n).distance < (s.calls n).distance := by
  cases callStep_move run with
  | @accepted op here | @write op cid here =>
    cases oneway : op.isOneway <;> simp [setCall, here, CallPc.busy, CallPc.ended, CallPc.distance]
  | _ => simp_all [setCall, CallPc.busy, CallPc.ended, CallPc.distance]

/-- The only point at which a call may have to wait is the one where it waits for its answer. -/
theorem callStep_enabled (busy : (s.calls n).busy = true)
    (late : ∀ op cid since, s.calls n = .wait op cid since → s.waitedOut cfg since) :
    ∃ input, (callStep cfg s n input).isSome := by
  cases here : s.calls n with
  | write => exact ⟨.sent (.ok ()), by simp [callStep, here]⟩
  | wait op cid since =>
    refine ⟨.none, ?_⟩
    have elapsed := late op cid since here
    simp only [callStep, here]
    split
    · rfl
    · rfl
    · rw [if_pos elapsed]
      split <;> rfl
  | checkArguments op =>
    refine ⟨.none, ?_⟩
    simp only [callStep, here]
    split <;> rfl
  | checkSize op cid =>
    refine ⟨.none, ?_⟩
    simp only [callStep, here]
    split <;> rfl
  | requireOpen op =>
    refine ⟨.none, ?_⟩
    simp only [callStep, here]
    split <;> rfl
  | allocate | deadline | register | touch | written | answered => exact ⟨.none, by simp [callStep, here]⟩
  | _ => simp [here, CallPc.busy] at busy

/-- Only inside `write_all` a call waits for something that no timeout ends. -/
theorem callStep_own (run : callStep cfg s n input = some s') : input.own = true ∨ s.InWrite n := by
  cases callStep_move run with
  | writeFailed here | write here => exact .inr ⟨_, _, here⟩
  | _ => exact .inl rfl

theorem step_call_still {a : Action} (busy : (s.calls n).busy = true) (other : ¬ a.OfCall n)
    (run : step cfg s a = some s') : s'.calls n = s.calls n := by
  rcases step_calls run n with same | ⟨idle, _⟩ | ⟨input, rfl⟩
  · exact same
  · rw [idle] at busy
    cases busy
  · exact absurd rfl other

end Client

theorem call_fair {n : Nat} (scheduled : Scheduled run (Action.OfCall n))
    (writes : Returns run (Client.InWrite n)) : run.Fair (Action.OfCall n) := by
  refine .of_parts (fun _ : Unit => Client.InWrite n) scheduled (fun _ => And.left) (fun _ => writes) ?_ ?_
  · rintro _ s a s' _ _ ⟨op, cid, here⟩ other move
    exact ⟨op, cid, (Client.step_call_still (by rw [here]; rfl) other move).trans here⟩
  · rintro s ⟨a, mine, moves⟩ out
    obtain ⟨s', move⟩ := Option.isSome_iff_exists.mp moves
    cases a with
    | call m input =>
      cases mine
      exact ⟨.call n input, ⟨rfl, (Client.callStep_own move).resolve_right (out ())⟩, moves⟩
    | _ => cases mine

theorem call_ends (n : Nat) (time : TimePasses run) (fair : run.Fair (Action.OfCall n)) :
    run.LeadsTo (fun s => (s.calls n).busy = true) fun s => (s.calls n).ended = true := by
  refine .of_waiting (fun s => s.calls n) (Action.OfCall n) (fun s => (s.calls n).distance) ⟨?_, ?_⟩ fair ?_ ?_
  · intro s a s' _ _ mine move
    cases a with
    | call m input =>
      cases mine
      exact Client.callStep_distance move
    | _ => cases mine
  · intro s a s' _ busy other move
    have same := Client.step_call_still busy other move
    exact .inr ⟨same ▸ busy, by rw [same]⟩
  · intro s a s' _ busy other move
    exact Client.step_call_still busy other move
  · intro i _
    -- Its deadline, if it waits for one.
    obtain ⟨t, due⟩ : ∃ t : Int, ∀ op cid since, (run.state i).calls n = .wait op cid since →
        Client.deadlineAfter since cfg.requestTimeout ≤ t := by
      cases (run.state i).calls n with
      | wait op cid since =>
        refine ⟨Client.deadlineAfter since cfg.requestTimeout, ?_⟩
        rintro _ _ _ ⟨⟩
        exact le_rfl
      | _ => exact ⟨0, by simp⟩
    obtain ⟨j, later, passed⟩ := time.later i t
    refine ⟨j, later, fun k after busy same => ?_⟩
    have late : ∀ op cid since, (run.state k).calls n = .wait op cid since →
        (run.state k).waitedOut cfg since := by
      intro op cid since waiting
      exact (due op cid since (same.symm.trans waiting)).trans (passed k after)
    obtain ⟨input, able⟩ := Client.callStep_enabled busy late
    exact ⟨.call n input, rfl, able⟩

/-- A lifecycle call comes to an end, whatever becomes of the connection and of all other
threads, if its `write_all` returns: nothing else that it waits for is without a timeout. -/
theorem lifecycle_call_returns (n : Nat) (time : TimePasses run) (scheduled : Scheduled run (Action.OfCall n))
    (writes : Returns run (Client.InWrite n)) :
    run.LeadsTo (fun s => (s.calls n).busy = true) fun s => (s.calls n).ended = true :=
  call_ends n time (call_fair scheduled writes)

/-- A call that waits when the peer goes away. -/
theorem lifecycle_call_returns_waiting : ∃ run : (client {}).Endless, ∃ j,
    ((run.state 0).calls 0).busy = true ∧ ((run.state j).calls 0).ended = true := by
  have ran : ((client {}).exec Machine.anyStep {}
        (opening (acceptingScript ⟨1048576, 0⟩) ++ request 0 (.deleteStream (text "a") false))).any (fun s =>
      (s.calls 0).busy && ((client {}).exec Machine.anyStep s (readFailure 1 ++ [.call 0 .none])).any fun s' =>
        s'.atRest ∧ (s'.calls 0).busy = false) = true := by decide +kernel
  obtain ⟨run, _, waiting, rests, _, idle, _⟩ := resting_of_exec 0 ran
  obtain ⟨scheduled, writes⟩ := rests.call idle
  obtain ⟨j, _, returned⟩ := lifecycle_call_returns 0 rests.time scheduled writes 0 waiting
  exact ⟨run, j, waiting, returned⟩

/-! ## The background threads -/

namespace IoPc

def distance : IoPc → Nat
  | .reading => 9
  | .arrived _ _ => 8
  | .stamped _ _ | .timedOut => 7
  | .reap _ _ | .fail _ _ => 6
  | .reaping _ _ | .failing _ _ => 5
  | .dispatch _ _ | .readClosing _ => 4
  | .dispatching _ _ | .notify _ => 3
  | .top | .fetchCallback _ => 2
  | .leaving => 1
  | .finished | .notStarted => 0

end IoPc

namespace HeartbeatPc

def distance : HeartbeatPc → Nat
  | .compare _ => 4
  | .write _ => 3
  | .sleeping _ | .stamp _ => 2
  | .woken | .top => 1
  | .finished | .notStarted => 0

end HeartbeatPc

namespace Client

def ioEnding (s : Client) : Prop :=
  s.io ≠ .notStarted ∧ s.io ≠ .finished ∧ (s.stopIo = true ∨ s.io.left = true)

def heartbeatEnding (s : Client) : Prop :=
  s.heartbeat ≠ .notStarted ∧ s.heartbeat ≠ .finished ∧ s.stopIo = true

def ioMeasure (s : Client) : Nat ×ₗ Nat := toLex (s.io.distance, (s.dispatcher.held .io).length)

variable {s s' : Client} {input : Input}

/-- Once it was started the I/O thread is moved by itself alone, and nobody takes back the
order to stop. -/
theorem step_io_still {a : Action} (staged : s.control.Staged s) (started : s.io ≠ .notStarted)
    (other : ¬ a.OfIo) (run : step cfg s a = some s') :
    s'.io = s.io ∧ s'.dispatcher.held .io = s.dispatcher.held .io ∧ (s.stopIo = true → s'.stopIo = true) := by
  rcases step_threads run with ⟨_, _, _, _, _, rfl⟩ | ⟨n, input, rfl, run⟩ | ⟨input, rfl, run⟩ |
    ⟨input, rfl, run⟩ | ⟨input, rfl, run⟩
  · exact ⟨rfl, rfl, id⟩
  · cases callStep_move run with
    | register => exact ⟨rfl, by rw [Dispatcher.held_register], id⟩
    | _ => exact ⟨rfl, rfl, id⟩
  · cases controlStep_move run with
    | handshake =>
      refine ⟨handshakeStep_io _ _ _, by rw [handshakeStep_dispatcher], ?_⟩
      rw [handshakeStep_stopIo]
      exact id
    | connectFlags here | startIo here =>
      rw [here] at staged
      exact absurd staged.2.1 started
    | closeRegister => exact ⟨rfl, by rw [Dispatcher.held_register], id⟩
    | closeFailOne here settle =>
      obtain ⟨e, _, _, rfl⟩ := Dispatcher.settle_eq settle
      exact ⟨rfl, rfl, id⟩
    | closeStop | destroyStop => exact ⟨rfl, rfl, fun _ => rfl⟩
    | _ => exact ⟨rfl, rfl, id⟩
  · exact absurd trivial other
  · obtain ⟨_, _, _, rfl⟩ := heartbeatStep_writes run
    exact ⟨rfl, rfl, id⟩

theorem ioStep_measure (stop : s.io = .top → s.stopIo = true) (run : ioStep s input = some s') :
    s'.ioMeasure < s.ioMeasure := by
  have nearer : s'.io.distance < s.io.distance → s'.ioMeasure < s.ioMeasure := fun less =>
    Prod.Lex.toLex_lt_toLex.mpr (.inl less)
  have lighter : s'.io = s.io → (s'.dispatcher.held .io).length < (s.dispatcher.held .io).length →
      s'.ioMeasure < s.ioMeasure := fun same less =>
    Prod.Lex.toLex_lt_toLex.mpr (.inr ⟨congrArg IoPc.distance same, less⟩)
  cases ioStep_move run with
  | expire here settle | answer here settle | failOne here settle =>
    exact lighter rfl (Dispatcher.settle_shorter settle)
  | @reaped _ next here => cases next <;> exact nearer (by simp [here, afterReap, IoPc.distance])
  | top here => exact nearer (by simp [here, stop here, IoPc.distance])
  | readClosing here =>
    refine nearer ?_
    simp only [here]
    split <;> simp [IoPc.distance]
  | _ => exact nearer (by simp_all [IoPc.distance])

theorem ioStep_ending (ending : s.ioEnding) (run : ioStep s input = some s') :
    s'.io = .finished ∨ s'.ioEnding ∧ s'.ioMeasure < s.ioMeasure := by
  obtain ⟨started, _, reason⟩ := ending
  have less := ioStep_measure (fun here => reason.resolve_right (by simp [here, IoPc.left])) run
  rw [or_iff_not_imp_left]
  intro going
  refine ⟨⟨(ioStep_staged run).2.1, going, ?_⟩, less⟩
  cases ioStep_move run with
  | @reaped _ next here => cases next <;> simp_all [IoPc.left]
  | readClosing =>
    right
    simp only
    split <;> rfl
  | _ => simp_all [IoPc.left]

theorem ioStep_enabled (started : s.io ≠ .notStarted) (going : s.io ≠ .finished) :
    ∃ input, (ioStep s input).isSome := by
  have settles : ∀ cause, s.dispatcher.held .io ≠ [] → (s.ioSettle 0 cause).isSome := by
    intro cause held
    obtain ⟨e, rest, same⟩ := List.exists_cons_of_ne_nil held
    simp [ioSettle, Dispatcher.settle, same]
  cases here : s.io with
  | reading => exact ⟨.read (.error peerClosed), by simp [ioStep, here, peerClosed]⟩
  | reaping now next =>
    by_cases held : s.dispatcher.held .io = []
    · exact ⟨.none, by simp [ioStep, here, ioDone, held]⟩
    · exact ⟨.pick 0, by simpa only [ioStep, here] using settles _ held⟩
  | dispatching index frame =>
    by_cases held : s.dispatcher.held .io = []
    · exact ⟨.none, by simp [ioStep, here, ioDone, held]⟩
    · exact ⟨.pick 0, by simpa only [ioStep, here] using settles _ held⟩
  | failing e ending =>
    by_cases held : s.dispatcher.held .io = []
    · exact ⟨.none, by cases ending <;> simp [ioStep, here, ioDone, held]⟩
    · exact ⟨.pick 0, by simpa only [ioStep, here] using settles _ held⟩
  | timedOut | notify =>
    refine ⟨.none, ?_⟩
    simp only [ioStep, here]
    split <;> rfl
  | notStarted => exact absurd here started
  | finished => exact absurd here going
  | _ => exact ⟨.none, by simp [ioStep, here]⟩

end Client

theorem io_fair (scheduled : Scheduled run Action.OfIo) (recv : Returns run fun s => s.io = .reading) :
    run.Fair Action.OfIo := by
  refine .of_parts (fun (_ : Unit) s => s.io = .reading) scheduled (fun _ => And.left) (fun _ => recv) ?_ ?_
  · intro _ s a s' reach _ reading other move
    exact (Client.step_io_still (reach_staged reach) (by simp [reading]) other move).1.trans reading
  · rintro s ⟨a, mine, moves⟩ out
    obtain ⟨s', move⟩ := Option.isSome_iff_exists.mp moves
    cases a with
    | io input =>
      have own : input.own = true := by
        cases Client.ioStep_move move with
        | frame here | timeout here | readError here => exact absurd here (out ())
        | _ => rfl
      exact ⟨.io input, ⟨trivial, own⟩, moves⟩
    | _ => cases mine

/-- `io_loop` ends after it is told to, whatever the peer sends, and after every error. -/
theorem io_ends (fair : run.Fair Action.OfIo) : run.LeadsTo Client.ioEnding fun s => s.io = .finished := by
  refine .of_measure_enabled Action.OfIo Client.ioMeasure ⟨?_, ?_⟩ fair ?_
  · intro s a s' _ ending mine move
    cases a with
    | io input => exact Client.ioStep_ending ending move
    | _ => cases mine
  · intro s a s' reach ending other move
    obtain ⟨started, going, reason⟩ := ending
    obtain ⟨io, held, stop⟩ := Client.step_io_still (reach_staged reach) started other move
    refine .inr ⟨⟨io ▸ started, io ▸ going, io ▸ reason.imp_left stop⟩, ?_⟩
    rw [Client.ioMeasure, Client.ioMeasure, io, held]
  · intro s _ ending
    obtain ⟨input, able⟩ := Client.ioStep_enabled ending.1 ending.2.1
    exact ⟨.io input, trivial, able⟩

namespace Client
variable {s s' : Client} {input : Input}

theorem step_heartbeat_still {a : Action} (staged : s.control.Staged s) (started : s.heartbeat ≠ .notStarted)
    (other : ¬ a.OfHeartbeat) (run : step cfg s a = some s') :
    s'.heartbeat = s.heartbeat ∧ (s.stopIo = true → s'.stopIo = true) := by
  rcases step_threads run with ⟨_, _, _, _, _, rfl⟩ | ⟨n, input, rfl, run⟩ | ⟨input, rfl, run⟩ |
    ⟨input, rfl, run⟩ | ⟨input, rfl, run⟩
  · exact ⟨rfl, id⟩
  · obtain ⟨_, _, _, _, rfl⟩ := callStep_writes run
    exact ⟨rfl, id⟩
  · cases controlStep_move run with
    | handshake => exact ⟨handshakeStep_heartbeat _ _ _, by rw [handshakeStep_stopIo]; exact id⟩
    | connectFlags here | startHeartbeat here =>
      rw [here] at staged
      exact absurd staged.2.2 started
    | closeStop | destroyStop => exact ⟨rfl, fun _ => rfl⟩
    | _ => exact ⟨rfl, id⟩
  · obtain ⟨_, _, _, _, _, _, _, _, _, rfl⟩ := ioStep_writes run
    exact ⟨rfl, id⟩
  · exact absurd trivial other

theorem heartbeatStep_ending (ending : s.heartbeatEnding) (run : heartbeatStep s input = some s') :
    s'.heartbeat = .finished ∨ s'.heartbeatEnding ∧ s'.heartbeat.distance < s.heartbeat.distance := by
  obtain ⟨started, _, stop⟩ := ending
  cases heartbeatStep_move run with
  | top | woken => simp [stop]
  | compare here =>
    right
    simp only [heartbeatEnding, here, stop]
    split <;> simp [HeartbeatPc.distance]
  | _ => simp_all [heartbeatEnding, write, HeartbeatPc.distance]

theorem heartbeatStep_enabled (started : s.heartbeat ≠ .notStarted) (going : s.heartbeat ≠ .finished)
    (slept : ∀ since, s.heartbeat = .sleeping since → s.elapsed since 500) :
    ∃ input, (heartbeatStep s input).isSome := by
  cases here : s.heartbeat with
  | sleeping since => exact ⟨.none, by simp [heartbeatStep, here, slept since here]⟩
  | write => exact ⟨.sent (.ok ()), by simp [heartbeatStep, here]⟩
  | notStarted => exact absurd here started
  | finished => exact absurd here going
  | _ => exact ⟨.none, by simp [heartbeatStep, here]⟩

end Client

theorem heartbeat_fair (scheduled : Scheduled run Action.OfHeartbeat)
    (writes : Returns run fun s => ∃ now, s.heartbeat = .write now) : run.Fair Action.OfHeartbeat := by
  refine .of_parts (fun (_ : Unit) s => ∃ now, s.heartbeat = .write now) scheduled (fun _ => And.left)
    (fun _ => writes) ?_ ?_
  · rintro _ s a s' reach _ ⟨now, writing⟩ other move
    exact ⟨now, (Client.step_heartbeat_still (reach_staged reach) (by simp [writing]) other move).1.trans writing⟩
  · rintro s ⟨a, mine, moves⟩ out
    obtain ⟨s', move⟩ := Option.isSome_iff_exists.mp moves
    cases a with
    | heartbeat input =>
      have own : input.own = true := by
        cases Client.heartbeatStep_move move with
        | write here => exact absurd ⟨_, here⟩ (out ())
        | _ => rfl
      exact ⟨.heartbeat input, ⟨trivial, own⟩, moves⟩
    | _ => cases mine

/-- Wherever the heartbeat thread stands, it can move after a while, if only from its sleep. -/
theorem heartbeat_able (time : TimePasses run) (i : Nat) : ∃ j ≥ i, ∀ k ≥ j,
    (run.state k).heartbeat ≠ .notStarted → (run.state k).heartbeat ≠ .finished →
      (run.state k).heartbeat = (run.state i).heartbeat → (client cfg).Enabled Action.OfHeartbeat (run.state k) := by
  obtain ⟨t, due⟩ : ∃ t : Int, ∀ since, (run.state i).heartbeat = .sleeping since → since + 500 ≤ t := by
    cases (run.state i).heartbeat with
    | sleeping since =>
      refine ⟨since + 500, ?_⟩
      rintro _ ⟨⟩
      exact le_rfl
    | _ => exact ⟨0, by simp⟩
  obtain ⟨j, later, passed⟩ := time.later i t
  refine ⟨j, later, fun k after started going same => ?_⟩
  have slept : ∀ since, (run.state k).heartbeat = .sleeping since → (run.state k).elapsed since 500 := by
    intro since sleeping
    have bound := due since (same.symm.trans sleeping)
    have now := passed k after
    unfold Client.elapsed
    omega
  obtain ⟨input, able⟩ := Client.heartbeatStep_enabled started going slept
  exact ⟨.heartbeat input, trivial, able⟩

theorem heartbeat_ends (time : TimePasses run) (fair : run.Fair Action.OfHeartbeat) :
    run.LeadsTo Client.heartbeatEnding fun s => s.heartbeat = .finished := by
  refine .of_waiting (fun s => s.heartbeat) Action.OfHeartbeat (fun s => s.heartbeat.distance) ⟨?_, ?_⟩ fair ?_ ?_
  · intro s a s' _ ending mine move
    cases a with
    | heartbeat input => exact Client.heartbeatStep_ending ending move
    | _ => cases mine
  · intro s a s' reach ending other move
    obtain ⟨started, going, stop⟩ := ending
    obtain ⟨same, kept⟩ := Client.step_heartbeat_still (reach_staged reach) started other move
    exact .inr ⟨⟨same ▸ started, same ▸ going, kept stop⟩, by rw [same]⟩
  · intro s a s' reach ending other move
    exact (Client.step_heartbeat_still (reach_staged reach) ending.1 other move).1
  · intro i _
    obtain ⟨j, later, able⟩ := heartbeat_able time i
    exact ⟨j, later, fun k after ending same => able k after ending.1 ending.2.1 same⟩

end RmqStream
