import RmqStream.Client.Closing
import RmqStream.Client.Shutdown
import RmqStream.Client.Progress

/-! `connect`, `close` and the destructor return.

The control thread waits for the answer to its `Close`, which it gives up after
`request_timeout`, and for the two threads that it joins. It has raised the stop flag before
that, so they end by themselves, whatever the peer does. -/

set_option autoImplicit false

namespace RmqStream
open Library

variable {cfg : ConnectionConfig} {run : (client cfg).Endless}

/-! ## The control thread -/

namespace ControlPc

def toldToStop : ControlPc → Bool
  | .closeSocket | .closeJoinIo | .closeJoinHeartbeat | .closeFail | .closeFailing | .closeFinish
  | .destroyJoinIo | .destroyJoinHeartbeat | .destroySocket | .destroyed => true
  | _ => false

def distance : ControlPc → Nat
  | .closeLock _ => 14
  | .closeAllocate _ => 13
  | .closeDeadline _ _ => 12
  | .closeRegister _ _ _ => 11
  | .closeWrite _ _ => 10
  | .connectLock | .closeWritten _ => 9
  | .connectTcp | .closeWait _ _ => 8
  | .connectHandshake | .closeStop => 7
  | .connectOpen | .closeSocket | .destroyLock => 6
  | .connectStamp | .closeJoinIo | .destroyStop => 5
  | .connectFlags | .closeJoinHeartbeat | .destroyJoinIo => 4
  | .connectStartIo | .closeFail | .destroyJoinHeartbeat => 3
  | .connectStartHeartbeat | .closeFailing | .destroySocket => 2
  | .connectAbort _ | .closeFinish => 1
  | .idle | .destroyed => 0

end ControlPc

namespace Client
variable {s s' : Client} {input : Input}

def controlMeasure (s : Client) : Nat ×ₗ Nat := toLex (s.control.distance, (s.dispatcher.held .control).length)

theorem controlStep_measure (run : controlStep cfg s input = some s') : s'.controlMeasure < s.controlMeasure := by
  have nearer : s'.control.distance < s.control.distance → s'.controlMeasure < s.controlMeasure := fun less =>
    Prod.Lex.toLex_lt_toLex.mpr (.inl less)
  have lighter : s'.control = s.control →
      (s'.dispatcher.held .control).length < (s.dispatcher.held .control).length →
      s'.controlMeasure < s.controlMeasure := fun same less =>
    Prod.Lex.toLex_lt_toLex.mpr (.inr ⟨congrArg ControlPc.distance same, less⟩)
  cases controlStep_move run with
  | @handshake replies here =>
    rcases handshakeStep_control cfg s replies with opened | ⟨e, failed⟩
    · exact nearer (by simp [here, opened, ControlPc.distance])
    · exact nearer (by simp [here, failed, ControlPc.distance])
  | closeFailOne here settle => exact lighter rfl (Dispatcher.settle_shorter settle)
  | _ => exact nearer (by simp_all [finish, write, ControlPc.distance])

theorem step_control_still {a : Action} (busy : s.control.busy = true) (other : ¬ a.OfControl)
    (run : step cfg s a = some s') :
    s'.control = s.control ∧ s'.dispatcher.held .control = s.dispatcher.held .control := by
  have control : s'.control = s.control := by
    rcases step_control run with same | idle | ⟨input, rfl⟩
    · exact same
    · rw [idle] at busy
      cases busy
    · exact absurd trivial other
  refine ⟨control, ?_⟩
  rcases step_threads run with ⟨_, _, _, _, _, rfl⟩ | ⟨n, input, rfl, run⟩ | ⟨input, rfl, run⟩ |
    ⟨input, rfl, run⟩ | ⟨input, rfl, run⟩
  · rfl
  · cases callStep_move run with
    | register => rw [Dispatcher.held_register]
    | _ => rfl
  · exact absurd trivial other
  · cases ioStep_move run with
    | dispatch => exact Dispatcher.held_dispatchTake _ _
    | expire here settle | answer here settle | failOne here settle =>
      obtain ⟨e, _, _, rfl⟩ := Dispatcher.settle_eq settle
      rfl
    | _ => rfl
  · obtain ⟨_, _, _, rfl⟩ := heartbeatStep_writes run
    rfl

/-- Whoever waits for the background threads has told them to stop. -/
def ToldToStop (s : Client) : Prop := s.control.toldToStop = true → s.stopIo = true

theorem step_toldToStop {a : Action} (told : s.ToldToStop) (run : step cfg s a = some s') : s'.ToldToStop := by
  unfold ToldToStop at told ⊢
  cases a with
  | tick | onUnexpectedClose =>
    cases run
    exact told
  | invoke n op =>
    obtain ⟨_, rfl⟩ := step_invoke run
    exact told
  | connect => obtain ⟨_, ⟨e, rfl⟩ | rfl⟩ := step_connect run <;> simp [finish, ControlPc.toldToStop]
  | close n =>
    obtain ⟨_, _, rfl⟩ := step_close run
    simp [ControlPc.toldToStop]
  | destroy =>
    obtain ⟨_, rfl⟩ := step_destroy run
    simp [ControlPc.toldToStop]
  | call n input =>
    obtain ⟨_, _, _, _, rfl⟩ := callStep_writes run
    exact told
  | control input =>
    cases controlStep_move run with
    | @handshake replies here =>
      rcases handshakeStep_control cfg s replies with opened | ⟨e, failed⟩ <;>
        simp [*, ControlPc.toldToStop]
    | _ => simp_all [finish, write, ControlPc.toldToStop]
  | io input =>
    obtain ⟨_, _, _, _, _, _, _, _, _, rfl⟩ := ioStep_writes run
    exact told
  | heartbeat input =>
    obtain ⟨_, _, _, rfl⟩ := heartbeatStep_writes run
    exact told

theorem controlStep_enabled (busy : s.control.busy = true)
    (late : ∀ n since, s.control = .closeWait n since → s.waitedOut cfg since)
    (joinIo : s.control = .closeJoinIo ∨ s.control = .destroyJoinIo → s.io = .finished ∨ s.io = .notStarted)
    (joinHeartbeat : s.control = .closeJoinHeartbeat ∨ s.control = .destroyJoinHeartbeat →
      s.heartbeat = .finished ∨ s.heartbeat = .notStarted) :
    ∃ input, (controlStep cfg s input).isSome := by
  cases here : s.control with
  | connectTcp => exact ⟨.tcp (.ok ()), by simp [controlStep, here]⟩
  | connectHandshake => exact ⟨.script [], by simp [controlStep, here]⟩
  | closeWrite => exact ⟨.sent (.ok ()), by simp [controlStep, here]⟩
  | closeWait n since => exact ⟨.none, by simp [controlStep, here, late n since here]⟩
  | closeJoinIo => exact ⟨.none, by simp [controlStep, here, joinIo (.inl here)]⟩
  | destroyJoinIo => exact ⟨.none, by simp [controlStep, here, joinIo (.inr here)]⟩
  | closeJoinHeartbeat => exact ⟨.none, by simp [controlStep, here, joinHeartbeat (.inl here)]⟩
  | destroyJoinHeartbeat => exact ⟨.none, by simp [controlStep, here, joinHeartbeat (.inr here)]⟩
  | closeFailing =>
    cases held : s.dispatcher.held .control with
    | nil => exact ⟨.none, by simp [controlStep, here, held]⟩
    | cons e rest => exact ⟨.pick 0, by simp [controlStep, here, Dispatcher.settle, held]⟩
  | connectLock | closeLock =>
    refine ⟨.none, ?_⟩
    simp only [controlStep, here]
    split <;> rfl
  | idle | destroyed => simp [here, ControlPc.busy] at busy
  | _ => exact ⟨.none, by simp [controlStep, here]⟩

theorem step_started {a : Action} (other : ¬ a.OfControl) (run : step cfg s a = some s') :
    (s'.io = .notStarted ↔ s.io = .notStarted) ∧ (s'.heartbeat = .notStarted ↔ s.heartbeat = .notStarted) := by
  rcases step_threads run with ⟨_, _, _, _, _, rfl⟩ | ⟨n, input, rfl, run⟩ | ⟨input, rfl, run⟩ |
    ⟨input, rfl, run⟩ | ⟨input, rfl, run⟩
  · exact ⟨Iff.rfl, Iff.rfl⟩
  · obtain ⟨_, _, _, _, rfl⟩ := callStep_writes run
    exact ⟨Iff.rfl, Iff.rfl⟩
  · exact absurd trivial other
  · obtain ⟨before, after, _⟩ := ioStep_staged run
    obtain ⟨_, _, _, _, _, _, _, _, _, rfl⟩ := ioStep_writes run
    exact ⟨iff_of_false after before, Iff.rfl⟩
  · obtain ⟨before, after⟩ := heartbeatStep_staged run
    obtain ⟨_, _, _, rfl⟩ := heartbeatStep_writes run
    exact ⟨Iff.rfl, iff_of_false after before⟩

theorem step_heartbeat_finished {a : Action} (staged : s.control.Staged s) (finished : s.heartbeat = .finished)
    (run : step cfg s a = some s') : s'.heartbeat = .finished := by
  by_cases mine : a.OfHeartbeat
  · cases a with
    | heartbeat input => cases heartbeatStep_move run <;> simp_all
    | _ => cases mine
  · have started : s.heartbeat ≠ .notStarted := by simp [finished]
    rw [(step_heartbeat_still staged started mine run).1, finished]

end Client

theorem reach_toldToStop {s : Client} (reach : (client cfg).Reach Machine.anyStep s) : s.ToldToStop := by
  refine reach.invariant Client.ToldToStop ?_ ?_
  · rintro _ rfl told
    cases told
  · intro s a s' _ told _ move
    exact Client.step_toldToStop told move

theorem io_gone (fair : run.Fair Action.OfIo) {i : Nat} (stop : (run.state i).stopIo = true)
    (started : (run.state i).io ≠ .notStarted) : ∃ j ≥ i, ∀ k ≥ j, (run.state k).io = .finished := by
  obtain ⟨j, later, finished⟩ : ∃ j ≥ i, (run.state j).io = .finished := by
    by_cases already : (run.state i).io = .finished
    · exact ⟨i, le_rfl, already⟩
    · exact io_ends fair i ⟨started, already, .inl stop⟩
  refine ⟨j, later, fun k after => ?_⟩
  have keep : ∀ s a s', (client cfg).Reach Machine.anyStep s → s.io = .finished → (client cfg).step s a = some s' →
      s'.io = .finished := fun s a s' reach before move => Client.step_finished (reach_staged reach) before move
  exact run.lasts keep finished after

theorem heartbeat_gone (time : TimePasses run) (fair : run.Fair Action.OfHeartbeat) {i : Nat}
    (stop : (run.state i).stopIo = true) (started : (run.state i).heartbeat ≠ .notStarted) :
    ∃ j ≥ i, ∀ k ≥ j, (run.state k).heartbeat = .finished := by
  obtain ⟨j, later, finished⟩ : ∃ j ≥ i, (run.state j).heartbeat = .finished := by
    by_cases already : (run.state i).heartbeat = .finished
    · exact ⟨i, le_rfl, already⟩
    · exact heartbeat_ends time fair i ⟨started, already, stop⟩
  refine ⟨j, later, fun k after => ?_⟩
  have keep : ∀ s a s', (client cfg).Reach Machine.anyStep s → s.heartbeat = .finished →
      (client cfg).step s a = some s' → s'.heartbeat = .finished :=
    fun s a s' reach before move => Client.step_heartbeat_finished (reach_staged reach) before move
  exact run.lasts keep finished after

theorem control_waits (time : TimePasses run) (fair : ThreadsFair run) (i : Nat) : ∃ j ≥ i, ∀ k ≥ j,
    (run.state k).control = (run.state i).control →
    ((run.state k).io = .notStarted ↔ (run.state i).io = .notStarted) →
    ((run.state k).heartbeat = .notStarted ↔ (run.state i).heartbeat = .notStarted) →
    (run.state k).control.busy = true → ∃ input, (Client.controlStep cfg (run.state k) input).isSome := by
  have told := reach_toldToStop (run.reach i)
  obtain ⟨t, due⟩ : ∃ t : Int, ∀ n since, (run.state i).control = .closeWait n since →
      Client.deadlineAfter since cfg.requestTimeout ≤ t := by
    cases (run.state i).control with
    | closeWait n since =>
      refine ⟨Client.deadlineAfter since cfg.requestTimeout, ?_⟩
      rintro _ _ ⟨⟩
      exact le_rfl
    | _ => exact ⟨0, by simp⟩
  obtain ⟨j₁, later₁, passed⟩ := time.later i t
  obtain ⟨j₂, later₂, ioGone⟩ : ∃ j ≥ i, ∀ k ≥ j, (run.state i).stopIo = true →
      (run.state i).io ≠ .notStarted → (run.state k).io = .finished := by
    by_cases needed : (run.state i).stopIo = true ∧ (run.state i).io ≠ .notStarted
    · obtain ⟨j, later, gone⟩ := io_gone fair.io needed.1 needed.2
      exact ⟨j, later, fun k after _ _ => gone k after⟩
    · exact ⟨i, le_rfl, fun k _ stop started => absurd ⟨stop, started⟩ needed⟩
  obtain ⟨j₃, later₃, heartbeatGone⟩ : ∃ j ≥ i, ∀ k ≥ j, (run.state i).stopIo = true →
      (run.state i).heartbeat ≠ .notStarted → (run.state k).heartbeat = .finished := by
    by_cases needed : (run.state i).stopIo = true ∧ (run.state i).heartbeat ≠ .notStarted
    · obtain ⟨j, later, gone⟩ := heartbeat_gone time fair.heartbeat needed.1 needed.2
      exact ⟨j, later, fun k after _ _ => gone k after⟩
    · exact ⟨i, le_rfl, fun k _ stop started => absurd ⟨stop, started⟩ needed⟩
  refine ⟨max j₁ (max j₂ j₃), later₁.trans (le_max_left _ _), fun k after control io heartbeat busy => ?_⟩
  have after₁ : k ≥ j₁ := (le_max_left _ _).trans after
  have after₂ : k ≥ j₂ := ((le_max_left _ _).trans (le_max_right _ _)).trans after
  have after₃ : k ≥ j₃ := ((le_max_right _ _).trans (le_max_right _ _)).trans after
  refine Client.controlStep_enabled busy ?_ ?_ ?_
  · intro n since waiting
    exact (due n since (control.symm.trans waiting)).trans (passed k after₁)
  · intro joins
    by_cases started : (run.state i).io = .notStarted
    · exact .inr (io.mpr started)
    · refine .inl (ioGone k after₂ (told ?_) started)
      rw [← control]
      rcases joins with here | here <;> rw [here] <;> rfl
  · intro joins
    by_cases started : (run.state i).heartbeat = .notStarted
    · exact .inr (heartbeat.mpr started)
    · refine .inl (heartbeatGone k after₃ (told ?_) started)
      rw [← control]
      rcases joins with here | here <;> rw [here] <;> rfl

/-- The points at which the control thread is inside a system call, or in the handshake. -/
def ControlPc.inSystemCall : ControlPc → Bool
  | .connectTcp | .connectHandshake | .closeWrite _ _ => true
  | _ => false

theorem Client.controlStep_own {s s' : Client} {input : Input} (run : controlStep cfg s input = some s') :
    input.own = true ∨ s.control.inSystemCall = true := by
  cases controlStep_move run <;> first | exact .inl rfl | simp_all [ControlPc.inSystemCall]

theorem control_fair (scheduled : Scheduled run Action.OfControl) (returns : SystemCallsReturn run) :
    run.Fair Action.OfControl := by
  refine .of_parts (fun pc s => s.control = pc ∧ pc.inSystemCall = true) scheduled (fun _ => And.left) ?_ ?_ ?_
  · rintro pc i ⟨here, inside⟩
    obtain ⟨j, later, gone⟩ : ∃ j ≥ i, (run.state j).control ≠ pc := by
      cases pc with
      | connectTcp => exact returns.tcp i here
      | connectHandshake => exact returns.handshake i here
      | closeWrite n cid =>
        obtain ⟨j, later, gone⟩ := returns.closeWrite i ⟨n, cid, here⟩
        exact ⟨j, later, fun still => gone ⟨n, cid, still⟩⟩
      | _ => cases inside
    exact ⟨j, later, fun still => gone still.1⟩
  · rintro pc s a s' _ _ ⟨rfl, inside⟩ other move
    have busy : s.control.busy = true := by cases here : s.control <;> simp_all [ControlPc.inSystemCall, ControlPc.busy]
    exact ⟨(Client.step_control_still busy other move).1, inside⟩
  · rintro s ⟨a, mine, moves⟩ out
    obtain ⟨s', move⟩ := Option.isSome_iff_exists.mp moves
    cases a with
    | control input =>
      refine ⟨.control input, ⟨trivial, (Client.controlStep_own move).resolve_right fun inside => ?_⟩, moves⟩
      exact out s.control ⟨rfl, inside⟩
    | _ => cases mine

theorem threads_fair (scheduled : ThreadsScheduled run) (returns : SystemCallsReturn run) : ThreadsFair run where
  control := control_fair scheduled.control returns
  io := io_fair scheduled.io returns.recv
  heartbeat := heartbeat_fair scheduled.heartbeat returns.heartbeatWrite

theorem control_returns (time : TimePasses run) (fair : ThreadsFair run) :
    run.LeadsTo (fun s => s.control.busy = true) fun s => s.control.busy = false := by
  refine .of_waiting (fun s => (s.control, decide (s.io = .notStarted), decide (s.heartbeat = .notStarted)))
    Action.OfControl Client.controlMeasure ⟨?_, ?_⟩ fair.control ?_ ?_
  · intro s a s' _ _ mine move
    cases a with
    | control input =>
      have less := Client.controlStep_measure move
      cases busy : s'.control.busy with
      | false => exact .inl rfl
      | true => exact .inr ⟨rfl, less⟩
    | _ => cases mine
  · intro s a s' _ busy other move
    obtain ⟨control, held⟩ := Client.step_control_still busy other move
    exact .inr ⟨control ▸ busy, by rw [Client.controlMeasure, Client.controlMeasure, control, held]⟩
  · intro s a s' _ busy other move
    obtain ⟨io, heartbeat⟩ := Client.step_started other move
    rw [(Client.step_control_still busy other move).1, decide_eq_decide.mpr io, decide_eq_decide.mpr heartbeat]
  · intro i _
    obtain ⟨j, later, able⟩ := control_waits time fair i
    refine ⟨j, later, fun k after busy same => ?_⟩
    simp only [Prod.mk.injEq, decide_eq_decide] at same
    obtain ⟨control, io, heartbeat⟩ := same
    obtain ⟨input, can⟩ := able k after control io heartbeat busy
    exact ⟨.control input, trivial, can⟩

/-! ## What the control calls come to -/

def ControlPc.joinedHeartbeat : ControlPc → Bool
  | .closeFail | .closeFailing | .closeFinish | .destroySocket | .destroyed => true
  | _ => false

def ControlPc.destroyedIo : ControlPc → Bool
  | .destroyJoinHeartbeat | .destroySocket | .destroyed => true
  | _ => false

namespace Client
variable {s s' : Client} {input : Input}

structure Joined (s : Client) : Prop where
  io : s.control.destroyedIo = true → s.io = .finished ∨ s.io = .notStarted
  heartbeat : s.control.joinedHeartbeat = true → s.heartbeat = .finished ∨ s.heartbeat = .notStarted
  socket : s.control = .destroyed → s.socketOpen = false

theorem joined_begin {pc : ControlPc} (control : s'.control = pc) (io : pc.destroyedIo = false)
    (heartbeat : pc.joinedHeartbeat = false) (socket : pc ≠ .destroyed) : Joined s' where
  io := by simp [control, io]
  heartbeat := by simp [control, heartbeat]
  socket := fun here => absurd (control.symm.trans here) socket

theorem controlStep_joined (joined : Joined s) (run : controlStep cfg s input = some s') : Joined s' := by
  obtain ⟨io, heartbeat, socket⟩ := joined
  cases controlStep_move run with
  | @handshake replies here =>
    rcases handshakeStep_control cfg s replies with opened | ⟨e, failed⟩
    · exact joined_begin opened rfl rfl (by simp)
    · exact joined_begin failed rfl rfl (by simp)
  | _ => constructor <;> simp_all [finish, write, ControlPc.destroyedIo, ControlPc.joinedHeartbeat]

theorem step_joined {a : Action} (joined : Joined s) (run : step cfg s a = some s') : Joined s' := by
  cases a with
  | tick | onUnexpectedClose =>
    cases run
    exact ⟨joined.io, joined.heartbeat, joined.socket⟩
  | invoke n op =>
    obtain ⟨_, rfl⟩ := step_invoke run
    exact ⟨joined.io, joined.heartbeat, joined.socket⟩
  | connect =>
    obtain ⟨_, ⟨e, rfl⟩ | rfl⟩ := step_connect run
    · exact joined_begin (show _ = ControlPc.idle from rfl) rfl rfl (by simp)
    · exact joined_begin rfl rfl rfl (by simp)
  | close n =>
    obtain ⟨_, _, rfl⟩ := step_close run
    exact joined_begin rfl rfl rfl (by simp)
  | destroy =>
    obtain ⟨_, rfl⟩ := step_destroy run
    exact joined_begin rfl rfl rfl (by simp)
  | call n input =>
    obtain ⟨_, _, _, _, rfl⟩ := callStep_writes run
    exact ⟨joined.io, joined.heartbeat, joined.socket⟩
  | control input => exact controlStep_joined joined run
  | io input =>
    have running := ioStep_running run
    obtain ⟨_, _, _, _, _, _, _, _, _, rfl⟩ := ioStep_writes run
    exact ⟨fun past => absurd (joined.io past) running, joined.heartbeat, joined.socket⟩
  | heartbeat input =>
    have running := heartbeatStep_running run
    obtain ⟨_, _, _, rfl⟩ := heartbeatStep_writes run
    exact ⟨joined.io, fun past => absurd (joined.heartbeat past) running, joined.socket⟩

theorem step_inDestroy {a : Action} (destroying : s.control.inDestroy = true) (run : step cfg s a = some s') :
    s'.control.inDestroy = true := by
  rcases step_control run with same | idle | ⟨input, rfl⟩
  · rwa [same]
  · rw [idle] at destroying
    cases destroying
  · cases controlStep_move run <;> simp_all [ControlPc.inDestroy]

theorem busy_of_closing (staged : s.control.Staged s) (closing : s.state = .closing) : s.control.busy = true := by
  cases here : s.control with
  | idle | destroyed => simp [here, ControlPc.Staged, closing] at staged
  | _ => rfl

theorem busy_of_connecting (staged : s.control.Staged s) (connecting : s.state = .connecting) :
    s.control.busy = true := by
  cases here : s.control with
  | idle | destroyed => simp [here, ControlPc.Staged, connecting] at staged
  | _ => rfl

end Client

theorem reach_joined {s : Client} (reach : (client cfg).Reach Machine.anyStep s) : Client.Joined s := by
  refine reach.invariant Client.Joined ?_ ?_
  · rintro _ rfl
    exact Client.joined_begin rfl rfl rfl (by simp)
  · intro s a s' _ joined _ move
    exact Client.step_joined joined move

theorem Client.step_closed_joined {s s' : Client} {a : Action} (reach : (client cfg).Reach Machine.anyStep s)
    (closing : s.state = .closing) (run : step cfg s a = some s') (closed : s'.state = .closed) :
    s'.threadsGone := by
  have last := step_closed (reach_staged reach) closing run closed
  have io := (reach_ready reach).joined (by rw [last]; rfl)
  have heartbeat := (reach_joined reach).heartbeat (by rw [last]; rfl)
  rcases step_sides run with ⟨_, _, _, _, _, _, _, _, _, rfl⟩ | ⟨input, rfl, run⟩ | ⟨input, rfl, run⟩
  · simp [closing] at closed
  · cases controlStep_move run with
    | closeFinish => exact ⟨.inl io, heartbeat⟩
    | _ => simp_all
  · exact absurd (.inl io) (ioStep_running run)

structure ControlReturns (run : (client cfg).Endless) : Prop where
  returns : run.LeadsTo (fun s => s.control.busy = true) fun s => s.control.busy = false
  connects : run.LeadsTo (fun s => s.state = .connecting) fun s => s.state = .open ∨ s.state = .closed
  closes : run.LeadsTo (fun s => s.state = .closing) fun s => s.state = .closed ∧ s.threadsGone
  destroys : run.LeadsTo (fun s => s.control.inDestroy = true) fun s =>
    s.control = .destroyed ∧ s.threadsGone ∧ s.socketOpen = false

theorem control_calls_end (time : TimePasses run) (fair : ThreadsFair run) : ControlReturns run where
  returns := control_returns time fair
  connects := by
    intro i connecting
    by_contra none
    have never : ∀ j ≥ i, ¬ ((run.state j).state = .open ∨ (run.state j).state = .closed) :=
      fun j later goal => none ⟨j, later, goal⟩
    have busy := Client.busy_of_connecting (reach_staged (run.reach i)) connecting
    obtain ⟨j, later, idle⟩ := control_returns time fair i busy
    have keep : ∀ s a s', (client cfg).Reach Machine.anyStep s → s.state = .connecting →
        (client cfg).step s a = some s' → (s'.state = .open ∨ s'.state = .closed) ∨ s'.state = .connecting := by
      intro s a s' reach here move
      rcases Client.step_state (reach_staged reach) move with same | forward
      · exact .inr (same.trans here)
      · rw [here] at forward
        exact .inl (by simpa [ConnectionState.next] using forward)
    have still := run.lasts_until keep connecting never later
    rw [Client.busy_of_connecting (reach_staged (run.reach j)) still] at idle
    cases idle
  closes := by
    intro i closing
    by_contra none
    have never : ∀ j ≥ i, ¬ ((run.state j).state = .closed ∧ (run.state j).threadsGone) :=
      fun j later goal => none ⟨j, later, goal⟩
    have busy := Client.busy_of_closing (reach_staged (run.reach i)) closing
    obtain ⟨j, later, idle⟩ := control_returns time fair i busy
    have keep : ∀ s a s', (client cfg).Reach Machine.anyStep s → s.state = .closing →
        (client cfg).step s a = some s' → (s'.state = .closed ∧ s'.threadsGone) ∨ s'.state = .closing := by
      intro s a s' reach here move
      rcases Client.step_state (reach_staged reach) move with same | forward
      · exact .inr (same.trans here)
      · rw [here] at forward
        have closed : s'.state = .closed := by simpa [ConnectionState.next] using forward
        exact .inl ⟨closed, Client.step_closed_joined reach here move closed⟩
    have still := run.lasts_until keep closing never later
    rw [Client.busy_of_closing (reach_staged (run.reach j)) still] at idle
    cases idle
  destroys := by
    intro i destroying
    obtain ⟨j, later, idle⟩ : ∃ j ≥ i, (run.state j).control.busy = false := by
      cases busy : (run.state i).control.busy with
      | false => exact ⟨i, le_rfl, busy⟩
      | true => exact control_returns time fair i busy
    have keep : ∀ s a s', (client cfg).Reach Machine.anyStep s → s.control.inDestroy = true →
        (client cfg).step s a = some s' → s'.control.inDestroy = true :=
      fun s a s' _ before move => Client.step_inDestroy before move
    have still := run.lasts keep destroying later
    have joined := reach_joined (run.reach j)
    refine ⟨j, later, ?_⟩
    cases here : (run.state j).control with
    | destroyed =>
      exact ⟨here, ⟨joined.io (by rw [here]; rfl), joined.heartbeat (by rw [here]; rfl)⟩, joined.socket here⟩
    | _ => simp [here, ControlPc.busy, ControlPc.inDestroy] at idle still

/-- `connect` leaves the client open or closed, `close` leaves it closed with both threads joined,
and so does the destructor leave it, if the system calls return that they and the two threads are
in: with no heartbeat `recv` has no timeout, and a peer that keeps silent keeps them waiting. -/
theorem control_call_returns (time : TimePasses run) (scheduled : ThreadsScheduled run)
    (returns : SystemCallsReturn run) : ControlReturns run :=
  control_calls_end time (threads_fair scheduled returns)

/-- A `close` that gets its answer. -/
theorem control_call_returns_closing : ∃ run : (client {}).Endless, ∃ j, (run.state 0).state = .closing ∧
    (run.state j).state = .closed ∧ (run.state j).threadsGone := by
  have ran : ((client {}).exec Machine.anyStep {} (closeWhileWaiting ++ [.control .none])).any (fun s =>
      decide (s.state = .closing) && ((client {}).exec Machine.anyStep s
        (closeAnswered [] ++ [.io .none, .io .none] ++ List.replicate 3 (.control .none) ++
          [.control (.pick 0), .control .none, .control .none])).any fun s' =>
        s'.atRest ∧ (s'.calls 1).busy = false) = true := by decide +kernel
  obtain ⟨run, _, closing, rests, rest, _⟩ := resting_of_exec 1 ran
  have closing := of_decide_eq_true closing
  obtain ⟨_, scheduled, returns⟩ := rests.threads rest
  obtain ⟨j, _, closed, gone⟩ := (control_call_returns rests.time scheduled returns).closes 0 closing
  exact ⟨run, j, closing, closed, gone⟩

end RmqStream
