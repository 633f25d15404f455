import RmqStream.Client.Moves

/-! What each thread of the client can write, and how far a connection has come by
where the control thread stands. -/

set_option autoImplicit false

namespace RmqStream
open Library

def ControlPc.begins : ControlPc → Bool
  | .idle | .connectLock | .closeLock _ | .destroyLock => true
  | _ => false

namespace Client
variable {cfg : ConnectionConfig} {s s' : Client} {input : Input}

/-! ## What each thread writes -/

theorem callStep_writes {n : Nat} (run : callStep cfg s n input = some s') :
    ∃ pc table wire stamp, s' = { s with
      calls := Function.update s.calls n pc, dispatcher := table, wire := wire, lastOutbound := stamp } := by
  cases callStep_move run <;> exact ⟨_, _, _, _, rfl⟩

theorem heartbeatStep_writes (run : heartbeatStep s input = some s') :
    ∃ pc wire stamp, s' = { s with heartbeat := pc, wire := wire, lastOutbound := stamp } := by
  cases heartbeatStep_move run <;> exact ⟨_, _, _, rfl⟩

/-- The I/O thread writes neither the flags of `close` nor what other threads hold. -/
theorem ioStep_writes (run : ioStep s input = some s') :
    ∃ pc table stamp count closing ended fired callbacks state, s' = { s with
      io := pc, dispatcher := table, lastInbound := stamp, inbound := count, closingAtRead := closing,
      ended := ended, unexpectedFired := fired, callbacks := callbacks, state := state } := by
  cases ioStep_move run <;> exact ⟨_, _, _, _, _, _, _, _, _, rfl⟩

theorem handshakeStep_eq (cfg : ConnectionConfig) (s : Client) (replies : List Reply) :
    ∃ frames, (∃ e, handshakeStep cfg s replies =
        { s with wire := s.wire ++ frames, socketOpen := false, control := .connectAbort e }) ∨
      ∃ frameMax heartbeat, handshakeStep cfg s replies = { s with
        wire := s.wire ++ frames, negotiatedFrameMax := frameMax, negotiatedHeartbeat := heartbeat,
        control := .connectOpen } := by
  unfold handshakeStep
  cases (runHandshake cfg).run ⟨replies, []⟩ with
  | mk result channel =>
    cases result with
    | error e => exact ⟨_, .inl ⟨e, rfl⟩⟩
    | ok result => exact ⟨_, .inr ⟨_, _, rfl⟩⟩

/-! The handshake runs before the other threads, and leaves what they work on alone. -/

section Handshake
variable (cfg : ConnectionConfig) (s : Client) (replies : List Reply)

theorem handshakeStep_writes : ∃ pc wire socket frameMax interval, handshakeStep cfg s replies = { s with
    control := pc, wire := wire, socketOpen := socket, negotiatedFrameMax := frameMax,
    negotiatedHeartbeat := interval } := by
  obtain ⟨_, ⟨_, same⟩ | ⟨_, _, same⟩⟩ := handshakeStep_eq cfg s replies
  · exact ⟨_, _, _, _, _, same⟩
  · exact ⟨_, _, _, _, _, same⟩

@[simp] theorem handshakeStep_state : (handshakeStep cfg s replies).state = s.state := by
  obtain ⟨_, _, _, _, _, same⟩ := handshakeStep_writes cfg s replies
  rw [same]

@[simp] theorem handshakeStep_dispatcher : (handshakeStep cfg s replies).dispatcher = s.dispatcher := by
  obtain ⟨_, _, _, _, _, same⟩ := handshakeStep_writes cfg s replies
  rw [same]

@[simp] theorem handshakeStep_io : (handshakeStep cfg s replies).io = s.io := by
  obtain ⟨_, _, _, _, _, same⟩ := handshakeStep_writes cfg s replies
  rw [same]

@[simp] theorem handshakeStep_heartbeat : (handshakeStep cfg s replies).heartbeat = s.heartbeat := by
  obtain ⟨_, _, _, _, _, same⟩ := handshakeStep_writes cfg s replies
  rw [same]

@[simp] theorem handshakeStep_returned : (handshakeStep cfg s replies).returned = s.returned := by
  obtain ⟨_, _, _, _, _, same⟩ := handshakeStep_writes cfg s replies
  rw [same]

@[simp] theorem handshakeStep_stopIo : (handshakeStep cfg s replies).stopIo = s.stopIo := by
  obtain ⟨_, _, _, _, _, same⟩ := handshakeStep_writes cfg s replies
  rw [same]

theorem handshakeStep_control : (handshakeStep cfg s replies).control = .connectOpen ∨
    ∃ e, (handshakeStep cfg s replies).control = .connectAbort e := by
  obtain ⟨_, ⟨e, same⟩ | ⟨_, _, same⟩⟩ := handshakeStep_eq cfg s replies
  · exact .inr ⟨e, by rw [same]⟩
  · exact .inl (by rw [same])

end Handshake

theorem controlStep_writes (run : controlStep cfg s input = some s') :
    ∃ pc state closing socket stop fired frameMax interval inStamp outStamp table io heartbeat wire returned,
      s' = { s with
        control := pc, state := state, closing := closing, socketOpen := socket, stopIo := stop,
        unexpectedFired := fired, negotiatedFrameMax := frameMax, negotiatedHeartbeat := interval,
        lastInbound := inStamp, lastOutbound := outStamp, dispatcher := table, io := io,
        heartbeat := heartbeat, wire := wire, returned := returned } := by
  cases controlStep_move run with
  | @handshake replies =>
    obtain ⟨_, _, _, _, _, same⟩ := handshakeStep_writes cfg s replies
    rw [same]
    exact ⟨_, _, _, _, _, _, _, _, _, _, _, _, _, _, _, rfl⟩
  | _ => exact ⟨_, _, _, _, _, _, _, _, _, _, _, _, _, _, _, rfl⟩

/-! ## How a call begins -/

theorem step_invoke {n : Nat} {op : Op} (run : step cfg s (.invoke n op) = some s') :
    s.calls n = .idle ∧ s' = s.setCall n (.requireOpen op) := by
  obtain ⟨idle, run⟩ := Option.ite_none_right_eq_some.mp run
  cases run
  exact ⟨idle, rfl⟩

theorem step_connect (run : step cfg s .connect = some s') : s.control = .idle ∧
    ((∃ e, s' = s.finish .connect (.error e)) ∨ s' = { s with control := .connectLock }) := by
  obtain ⟨idle, run⟩ := Option.ite_none_right_eq_some.mp run
  split at run <;> cases run
  · exact ⟨idle, .inl ⟨_, rfl⟩⟩
  · exact ⟨idle, .inr rfl⟩

theorem step_close {n : Nat} (run : step cfg s (.close n) = some s') :
    s.control = .idle ∧ s.calls n = .idle ∧ s' = { s.setCall n .close with control := .closeLock n } := by
  obtain ⟨⟨idle, free⟩, run⟩ := Option.ite_none_right_eq_some.mp run
  cases run
  exact ⟨idle, free, rfl⟩

theorem step_destroy (run : step cfg s .destroy = some s') :
    s.control = .idle ∧ s' = { s with control := .destroyLock } := by
  obtain ⟨idle, run⟩ := Option.ite_none_right_eq_some.mp run
  cases run
  exact ⟨idle, rfl⟩

/-- A step is one of a thread of the client, or it begins a call, lets time pass or
registers a callback. -/
theorem step_threads {a : Action} (run : step cfg s a = some s') :
    (∃ now callback calls control returned, s' = { s with
      now := now, callback := callback, calls := calls, control := control, returned := returned }) ∨
    (∃ n input, a = .call n input ∧ callStep cfg s n input = some s') ∨
    (∃ input, a = .control input ∧ controlStep cfg s input = some s') ∨
    (∃ input, a = .io input ∧ ioStep s input = some s') ∨
    ∃ input, a = .heartbeat input ∧ heartbeatStep s input = some s' := by
  cases a with
  | tick | onUnexpectedClose =>
    cases run
    exact .inl ⟨_, _, _, _, _, rfl⟩
  | invoke n op =>
    obtain ⟨_, rfl⟩ := step_invoke run
    exact .inl ⟨_, _, _, _, _, rfl⟩
  | connect => obtain ⟨_, ⟨e, rfl⟩ | rfl⟩ := step_connect run <;> exact .inl ⟨_, _, _, _, _, rfl⟩
  | close n =>
    obtain ⟨_, _, rfl⟩ := step_close run
    exact .inl ⟨_, _, _, _, _, rfl⟩
  | destroy =>
    obtain ⟨_, rfl⟩ := step_destroy run
    exact .inl ⟨_, _, _, _, _, rfl⟩
  | call n input => exact .inr (.inl ⟨n, input, rfl, run⟩)
  | control input => exact .inr (.inr (.inl ⟨input, rfl, run⟩))
  | io input => exact .inr (.inr (.inr (.inl ⟨input, rfl, run⟩)))
  | heartbeat input => exact .inr (.inr (.inr (.inr ⟨input, rfl, run⟩)))

theorem step_sides {a : Action} (run : step cfg s a = some s') :
    (∃ now callback calls control returned table wire stamp pc, s' = { s with
      now := now, callback := callback, calls := calls, control := control, returned := returned,
      dispatcher := table, wire := wire, lastOutbound := stamp, heartbeat := pc }) ∨
    (∃ input, a = .control input ∧ controlStep cfg s input = some s') ∨
    ∃ input, a = .io input ∧ ioStep s input = some s' := by
  rcases step_threads run with ⟨_, _, _, _, _, rfl⟩ | ⟨n, input, rfl, run⟩ | control | io |
    ⟨input, rfl, run⟩
  · exact .inl ⟨_, _, _, _, _, _, _, _, _, rfl⟩
  · obtain ⟨_, _, _, _, rfl⟩ := callStep_writes run
    exact .inl ⟨_, _, _, _, _, _, _, _, _, rfl⟩
  · exact .inr (.inl control)
  · exact .inr (.inr io)
  · obtain ⟨_, _, _, rfl⟩ := heartbeatStep_writes run
    exact .inl ⟨_, _, _, _, _, _, _, _, _, rfl⟩

/-- A step moves one call at most; what it does to others is to begin them. -/
theorem step_calls {a : Action} (run : step cfg s a = some s') (m : Nat) :
    s'.calls m = s.calls m ∨
      (s.calls m = .idle ∧ ((∃ op, s'.calls m = .requireOpen op ∧ a = .invoke m op) ∨ s'.calls m = .close)) ∨
      ∃ input, a = .call m input := by
  cases a with
  | tick | onUnexpectedClose =>
    cases run
    exact .inl rfl
  | invoke n op =>
    obtain ⟨idle, rfl⟩ := step_invoke run
    by_cases same : m = n
    · subst same
      exact .inr (.inl ⟨idle, .inl ⟨op, Function.update_self m _ _, rfl⟩⟩)
    · exact .inl (Function.update_of_ne same _ _)
  | connect => obtain ⟨_, ⟨e, rfl⟩ | rfl⟩ := step_connect run <;> exact .inl rfl
  | close n =>
    obtain ⟨_, idle, rfl⟩ := step_close run
    by_cases same : m = n
    · subst same
      exact .inr (.inl ⟨idle, .inr (Function.update_self m _ _)⟩)
    · exact .inl (Function.update_of_ne same _ _)
  | destroy =>
    obtain ⟨_, rfl⟩ := step_destroy run
    exact .inl rfl
  | call n input =>
    by_cases same : m = n
    · exact .inr (.inr ⟨input, by rw [same]⟩)
    · obtain ⟨_, _, _, _, rfl⟩ := callStep_writes run
      exact .inl (Function.update_of_ne same _ _)
  | control input =>
    obtain ⟨_, _, _, _, _, _, _, _, _, _, _, _, _, _, _, rfl⟩ := controlStep_writes run
    exact .inl rfl
  | io input =>
    obtain ⟨_, _, _, _, _, _, _, _, _, rfl⟩ := ioStep_writes run
    exact .inl rfl
  | heartbeat input =>
    obtain ⟨_, _, _, rfl⟩ := heartbeatStep_writes run
    exact .inl rfl

theorem step_control {a : Action} (run : step cfg s a = some s') :
    s'.control = s.control ∨ s.control = .idle ∨ ∃ input, a = .control input := by
  cases a with
  | tick | onUnexpectedClose =>
    cases run
    exact .inl rfl
  | invoke n op =>
    obtain ⟨_, rfl⟩ := step_invoke run
    exact .inl rfl
  | connect => exact .inr (.inl (step_connect run).1)
  | close n => exact .inr (.inl (step_close run).1)
  | destroy => exact .inr (.inl (step_destroy run).1)
  | call n input =>
    obtain ⟨_, _, _, _, rfl⟩ := callStep_writes run
    exact .inl rfl
  | control input => exact .inr (.inr ⟨input, rfl⟩)
  | io input =>
    obtain ⟨_, _, _, _, _, _, _, _, _, rfl⟩ := ioStep_writes run
    exact .inl rfl
  | heartbeat input =>
    obtain ⟨_, _, _, rfl⟩ := heartbeatStep_writes run
    exact .inl rfl

theorem step_begins {a : Action} (run : step cfg s a = some s') : s'.control = s.control ∨
    s'.control.begins = true ∨ ∃ input, a = .control input := by
  cases a with
  | tick | onUnexpectedClose =>
    cases run
    exact .inl rfl
  | invoke n op =>
    obtain ⟨_, rfl⟩ := step_invoke run
    exact .inl rfl
  | connect =>
    obtain ⟨_, ⟨e, rfl⟩ | rfl⟩ := step_connect run <;> exact .inr (.inl rfl)
  | close n =>
    obtain ⟨_, _, rfl⟩ := step_close run
    exact .inr (.inl rfl)
  | destroy =>
    obtain ⟨_, rfl⟩ := step_destroy run
    exact .inr (.inl rfl)
  | call n input =>
    obtain ⟨_, _, _, _, rfl⟩ := callStep_writes run
    exact .inl rfl
  | control input => exact .inr (.inr ⟨input, rfl⟩)
  | io input =>
    obtain ⟨_, _, _, _, _, _, _, _, _, rfl⟩ := ioStep_writes run
    exact .inl rfl
  | heartbeat input =>
    obtain ⟨_, _, _, rfl⟩ := heartbeatStep_writes run
    exact .inl rfl

/-- Only the handshake sets the limit and the interval. -/
theorem step_agreed {a : Action} (run : step cfg s a = some s') :
    s'.negotiatedFrameMax = s.negotiatedFrameMax ∧ s'.negotiatedHeartbeat = s.negotiatedHeartbeat ∨
      s.control = .connectHandshake := by
  rcases step_sides run with ⟨_, _, _, _, _, _, _, _, _, rfl⟩ | ⟨input, rfl, run⟩ | ⟨input, rfl, run⟩
  · exact .inl ⟨rfl, rfl⟩
  · cases controlStep_move run with
    | handshake here => exact .inr here
    | _ => exact .inl ⟨rfl, rfl⟩
  · obtain ⟨_, _, _, _, _, _, _, _, _, rfl⟩ := ioStep_writes run
    exact .inl ⟨rfl, rfl⟩

/-- The frames that a step hands to the socket, by the place in the code that does it. -/
inductive Handover (cfg : ConnectionConfig) (s : Client) : Action → List WireEntry → Prop where
  | nothing (a : Action) : Handover cfg s a []
  | handshake {replies : List Reply} (here : s.control = .connectHandshake) :
    Handover cfg s (.control (.script replies))
      (((runHandshake cfg).run ⟨replies, []⟩).2.trace.filterMap (handshakeEntry s.state))
  | call {n : Nat} {op : Op} {cid : UInt32} {result : Result Unit} (here : s.calls n = .write op cid) :
    Handover cfg s (.call n (.sent result)) [⟨.call n, op.frame cid, s.state⟩]
  | close {n : Nat} {cid : UInt32} {result : Result Unit} (here : s.control = .closeWrite n cid) :
    Handover cfg s (.control (.sent result)) [⟨.close, closeFrame cid, s.state⟩]
  | heartbeat {now : Int} {result : Result Unit} (here : s.heartbeat = .write now) :
    Handover cfg s (.heartbeat (.sent result)) [⟨.heartbeat, heartbeatFrame, s.state⟩]

theorem handshake_entry {state : ConnectionState} {trace : List Event} {w : WireEntry}
    (member : w ∈ trace.filterMap (handshakeEntry state)) : w.source = .handshake ∧ w.state = state := by
  obtain ⟨event, _, found⟩ := List.mem_filterMap.mp member
  cases event <;> cases found
  exact ⟨rfl, rfl⟩

theorem handshakeStep_wire (cfg : ConnectionConfig) (s : Client) (replies : List Reply) :
    (handshakeStep cfg s replies).wire = s.wire ++
      ((runHandshake cfg).run ⟨replies, []⟩).2.trace.filterMap (handshakeEntry s.state) := by
  unfold handshakeStep
  rcases (runHandshake cfg).run ⟨replies, []⟩ with ⟨e | result, ch⟩ <;> rfl

theorem step_handover {a : Action} (run : step cfg s a = some s') :
    ∃ frames, Handover cfg s a frames ∧ s'.wire = s.wire ++ frames := by
  have unchanged : s'.wire = s.wire → ∃ frames, Handover cfg s a frames ∧ s'.wire = s.wire ++ frames :=
    fun same => ⟨[], .nothing a, by rw [same, List.append_nil]⟩
  rcases step_threads run with ⟨_, _, _, _, _, rfl⟩ | ⟨n, input, rfl, run⟩ | ⟨input, rfl, run⟩ |
    ⟨input, rfl, run⟩ | ⟨input, rfl, run⟩
  · exact unchanged rfl
  · cases callStep_move run with
    | writeFailed here | write here => exact ⟨_, .call here, rfl⟩
    | _ => exact unchanged rfl
  · cases controlStep_move run with
    | @handshake replies here => exact ⟨_, .handshake here, handshakeStep_wire cfg s replies⟩
    | closeWrite here => exact ⟨_, .close here, rfl⟩
    | _ => exact unchanged rfl
  · obtain ⟨_, _, _, _, _, _, _, _, _, rfl⟩ := ioStep_writes run
    exact unchanged rfl
  · cases heartbeatStep_move run with
    | write here => exact ⟨_, .heartbeat here, rfl⟩
    | _ => exact unchanged rfl

inductive Settles (s : Client) : Settlement → Prop where
  | expired {now : Int} {next : AfterReap} {e : PendingEntry} (here : s.io = .reaping now next)
      (held : e ∈ s.dispatcher.held .io) : Settles s ⟨e, .expired now⟩
  | answered {index : Nat} {frame : IncomingFrame} {e : PendingEntry} (here : s.io = .dispatching index frame)
      (held : e ∈ s.dispatcher.held .io) : Settles s ⟨e, .response index frame⟩
  | failed {error : StreamError} {ending : Ending} {e : PendingEntry} (here : s.io = .failing error ending)
      (held : e ∈ s.dispatcher.held .io) : Settles s ⟨e, .failed error⟩
  | closed {e : PendingEntry} (here : s.control = .closeFailing) (held : e ∈ s.dispatcher.held .control) :
    Settles s ⟨e, .failed connectionClosed⟩

theorem step_settles {a : Action} (run : step cfg s a = some s') :
    s'.dispatcher.settled = s.dispatcher.settled ∨
      ∃ x, s'.dispatcher.settled = s.dispatcher.settled ++ [x] ∧ Settles s x := by
  rcases step_threads run with ⟨_, _, _, _, _, rfl⟩ | ⟨n, input, rfl, run⟩ | ⟨input, rfl, run⟩ |
    ⟨input, rfl, run⟩ | ⟨input, rfl, run⟩
  · exact .inl rfl
  · cases callStep_move run with
    | register => exact .inl (Dispatcher.settled_register _ _)
    | _ => exact .inl rfl
  · cases controlStep_move run with
    | handshake => exact .inl (by rw [handshakeStep_dispatcher])
    | closeRegister => exact .inl (Dispatcher.settled_register _ _)
    | closeFailOne here settle =>
      obtain ⟨e, held, _, rfl⟩ := Dispatcher.settle_eq settle
      exact .inr ⟨_, rfl, .closed here held⟩
    | _ => exact .inl rfl
  · cases ioStep_move run with
    | expire here settle =>
      obtain ⟨e, held, _, rfl⟩ := Dispatcher.settle_eq settle
      exact .inr ⟨_, rfl, .expired here held⟩
    | answer here settle =>
      obtain ⟨e, held, _, rfl⟩ := Dispatcher.settle_eq settle
      exact .inr ⟨_, rfl, .answered here held⟩
    | failOne here settle =>
      obtain ⟨e, held, _, rfl⟩ := Dispatcher.settle_eq settle
      exact .inr ⟨_, rfl, .failed here held⟩
    | dispatch => exact .inl (Dispatcher.settled_dispatchTake _ _)
    | _ => exact .inl rfl
  · obtain ⟨_, _, _, rfl⟩ := heartbeatStep_writes run
    exact .inl rfl

end Client

/-! ## How far the connection has come -/

/-- The state and the background threads, by where the control thread stands. A
connection is made once: nothing leads back to `Disconnected`. -/
def ControlPc.Staged (s : Client) : ControlPc → Prop
  | .connectTcp | .connectHandshake | .connectAbort _ | .connectOpen =>
    s.state = .connecting ∧ s.io = .notStarted ∧ s.heartbeat = .notStarted
  | .connectStamp | .connectFlags | .connectStartIo =>
    s.state = .open ∧ s.io = .notStarted ∧ s.heartbeat = .notStarted
  | .connectStartHeartbeat =>
    (s.state = .open ∨ s.state = .closed) ∧ s.io ≠ .notStarted ∧ s.heartbeat = .notStarted
  | .closeAllocate _ | .closeDeadline _ _ | .closeRegister _ _ _ | .closeWrite _ _ | .closeWritten _
  | .closeWait _ _ | .closeStop | .closeSocket | .closeJoinIo | .closeJoinHeartbeat | .closeFail
  | .closeFailing | .closeFinish =>
    s.state = .closing ∧ s.io ≠ .notStarted
  | _ =>
    (s.state = .disconnected ∧ s.io = .notStarted ∧ s.heartbeat = .notStarted) ∨
      (s.state = .open ∧ s.io ≠ .notStarted) ∨ s.state = .closed

def CallPc.Outside : CallPc → Prop
  | .idle | .close | .requireOpen _ => True
  | .returned _ (.error _) => True
  | _ => False

namespace Client
variable {cfg : ConnectionConfig} {s s' : Client} {input : Input}

theorem callStep_outside {n : Nat} (run : callStep cfg s n input = some s') (outside : (s.calls n).Outside)
    (shut : s.state ≠ .open) : (s'.calls n).Outside ∧ s'.wire = s.wire := by
  cases callStep_move run <;> simp_all [setCall, CallPc.Outside]

/-- The I/O thread moves only after it was started, and changes the state only to
`Closed`, never over the head of a `close`. -/
theorem ioStep_staged (run : ioStep s input = some s') :
    s.io ≠ .notStarted ∧ s'.io ≠ .notStarted ∧
      (s'.state = s.state ∨ (s.state ≠ .closed ∧ s.state ≠ .closing) ∧ s'.state = .closed) := by
  cases ioStep_move run with
  | @reaped _ next here => cases next <;> simp [here, afterReap]
  | _ => simp_all <;> grind

theorem heartbeatStep_staged (run : heartbeatStep s input = some s') :
    s.heartbeat ≠ .notStarted ∧ s'.heartbeat ≠ .notStarted := by
  cases heartbeatStep_move run <;> simp_all <;> grind

theorem controlStep_staged (staged : s.control.Staged s) (run : controlStep cfg s input = some s') :
    s'.control.Staged s' := by
  cases controlStep_move run with
  | @handshake replies =>
    obtain ⟨frames, ⟨e, same⟩ | ⟨frameMax, interval, same⟩⟩ := handshakeStep_eq cfg s replies <;>
      simp_all [ControlPc.Staged]
  | _ => simp_all [ControlPc.Staged, finish, write]

theorem step_staged {a : Action} (staged : s.control.Staged s) (run : step cfg s a = some s') :
    s'.control.Staged s' := by
  cases a with
  | tick | onUnexpectedClose =>
    cases run
    exact staged
  | invoke n op =>
    obtain ⟨_, rfl⟩ := step_invoke run
    exact staged
  | connect =>
    obtain ⟨idle, ⟨e, rfl⟩ | rfl⟩ := step_connect run <;>
      simpa only [finish, idle, ControlPc.Staged] using staged
  | close n =>
    obtain ⟨idle, _, rfl⟩ := step_close run
    simpa only [setCall, idle, ControlPc.Staged] using staged
  | destroy =>
    obtain ⟨idle, rfl⟩ := step_destroy run
    simpa only [idle, ControlPc.Staged] using staged
  | call n input =>
    obtain ⟨_, _, _, _, rfl⟩ := callStep_writes run
    exact staged
  | control input => exact controlStep_staged staged run
  | io input =>
    -- By then the control thread has started it, and only `Open` turns into `Closed`.
    obtain ⟨before, after, state⟩ := ioStep_staged run
    obtain ⟨_, _, _, _, _, _, _, _, _, rfl⟩ := ioStep_writes run
    cases here : s.control <;> simp_all [ControlPc.Staged] <;> grind
  | heartbeat input =>
    obtain ⟨before, _⟩ := heartbeatStep_staged run
    obtain ⟨_, _, _, rfl⟩ := heartbeatStep_writes run
    cases here : s.control <;> simp_all [ControlPc.Staged]

end Client

theorem reach_staged {cfg : ConnectionConfig} {allowed : Client → Action → Prop} {s : Client}
    (reach : (client cfg).Reach allowed s) : s.control.Staged s := by
  refine reach.invariant (fun s => s.control.Staged s) ?_ ?_
  · rintro _ rfl
    exact .inl ⟨rfl, rfl, rfl⟩
  · intro s a s' _ staged _ run
    exact Client.step_staged staged run

end RmqStream
