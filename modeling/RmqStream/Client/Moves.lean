import RmqStream.Client.Machine

/-! The steps of each thread as relations: one constructor for each branch of the step
function, with its guards and the state it leaves.

Properties of a thread are proved by cases on its moves, so that a branch is referred
to by name and the step functions are taken apart here only. -/

set_option autoImplicit false

namespace RmqStream
open Library

namespace Client
variable {cfg : ConnectionConfig} {s s' : Client} {input : Input}

inductive CallMove (cfg : ConnectionConfig) (s : Client) (n : Nat) : Input → Client → Prop where
  | refused {op : Op} (here : s.calls n = .requireOpen op) (state : s.state ≠ .open) :
    CallMove cfg s n .none (s.setCall n (.returned op (.error notOpen)))
  | admitted {op : Op} (here : s.calls n = .requireOpen op) (state : s.state = .open) :
    CallMove cfg s n .none (s.setCall n (.checkArguments op))
  | rejected {op : Op} {e : StreamError} (here : s.calls n = .checkArguments op)
      (check : op.checkArguments = .error e) :
    CallMove cfg s n .none (s.setCall n (.returned op (.error e)))
  | accepted {op : Op} (here : s.calls n = .checkArguments op) (check : op.checkArguments = .ok ()) :
    CallMove cfg s n .none (s.setCall n (if op.isOneway then .touch op 0 else .allocate op))
  | allocate {op : Op} (here : s.calls n = .allocate op) :
    CallMove cfg s n .none { s.setCall n (.deadline op s.dispatcher.nextAppCid) with
      dispatcher := s.dispatcher.allocate n }
  | deadline {op : Op} {cid : UInt32} (here : s.calls n = .deadline op cid) :
    CallMove cfg s n .none (s.setCall n (.register op cid (deadlineAfter s.now cfg.requestTimeout)))
  | register {op : Op} {cid : UInt32} {deadline : Int} (here : s.calls n = .register op cid deadline) :
    CallMove cfg s n .none { s.setCall n (.checkSize op cid) with
      dispatcher := s.dispatcher.registerPending ⟨n, cid, deadline⟩ }
  | tooLarge {op : Op} {cid : UInt32} {e : StreamError} (here : s.calls n = .checkSize op cid)
      (check : checkOutboundFrameSize ((op.frame cid).length - 4) s.negotiatedFrameMax = .error e) :
    CallMove cfg s n .none (s.setCall n (.returned op (.error e)))
  | fits {op : Op} {cid : UInt32} (here : s.calls n = .checkSize op cid)
      (check : checkOutboundFrameSize ((op.frame cid).length - 4) s.negotiatedFrameMax = .ok ()) :
    CallMove cfg s n .none (s.setCall n (.touch op cid))
  | touch {op : Op} {cid : UInt32} (here : s.calls n = .touch op cid) :
    CallMove cfg s n .none { s.setCall n (.write op cid) with lastOutbound := s.now }
  | writeFailed {op : Op} {cid : UInt32} {e : StreamError} (here : s.calls n = .write op cid) :
    CallMove cfg s n (.sent (.error e))
      ((s.write (.call n) (op.frame cid)).setCall n (.returned op (.error e)))
  | write {op : Op} {cid : UInt32} (here : s.calls n = .write op cid) :
    CallMove cfg s n (.sent (.ok ())) ((s.write (.call n) (op.frame cid)).setCall n
      (if op.isOneway then .returned op (.ok .done) else .written op cid))
  | written {op : Op} {cid : UInt32} (here : s.calls n = .written op cid) :
    CallMove cfg s n .none (s.setCall n (.wait op cid s.now))
  | answered {op : Op} {cid : UInt32} {since : Int} {frame : IncomingFrame}
      (here : s.calls n = .wait op cid since) (value : s.dispatcher.value n = some (.ok frame)) :
    CallMove cfg s n .none (s.setCall n (.answered op cid frame))
  | failed {op : Op} {cid : UInt32} {since : Int} {e : StreamError}
      (here : s.calls n = .wait op cid since) (value : s.dispatcher.value n = some (.error e)) :
    CallMove cfg s n .none (s.setCall n (.returned op (.error e)))
  | threw {op : Op} {cid : UInt32} {since : Int} (here : s.calls n = .wait op cid since)
      (value : s.dispatcher.value n = none) (broken : s.dispatcher.isBroken n = true) :
    CallMove cfg s n .none (s.setCall n (.threw op))
  | timedOut {op : Op} {cid : UInt32} {since : Int} (here : s.calls n = .wait op cid since)
      (value : s.dispatcher.value n = none) (whole : ¬ s.dispatcher.isBroken n = true)
      (late : s.waitedOut cfg since) :
    CallMove cfg s n .none (s.setCall n (.returned op (.error requestTimedOut)))
  | finish {op : Op} {cid : UInt32} {frame : IncomingFrame} (here : s.calls n = .answered op cid frame) :
    CallMove cfg s n .none (s.setCall n (.returned op (op.finish frame)))

theorem callStep_move {n : Nat} (run : callStep cfg s n input = some s') : CallMove cfg s n input s' := by
  revert run
  fun_cases callStep cfg s n input <;> intro run <;> cases run
  case case1.refl here state => exact .refused here state
  case case2.refl here state => exact .admitted here (not_not.mp state)
  case case3.refl here _ check => exact .rejected here check
  case case4.refl here _ check => exact .accepted here check
  case case5.refl here => exact .allocate here
  case case6.refl here => exact .deadline here
  case case7.refl here => exact .register here
  case case8.refl here _ check => exact .tooLarge here check
  case case9.refl here _ check => exact .fits here check
  case case10.refl here => exact .touch here
  case case11.refl here _ => exact .writeFailed here
  case case12.refl here _ => exact .write here
  case case13.refl here => exact .written here
  case case14.refl here _ value => exact .answered here value
  case case15.refl here _ value => exact .failed here value
  case case16.refl here value broken => exact .threw here value broken
  case case17.refl here value whole late => exact .timedOut here value whole late
  case case19.refl here => exact .finish here

/-! ## The I/O thread -/

inductive IoMove (s : Client) : Input → Client → Prop where
  | top (here : s.io = .top) : IoMove s .none { s with io := if s.stopIo then .leaving else .reading }
  | frame {frame : IncomingFrame} (here : s.io = .reading) : IoMove s (.read (.ok frame)) { s with
      io := .arrived s.inbound frame, inbound := s.inbound + 1, closingAtRead := s.closing }
  | timeout {e : StreamError} (here : s.io = .reading) (kind : e.kind = .requestTimeout) :
    IoMove s (.read (.error e)) { s with io := .timedOut, closingAtRead := s.closing }
  | readError {e : StreamError} (here : s.io = .reading) (kind : e.kind ≠ .requestTimeout) :
    IoMove s (.read (.error e)) { s with
      io := .fail e .readError, closingAtRead := s.closing, ended := some (.readError, e) }
  | deadline (here : s.io = .timedOut) (silent : s.silent) : IoMove s .none { s with
      io := .fail heartbeatTimeout .heartbeat, ended := some (.heartbeat, heartbeatTimeout) }
  | wakeup (here : s.io = .timedOut) (alive : ¬ s.silent) :
    IoMove s .none { s with io := .reap s.now .loop }
  | stamp {index : Nat} {frame : IncomingFrame} (here : s.io = .arrived index frame) :
    IoMove s .none { s with io := .stamped index frame, lastInbound := s.now }
  | clock {index : Nat} {frame : IncomingFrame} (here : s.io = .stamped index frame) :
    IoMove s .none { s with io := .reap s.now (.dispatch index frame) }
  | reap {now : Int} {next : AfterReap} (here : s.io = .reap now next) :
    IoMove s .none { s with io := .reaping now next, dispatcher := s.dispatcher.reapTake now }
  | expire {now : Int} {next : AfterReap} {pick : Nat} {table : Dispatcher}
      (here : s.io = .reaping now next)
      (settle : s.dispatcher.settle .io pick (.expired now) = some table) :
    IoMove s (.pick pick) { s with dispatcher := table }
  | reaped {now : Int} {next : AfterReap} (here : s.io = .reaping now next)
      (done : s.dispatcher.held .io = []) : IoMove s .none { s with io := afterReap next }
  | dispatch {index : Nat} {frame : IncomingFrame} (here : s.io = .dispatch index frame) :
    IoMove s .none { s with
      io := .dispatching index frame, dispatcher := s.dispatcher.dispatchTake frame }
  | answer {index : Nat} {frame : IncomingFrame} {pick : Nat} {table : Dispatcher}
      (here : s.io = .dispatching index frame)
      (settle : s.dispatcher.settle .io pick (.response index frame) = some table) :
    IoMove s (.pick pick) { s with dispatcher := table }
  | dispatched {index : Nat} {frame : IncomingFrame} (here : s.io = .dispatching index frame)
      (done : s.dispatcher.held .io = []) : IoMove s .none { s with io := .top }
  | fail {e : StreamError} {ending : Ending} (here : s.io = .fail e ending) : IoMove s .none { s with
      io := .failing e ending, dispatcher := s.dispatcher.failAllTake .io }
  | failOne {e : StreamError} {ending : Ending} {pick : Nat} {table : Dispatcher}
      (here : s.io = .failing e ending)
      (settle : s.dispatcher.settle .io pick (.failed e) = some table) :
    IoMove s (.pick pick) { s with dispatcher := table }
  | failedDeadline {e : StreamError} (here : s.io = .failing e .heartbeat)
      (done : s.dispatcher.held .io = []) : IoMove s .none { s with io := .notify heartbeatEvent }
  | failedRead {e : StreamError} (here : s.io = .failing e .readError)
      (done : s.dispatcher.held .io = []) : IoMove s .none { s with io := .readClosing e }
  | readClosing {e : StreamError} (here : s.io = .readClosing e) :
    IoMove s .none { s with io := if s.closing then .leaving else .notify (readErrorEvent e) }
  | firedBefore {event : UnexpectedClose} (here : s.io = .notify event) (fired : s.unexpectedFired = true) :
    IoMove s .none { s with io := .leaving }
  | fire {event : UnexpectedClose} (here : s.io = .notify event) (fired : ¬ s.unexpectedFired = true) :
    IoMove s .none { s with io := .fetchCallback event, unexpectedFired := true }
  | fetchCallback {event : UnexpectedClose} (here : s.io = .fetchCallback event) :
    IoMove s .none { s with
      io := .leaving, callbacks := if s.callback then s.callbacks ++ [event] else s.callbacks }
  | leave (here : s.io = .leaving) : IoMove s .none { s with
      io := .finished
      state := if s.state ≠ .closed ∧ s.state ≠ .closing then .closed else s.state }

theorem ioSettle_eq {pick : Nat} {cause : Cause} (run : s.ioSettle pick cause = some s') :
    ∃ table, s.dispatcher.settle .io pick cause = some table ∧ s' = { s with dispatcher := table } := by
  obtain ⟨table, settle, same⟩ := Option.map_eq_some_iff.mp run
  exact ⟨table, settle, same.symm⟩

theorem ioDone_eq {next : IoPc} (run : s.ioDone next = some s') :
    s.dispatcher.held .io = [] ∧ s' = { s with io := next } := by
  unfold ioDone at run
  split at run
  next done =>
    cases run
    exact ⟨done, rfl⟩
  · simp at run

theorem ioStep_move (run : ioStep s input = some s') : IoMove s input s' := by
  revert run
  fun_cases ioStep s input <;> intro run
  case case1 here => cases run; exact .top here
  case case2 here => cases run; exact .frame here
  case case3 here kind => cases run; exact .timeout here kind
  case case4 here kind => cases run; exact .readError here kind
  case case5 here silent => cases run; exact .deadline here silent
  case case6 here alive => cases run; exact .wakeup here alive
  case case7 here => cases run; exact .stamp here
  case case8 here => cases run; exact .clock here
  case case9 here => cases run; exact .reap here
  case case10 here =>
    obtain ⟨table, settle, rfl⟩ := ioSettle_eq run
    exact .expire here settle
  case case11 here =>
    obtain ⟨done, rfl⟩ := ioDone_eq run
    exact .reaped here done
  case case12 here => cases run; exact .dispatch here
  case case13 here =>
    obtain ⟨table, settle, rfl⟩ := ioSettle_eq run
    exact .answer here settle
  case case14 here =>
    obtain ⟨done, rfl⟩ := ioDone_eq run
    exact .dispatched here done
  case case15 here => cases run; exact .fail here
  case case16 here =>
    obtain ⟨table, settle, rfl⟩ := ioSettle_eq run
    exact .failOne here settle
  case case17 here =>
    obtain ⟨done, rfl⟩ := ioDone_eq run
    exact .failedDeadline here done
  case case18 here =>
    obtain ⟨done, rfl⟩ := ioDone_eq run
    exact .failedRead here done
  case case19 here => cases run; exact .readClosing here
  case case20 here fired => cases run; exact .firedBefore here fired
  case case21 here fired => cases run; exact .fire here fired
  case case22 here => cases run; exact .fetchCallback here
  case case23 here => cases run; exact .leave here
  case case24 => cases run

inductive HeartbeatMove (s : Client) : Input → Client → Prop where
  | top (here : s.heartbeat = .top) : HeartbeatMove s .none { s with
      heartbeat := if s.stopIo then .finished else .sleeping s.now }
  | wake {since : Int} (here : s.heartbeat = .sleeping since) (slept : s.elapsed since 500) :
    HeartbeatMove s .none { s with heartbeat := .woken }
  | woken (here : s.heartbeat = .woken) : HeartbeatMove s .none { s with
      heartbeat := if s.stopIo then .finished else .compare s.now }
  | compare {now : Int} (here : s.heartbeat = .compare now) : HeartbeatMove s .none { s with
      heartbeat :=
        if now - s.lastOutbound ≥ (s.negotiatedHeartbeat.toNat : Int) * 1000 then .write now else .top }
  | write {now : Int} {result : Result Unit} (here : s.heartbeat = .write now) :
    HeartbeatMove s (.sent result) { s.write .heartbeat heartbeatFrame with heartbeat := .stamp now }
  | stamp {now : Int} (here : s.heartbeat = .stamp now) :
    HeartbeatMove s .none { s with heartbeat := .top, lastOutbound := now }

theorem heartbeatStep_move (run : heartbeatStep s input = some s') : HeartbeatMove s input s' := by
  revert run
  fun_cases heartbeatStep s input <;> intro run <;> cases run
  case case1.refl here => exact .top here
  case case2.refl here slept => exact .wake here slept
  case case4.refl here => exact .woken here
  case case5.refl here => exact .compare here
  case case6.refl here => exact .write here
  case case7.refl here => exact .stamp here

/-! ## The control thread -/

inductive ControlMove (cfg : ConnectionConfig) (s : Client) : Input → Client → Prop where
  | connectRefused (here : s.control = .connectLock) (state : s.state ≠ .disconnected) :
    ControlMove cfg s .none (s.finish .connect (.error alreadyConnecting))
  | connectLock (here : s.control = .connectLock) (state : s.state = .disconnected) :
    ControlMove cfg s .none { s with state := .connecting, control := .connectTcp }
  | tcpFailed {e : StreamError} (here : s.control = .connectTcp) :
    ControlMove cfg s (.tcp (.error e)) { s with control := .connectAbort e }
  | tcp (here : s.control = .connectTcp) :
    ControlMove cfg s (.tcp (.ok ())) { s with socketOpen := true, control := .connectHandshake }
  | handshake {replies : List Reply} (here : s.control = .connectHandshake) :
    ControlMove cfg s (.script replies) (handshakeStep cfg s replies)
  | connectAbort {e : StreamError} (here : s.control = .connectAbort e) :
    ControlMove cfg s .none (finish { s with state := .closed } .connect (.error e))
  | connectOpen (here : s.control = .connectOpen) :
    ControlMove cfg s .none { s with state := .open, closing := false, control := .connectStamp }
  | connectStamp (here : s.control = .connectStamp) : ControlMove cfg s .none { s with
      lastInbound := s.now, lastOutbound := s.now, control := .connectFlags }
  | connectFlags (here : s.control = .connectFlags) : ControlMove cfg s .none { s with
      stopIo := false, unexpectedFired := false, control := .connectStartIo }
  | startIo (here : s.control = .connectStartIo) :
    ControlMove cfg s .none { s with io := .top, control := .connectStartHeartbeat }
  | startHeartbeat (here : s.control = .connectStartHeartbeat) : ControlMove cfg s .none
      (finish { s with heartbeat := if s.negotiatedHeartbeat > 0 then .top else .notStarted }
        .connect (.ok ()))
  | closeRefused {n : Nat} (here : s.control = .closeLock n) (state : s.state ≠ .open) :
    ControlMove cfg s .none (s.finish .close (.error closeNotOpen))
  | closeLock {n : Nat} (here : s.control = .closeLock n) (state : s.state = .open) :
    ControlMove cfg s .none { s with state := .closing, closing := true, control := .closeAllocate n }
  | closeAllocate {n : Nat} (here : s.control = .closeAllocate n) : ControlMove cfg s .none { s with
      control := .closeDeadline n s.dispatcher.nextAppCid, dispatcher := s.dispatcher.allocate n }
  | closeDeadline {n : Nat} {cid : UInt32} (here : s.control = .closeDeadline n cid) :
    ControlMove cfg s .none { s with control := .closeRegister n cid (deadlineAfter s.now cfg.requestTimeout) }
  | closeRegister {n : Nat} {cid : UInt32} {deadline : Int} (here : s.control = .closeRegister n cid deadline) :
    ControlMove cfg s .none { s with
      control := .closeWrite n cid, dispatcher := s.dispatcher.registerPending ⟨n, cid, deadline⟩ }
  | closeWrite {n : Nat} {cid : UInt32} {result : Result Unit} (here : s.control = .closeWrite n cid) :
    ControlMove cfg s (.sent result) { s.write .close (closeFrame cid) with control := .closeWritten n }
  | closeWritten {n : Nat} (here : s.control = .closeWritten n) :
    ControlMove cfg s .none { s with control := .closeWait n s.now }
  | closeWait {n : Nat} {since : Int} (here : s.control = .closeWait n since)
      (ready : (s.dispatcher.value n).isSome ∨ s.dispatcher.isBroken n ∨ s.waitedOut cfg since) :
    ControlMove cfg s .none { s with control := .closeStop }
  | closeStop (here : s.control = .closeStop) :
    ControlMove cfg s .none { s with stopIo := true, control := .closeSocket }
  | closeSocket (here : s.control = .closeSocket) :
    ControlMove cfg s .none { s with socketOpen := false, control := .closeJoinIo }
  | closeJoinIo (here : s.control = .closeJoinIo) (ended : s.io = .finished ∨ s.io = .notStarted) :
    ControlMove cfg s .none { s with control := .closeJoinHeartbeat }
  | closeJoinHeartbeat (here : s.control = .closeJoinHeartbeat)
      (ended : s.heartbeat = .finished ∨ s.heartbeat = .notStarted) :
    ControlMove cfg s .none { s with control := .closeFail }
  | closeFail (here : s.control = .closeFail) : ControlMove cfg s .none { s with
      control := .closeFailing, dispatcher := s.dispatcher.failAllTake .control }
  | closeFailOne {pick : Nat} {table : Dispatcher} (here : s.control = .closeFailing)
      (settle : s.dispatcher.settle .control pick (.failed connectionClosed) = some table) :
    ControlMove cfg s (.pick pick) { s with dispatcher := table }
  | closeFailed (here : s.control = .closeFailing) (done : s.dispatcher.held .control = []) :
    ControlMove cfg s .none { s with control := .closeFinish }
  | closeFinish (here : s.control = .closeFinish) :
    ControlMove cfg s .none (finish { s with state := .closed } .close (.ok ()))
  | destroyLock (here : s.control = .destroyLock) : ControlMove cfg s .none { s with
      closing := if s.state = .open then true else s.closing, control := .destroyStop }
  | destroyStop (here : s.control = .destroyStop) :
    ControlMove cfg s .none { s with stopIo := true, control := .destroyJoinIo }
  | destroyJoinIo (here : s.control = .destroyJoinIo) (ended : s.io = .finished ∨ s.io = .notStarted) :
    ControlMove cfg s .none { s with control := .destroyJoinHeartbeat }
  | destroyJoinHeartbeat (here : s.control = .destroyJoinHeartbeat)
      (ended : s.heartbeat = .finished ∨ s.heartbeat = .notStarted) :
    ControlMove cfg s .none { s with control := .destroySocket }
  | destroySocket (here : s.control = .destroySocket) :
    ControlMove cfg s .none { s with socketOpen := false, control := .destroyed }

theorem controlStep_move (run : controlStep cfg s input = some s') : ControlMove cfg s input s' := by
  revert run
  fun_cases controlStep cfg s input <;> intro run
  case case1 here state => cases run; exact .connectRefused here state
  case case2 here state => cases run; exact .connectLock here (not_not.mp state)
  case case3 here => cases run; exact .tcpFailed here
  case case4 here => cases run; exact .tcp here
  case case5 here => cases run; exact .handshake here
  case case6 here => cases run; exact .connectAbort here
  case case7 here => cases run; exact .connectOpen here
  case case8 here => cases run; exact .connectStamp here
  case case9 here => cases run; exact .connectFlags here
  case case10 here => cases run; exact .startIo here
  case case11 here => cases run; exact .startHeartbeat here
  case case12 here state => cases run; exact .closeRefused here state
  case case13 here state => cases run; exact .closeLock here (not_not.mp state)
  case case14 here => cases run; exact .closeAllocate here
  case case15 here => cases run; exact .closeDeadline here
  case case16 here => cases run; exact .closeRegister here
  case case17 here => cases run; exact .closeWrite here
  case case18 here => cases run; exact .closeWritten here
  case case19 here ready => cases run; exact .closeWait here ready
  case case21 here => cases run; exact .closeStop here
  case case22 here => cases run; exact .closeSocket here
  case case23 here ended => cases run; exact .closeJoinIo here ended
  case case25 here ended => cases run; exact .closeJoinHeartbeat here ended
  case case27 here => cases run; exact .closeFail here
  case case28 here =>
    obtain ⟨table, settle, same⟩ := Option.map_eq_some_iff.mp run
    rw [← same]
    exact .closeFailOne here settle
  case case29 here done => cases run; exact .closeFailed here done
  case case31 here => cases run; exact .closeFinish here
  case case32 here => cases run; exact .destroyLock here
  case case33 here => cases run; exact .destroyStop here
  case case34 here ended => cases run; exact .destroyJoinIo here ended
  case case36 here ended => cases run; exact .destroyJoinHeartbeat here ended
  case case38 here => cases run; exact .destroySocket here
  all_goals cases run

end Client
end RmqStream
