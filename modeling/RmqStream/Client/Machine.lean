import RmqStream.Client.Operations
import RmqStream.Dispatcher

/-! `StreamClient` of `src/client.cpp` as a machine of concurrent threads.

There is one control thread, which makes the calls of `connect`, `close` and the
destructor, any number of threads inside a lifecycle call, the I/O thread and the
heartbeat thread. The control calls run one after the other: they assign and join
`io_thread_`, which no lock protects, and one that overlaps another before that point
is refused under `state_mu_` without any effect.

A step of the machine is one critical section, one atomic access, one system call or
one reading of the clock of one thread. Blocking is the absence of a step. What the
network, the clock and the scheduler do is in the labels: a `write_all` or a `read_frame`
that never returns is a thread that never takes its step, and that it returns is an
assumption of every result that needs it.

The handshake runs as one step: while it is under way the state is `Connecting`,
neither background thread exists and every lifecycle call is refused. A handshake whose
peer never stops asking, or never answers, is a step that is never taken. -/

set_option autoImplicit false

namespace RmqStream
open Library Commands

inductive ConnectionState where
  | disconnected | connecting | «open» | closing | closed
  deriving DecidableEq, Repr

inductive CloseReason where
  | peerClosedSocket | heartbeatTimeout | protocolViolation | ioError
  deriving DecidableEq, Repr

structure UnexpectedClose where
  reason : CloseReason
  message : Bytes
  duringHandshake : Bool := false
  deriving DecidableEq, Repr

/-! ## Where each thread stands -/

/-- A lifecycle call: `require_open`, the reference check, then `send_and_wait` or,
for a one-way operation, the last two steps of it. -/
inductive CallPc where
  | idle
  /-- The number belongs to a call of `close`. -/
  | close
  | requireOpen (op : Op)
  | checkArguments (op : Op)
  | allocate (op : Op)
  | deadline (op : Op) (cid : UInt32)
  | register (op : Op) (cid : UInt32) (deadline : Int)
  | checkSize (op : Op) (cid : UInt32)
  | touch (op : Op) (cid : UInt32)
  | write (op : Op) (cid : UInt32)
  | written (op : Op) (cid : UInt32)
  | wait (op : Op) (cid : UInt32) (since : Int)
  /-- `send_and_wait` returned this frame. -/
  | answered (op : Op) (cid : UInt32) (frame : IncomingFrame)
  | returned (op : Op) (result : Result Value)
  /-- `get` threw because the promise was destroyed. -/
  | threw (op : Op)
  deriving DecidableEq, Repr

inductive AfterReap where
  | loop
  | dispatch (index : Nat) (frame : IncomingFrame)
  deriving DecidableEq, Repr

/-- The branches of `io_loop` that end it with `fail_all_pending`. -/
inductive Ending where
  | heartbeat
  | readError
  deriving DecidableEq, Repr

inductive IoPc where
  | notStarted
  | top
  | reading
  | timedOut
  | arrived (index : Nat) (frame : IncomingFrame)
  | stamped (index : Nat) (frame : IncomingFrame)
  | reap (now : Int) (next : AfterReap)
  | reaping (now : Int) (next : AfterReap)
  | dispatch (index : Nat) (frame : IncomingFrame)
  | dispatching (index : Nat) (frame : IncomingFrame)
  | fail (error : StreamError) (ending : Ending)
  | failing (error : StreamError) (ending : Ending)
  | readClosing (error : StreamError)
  | notify (event : UnexpectedClose)
  | fetchCallback (event : UnexpectedClose)
  | leaving
  | finished
  deriving DecidableEq, Repr

inductive HeartbeatPc where
  | notStarted
  | top
  | sleeping (since : Int)
  | woken
  | compare (now : Int)
  | write (now : Int)
  | stamp (now : Int)
  | finished
  deriving DecidableEq, Repr

inductive ControlPc where
  | idle
  | connectLock
  | connectTcp
  | connectHandshake
  | connectAbort (error : StreamError)
  | connectOpen
  | connectStamp
  | connectFlags
  | connectStartIo
  | connectStartHeartbeat
  | closeLock (n : Nat)
  | closeAllocate (n : Nat)
  | closeDeadline (n : Nat) (cid : UInt32)
  | closeRegister (n : Nat) (cid : UInt32) (deadline : Int)
  | closeWrite (n : Nat) (cid : UInt32)
  | closeWritten (n : Nat)
  | closeWait (n : Nat) (since : Int)
  | closeStop
  | closeSocket
  | closeJoinIo
  | closeJoinHeartbeat
  | closeFail
  | closeFailing
  | closeFinish
  | destroyLock
  | destroyStop
  | destroyJoinIo
  | destroyJoinHeartbeat
  | destroySocket
  | destroyed
  deriving DecidableEq, Repr

inductive ControlCall where
  | connect | close
  deriving DecidableEq, Repr

/-! ## The state -/

inductive Source where
  | handshake
  | call (n : Nat)
  | close
  | heartbeat
  deriving DecidableEq, Repr

/-- A frame handed to the socket, by whom, and the connection state at that moment. -/
structure WireEntry where
  source : Source
  frame : Bytes
  state : ConnectionState
  deriving DecidableEq, Repr

structure Client where
  now : Int := 0
  state : ConnectionState := .disconnected
  closing : Bool := false
  socketOpen : Bool := false
  stopIo : Bool := false
  unexpectedFired : Bool := false
  /-- Whether a non-empty callback is registered. -/
  callback : Bool := false
  negotiatedFrameMax : UInt32 := 0
  negotiatedHeartbeat : UInt32 := 0
  lastInbound : Int := 0
  lastOutbound : Int := 0
  dispatcher : Dispatcher := {}
  control : ControlPc := .idle
  calls : Nat → CallPc := fun _ => .idle
  io : IoPc := .notStarted
  heartbeat : HeartbeatPc := .notStarted
  -- The remaining fields only record what happened.
  wire : List WireEntry := []
  callbacks : List UnexpectedClose := []
  inbound : Nat := 0
  closingAtRead : Bool := false
  ended : Option (Ending × StreamError) := none
  returned : List (ControlCall × Result Unit) := []

inductive Input where
  | none
  | pick (i : Nat)
  | sent (result : Result Unit)
  | tcp (result : Result Unit)
  | script (replies : List Reply)
  | read (reply : Reply)
  deriving DecidableEq, Repr

inductive Action where
  | tick (milliseconds : Nat)
  | onUnexpectedClose (registered : Bool)
  | invoke (n : Nat) (op : Op)
  | connect
  | close (n : Nat)
  | destroy
  | call (n : Nat) (input : Input)
  | control (input : Input)
  | io (input : Input)
  | heartbeat (input : Input)
  deriving DecidableEq, Repr

namespace Client

def setCall (s : Client) (n : Nat) (pc : CallPc) : Client := { s with calls := Function.update s.calls n pc }

def write (s : Client) (source : Source) (frame : Bytes) : Client :=
  { s with wire := s.wire ++ [⟨source, frame, s.state⟩] }

def elapsed (s : Client) (since duration : Int) : Prop := s.now - since ≥ duration

instance (s : Client) (since duration : Int) : Decidable (s.elapsed since duration) :=
  inferInstanceAs (Decidable (_ ≥ _))

/-- `steady_clock::now() + timeout`, as the first reading of the clock that is not before it. The
sum is one of 64-bit nanoseconds, and one that is too large comes out negative. -/
def deadlineAfter (now timeout : Int) : Int := -(-((now + timeout) * 1000000).bmod (2 ^ 64) / 1000000)

theorem deadlineAfter_eq {now timeout : Int} (low : -2 ^ 63 ≤ (now + timeout) * 1000000)
    (high : (now + timeout) * 1000000 < 2 ^ 63) : deadlineAfter now timeout = now + timeout := by
  have exact : ((now + timeout) * 1000000).bmod (2 ^ 64) = (now + timeout) * 1000000 :=
    Int.bmod_eq_of_le_mul_two (by omega) (by omega)
  rw [deadlineAfter, exact]
  omega

/-- A `wait_for` of the request timeout that began then has run out. -/
def waitedOut (cfg : ConnectionConfig) (s : Client) (since : Int) : Prop :=
  s.now ≥ deadlineAfter since cfg.requestTimeout

instance (cfg : ConnectionConfig) (s : Client) (since : Int) : Decidable (s.waitedOut cfg since) :=
  inferInstanceAs (Decidable (_ ≥ _))

/-! ## Lifecycle calls -/

def notOpen : StreamError := ⟨.connectionNotOpen, text "connection is not open", none⟩

def callStep (cfg : ConnectionConfig) (s : Client) (n : Nat) (input : Input) : Option Client :=
  match s.calls n, input with
  -- Nothing holds the state once `require_open` has released its lock.
  | .requireOpen op, .none =>
    if s.state ≠ .open then some (s.setCall n (.returned op (.error notOpen)))
    else some (s.setCall n (.checkArguments op))
  | .checkArguments op, .none =>
    match op.checkArguments with
    | .error e => some (s.setCall n (.returned op (.error e)))
    | .ok _ => some (s.setCall n (if op.isOneway then .touch op 0 else .allocate op))
  | .allocate op, .none =>
    some { s.setCall n (.deadline op s.dispatcher.nextAppCid) with dispatcher := s.dispatcher.allocate n }
  | .deadline op cid, .none => some (s.setCall n (.register op cid (deadlineAfter s.now cfg.requestTimeout)))
  | .register op cid deadline, .none =>
    some { s.setCall n (.checkSize op cid) with
      dispatcher := s.dispatcher.registerPending ⟨n, cid, deadline⟩ }
  | .checkSize op cid, .none =>
    -- The entry registered above stays in the map when the frame is too large.
    match checkOutboundFrameSize ((op.frame cid).length - 4) s.negotiatedFrameMax with
    | .error e => some (s.setCall n (.returned op (.error e)))
    | .ok _ => some (s.setCall n (.touch op cid))
  | .touch op cid, .none => some { s.setCall n (.write op cid) with lastOutbound := s.now }
  | .write op cid, .sent result =>
    -- `write_all` takes the socket's lock and sends without a timeout: it may not return. A frame
    -- that failed half way still counts as handed to the socket.
    match result with
    | .error e => some ((s.write (.call n) (op.frame cid)).setCall n (.returned op (.error e)))
    | .ok _ => some ((s.write (.call n) (op.frame cid)).setCall n
        (if op.isOneway then .returned op (.ok .done) else .written op cid))
  | .written op cid, .none => some (s.setCall n (.wait op cid s.now))
  | .wait op cid since, .none =>
    match s.dispatcher.value n with
    | some (.ok frame) => some (s.setCall n (.answered op cid frame))
    | some (.error e) => some (s.setCall n (.returned op (.error e)))
    | none =>
      -- The value wins over the timeout when both are there.
      if s.dispatcher.isBroken n then some (s.setCall n (.threw op))
      else if s.waitedOut cfg since then
        some (s.setCall n (.returned op (.error requestTimedOut)))
      else none
  | .answered op _ frame, .none => some (s.setCall n (.returned op (op.finish frame)))
  | _, _ => none

/-! ## The I/O thread -/

def heartbeatTimeout : StreamError := ⟨.connectionClosed, text "heartbeat timeout", none⟩

def heartbeatEvent : UnexpectedClose := ⟨.heartbeatTimeout, text "no data received for 2×heartbeat", false⟩

def readErrorEvent (e : StreamError) : UnexpectedClose :=
  ⟨if e.kind = .connectionClosed then .peerClosedSocket else .ioError, e.message, false⟩

/-- More than twice the heartbeat without a frame; never when no heartbeat was agreed. -/
def silent (s : Client) : Prop :=
  s.negotiatedHeartbeat > 0 ∧ s.now - s.lastInbound > (s.negotiatedHeartbeat.toNat : Int) * 2 * 1000

instance (s : Client) : Decidable s.silent := inferInstanceAs (Decidable (_ ∧ _))

def afterReap : AfterReap → IoPc
  | .loop => .top
  | .dispatch index frame => .dispatch index frame

def ioSettle (s : Client) (pick : Nat) (cause : Cause) : Option Client :=
  (s.dispatcher.settle .io pick cause).map fun d => { s with dispatcher := d }

def ioDone (s : Client) (next : IoPc) : Option Client :=
  if s.dispatcher.held .io = [] then some { s with io := next } else none

def ioStep (s : Client) (input : Input) : Option Client :=
  match s.io, input with
  | .top, .none => some { s with io := if s.stopIo then .leaving else .reading }
  -- Without a heartbeat `recv` has no timeout, and waits for as long as the peer is silent.
  | .reading, .read (.ok frame) =>
    some { s with io := .arrived s.inbound frame, inbound := s.inbound + 1, closingAtRead := s.closing }
  | .reading, .read (.error e) =>
    if e.kind = .requestTimeout then some { s with io := .timedOut, closingAtRead := s.closing }
    else some { s with
      io := .fail e .readError, closingAtRead := s.closing, ended := some (.readError, e) }
  | .timedOut, .none =>
    -- The closing flag is not consulted here.
    if s.silent then some { s with
      io := .fail heartbeatTimeout .heartbeat, ended := some (.heartbeat, heartbeatTimeout) }
    else some { s with io := .reap s.now .loop }
  | .arrived index frame, .none => some { s with io := .stamped index frame, lastInbound := s.now }
  | .stamped index frame, .none => some { s with io := .reap s.now (.dispatch index frame) }
  | .reap now next, .none =>
    some { s with io := .reaping now next, dispatcher := s.dispatcher.reapTake now }
  | .reaping now _, .pick i => s.ioSettle i (.expired now)
  | .reaping _ next, .none => s.ioDone (afterReap next)
  | .dispatch index frame, .none =>
    some { s with io := .dispatching index frame, dispatcher := s.dispatcher.dispatchTake frame }
  | .dispatching index frame, .pick i => s.ioSettle i (.response index frame)
  | .dispatching _ _, .none => s.ioDone .top
  | .fail e ending, .none =>
    some { s with io := .failing e ending, dispatcher := s.dispatcher.failAllTake .io }
  | .failing e _, .pick i => s.ioSettle i (.failed e)
  | .failing _ .heartbeat, .none => s.ioDone (.notify heartbeatEvent)
  | .failing e .readError, .none => s.ioDone (.readClosing e)
  -- Read only now, after the entries were failed.
  | .readClosing e, .none => some { s with io := if s.closing then .leaving else .notify (readErrorEvent e) }
  | .notify event, .none =>
    if s.unexpectedFired then some { s with io := .leaving }
    else some { s with io := .fetchCallback event, unexpectedFired := true }
  | .fetchCallback event, .none =>
    some { s with io := .leaving, callbacks := if s.callback then s.callbacks ++ [event] else s.callbacks }
  | .leaving, .none =>
    -- A `close` under way sets the state itself.
    some { s with
      io := .finished
      state := if s.state ≠ .closed ∧ s.state ≠ .closing then .closed else s.state }
  | _, _ => none

/-! ## The heartbeat thread -/

def heartbeatStep (s : Client) (input : Input) : Option Client :=
  match s.heartbeat, input with
  | .top, .none => some { s with heartbeat := if s.stopIo then .finished else .sleeping s.now }
  | .sleeping since, .none => if s.elapsed since 500 then some { s with heartbeat := .woken } else none
  | .woken, .none => some { s with heartbeat := if s.stopIo then .finished else .compare s.now }
  | .compare now, .none =>
    some { s with
      heartbeat :=
        if now - s.lastOutbound ≥ (s.negotiatedHeartbeat.toNat : Int) * 1000 then .write now else .top }
  -- The outcome of the write is dropped, and the stamp is the time before it, however long it took.
  | .write now, .sent _ => some { s.write .heartbeat heartbeatFrame with heartbeat := .stamp now }
  | .stamp now, .none => some { s with heartbeat := .top, lastOutbound := now }
  | _, _ => none

/-! ## The control thread -/

def alreadyConnecting : StreamError := ⟨.connectionNotOpen, text "already connecting or open", none⟩
def closeNotOpen : StreamError := ⟨.connectionNotOpen, text "not open", none⟩
def connectionClosed : StreamError := ⟨.connectionClosed, text "connection closed", none⟩

def finish (s : Client) (call : ControlCall) (result : Result Unit) : Client :=
  { s with control := .idle, returned := s.returned ++ [(call, result)] }

def handshakeEntry (state : ConnectionState) : Event → Option WireEntry
  | .sent frame => some ⟨.handshake, frame, state⟩
  | .received _ => none

/-- `run_handshake` and what `connect` does with its result. -/
def handshakeStep (cfg : ConnectionConfig) (s : Client) (replies : List Reply) : Client :=
  let outcome := (runHandshake cfg).run ⟨replies, []⟩
  let sent := outcome.2.trace.filterMap (handshakeEntry s.state)
  match outcome.1 with
  | .error e => { s with wire := s.wire ++ sent, socketOpen := false, control := .connectAbort e }
  | .ok result => { s with
      wire := s.wire ++ sent
      negotiatedFrameMax := result.negotiatedFrameMax
      negotiatedHeartbeat := result.negotiatedHeartbeat
      control := .connectOpen }

def controlStep (cfg : ConnectionConfig) (s : Client) (input : Input) : Option Client :=
  match s.control, input with
  | .connectLock, .none =>
    if s.state ≠ .disconnected then some (s.finish .connect (.error alreadyConnecting))
    else some { s with state := .connecting, control := .connectTcp }
  | .connectTcp, .tcp (.error e) => some { s with control := .connectAbort e }
  | .connectTcp, .tcp (.ok _) => some { s with socketOpen := true, control := .connectHandshake }
  | .connectHandshake, .script replies => some (handshakeStep cfg s replies)
  -- `connect` fails for good: nothing leads back to `Disconnected`.
  | .connectAbort e, .none => some (finish { s with state := .closed } .connect (.error e))
  | .connectOpen, .none => some { s with state := .open, closing := false, control := .connectStamp }
  | .connectStamp, .none => some { s with lastInbound := s.now, lastOutbound := s.now, control := .connectFlags }
  | .connectFlags, .none =>
    some { s with stopIo := false, unexpectedFired := false, control := .connectStartIo }
  | .connectStartIo, .none => some { s with io := .top, control := .connectStartHeartbeat }
  | .connectStartHeartbeat, .none =>
    some (finish { s with heartbeat := if s.negotiatedHeartbeat > 0 then .top else .notStarted }
      .connect (.ok ()))
  | .closeLock n, .none =>
    if s.state ≠ .open then some (s.finish .close (.error closeNotOpen))
    else some { s with state := .closing, closing := true, control := .closeAllocate n }
  | .closeAllocate n, .none =>
    some { s with
      control := .closeDeadline n s.dispatcher.nextAppCid, dispatcher := s.dispatcher.allocate n }
  | .closeDeadline n cid, .none =>
    some { s with control := .closeRegister n cid (deadlineAfter s.now cfg.requestTimeout) }
  | .closeRegister n cid deadline, .none =>
    some { s with control := .closeWrite n cid, dispatcher := s.dispatcher.registerPending ⟨n, cid, deadline⟩ }
  -- Neither the size of the frame nor the outcome of the write is looked at.
  | .closeWrite n cid, .sent _ => some { s.write .close (closeFrame cid) with control := .closeWritten n }
  | .closeWritten n, .none => some { s with control := .closeWait n s.now }
  | .closeWait n since, .none =>
    if (s.dispatcher.value n).isSome ∨ s.dispatcher.isBroken n ∨ s.waitedOut cfg since then
      some { s with control := .closeStop }
    else none
  | .closeStop, .none => some { s with stopIo := true, control := .closeSocket }
  | .closeSocket, .none => some { s with socketOpen := false, control := .closeJoinIo }
  | .closeJoinIo, .none =>
    if s.io = .finished ∨ s.io = .notStarted then some { s with control := .closeJoinHeartbeat } else none
  | .closeJoinHeartbeat, .none =>
    if s.heartbeat = .finished ∨ s.heartbeat = .notStarted then some { s with control := .closeFail }
    else none
  | .closeFail, .none => some { s with control := .closeFailing, dispatcher := s.dispatcher.failAllTake .control }
  | .closeFailing, .pick i =>
    (s.dispatcher.settle .control i (.failed connectionClosed)).map fun d => { s with dispatcher := d }
  | .closeFailing, .none =>
    if s.dispatcher.held .control = [] then some { s with control := .closeFinish } else none
  | .closeFinish, .none => some (finish { s with state := .closed } .close (.ok ()))
  -- The destructor joins before it closes the socket, and fails no entry.
  | .destroyLock, .none =>
    some { s with closing := if s.state = .open then true else s.closing, control := .destroyStop }
  | .destroyStop, .none => some { s with stopIo := true, control := .destroyJoinIo }
  | .destroyJoinIo, .none =>
    if s.io = .finished ∨ s.io = .notStarted then some { s with control := .destroyJoinHeartbeat } else none
  | .destroyJoinHeartbeat, .none =>
    if s.heartbeat = .finished ∨ s.heartbeat = .notStarted then some { s with control := .destroySocket }
    else none
  | .destroySocket, .none => some { s with socketOpen := false, control := .destroyed }
  | _, _ => none

/-! ## The machine -/

def step (cfg : ConnectionConfig) (s : Client) : Action → Option Client
  | .tick milliseconds => some { s with now := s.now + milliseconds }
  | .onUnexpectedClose registered => some { s with callback := registered }
  | .invoke n op => if s.calls n = .idle then some (s.setCall n (.requireOpen op)) else none
  | .connect =>
    if s.control = .idle then
      match cfg.validate with
      | .error e => some (s.finish .connect (.error e))
      | .ok _ => some { s with control := .connectLock }
    else none
  | .close n =>
    if s.control = .idle ∧ s.calls n = .idle then
      some { s.setCall n .close with control := .closeLock n }
    else none
  | .destroy => if s.control = .idle then some { s with control := .destroyLock } else none
  | .call n input => callStep cfg s n input
  | .control input => controlStep cfg s input
  | .io input => ioStep s input
  | .heartbeat input => heartbeatStep s input

end Client

def client (cfg : ConnectionConfig) : Machine Client Action where
  init s := s = {}
  step := Client.step cfg

/-- The steps of a `connect` that gets as far as these replies take it. -/
def opening (replies : List Reply) : List Action :=
  [.connect, .control .none, .control (.tcp (.ok ())), .control (.script replies)] ++
    List.replicate 5 (.control .none)

def request (n : Nat) (op : Op) : List Action :=
  .invoke n op :: List.replicate 7 (.call n .none) ++ [.call n (.sent (.ok ())), .call n .none]

def closeRequest (n : Nat) : List Action :=
  .close n :: List.replicate 4 (Action.control .none) ++ [Action.control (.sent (.ok ())), Action.control .none]

/-- The steps of a `close` after its wait, with those by which the other threads end, and with
so many entries to fail. -/
def closeRest (others : List Action) (entries : Nat) : List Action :=
  List.replicate 3 (Action.control .none) ++ others ++ List.replicate 3 (Action.control .none) ++
    List.replicate entries (Action.control (.pick 0)) ++ List.replicate 2 (Action.control .none)

def delivery (frame : IncomingFrame) : List Action :=
  [.io .none, .io (.read (.ok frame))] ++ List.replicate 5 (.io .none) ++ [.io (.pick 0), .io .none]

def readFailure (entries : Nat) : List Action :=
  [.io .none, .io (.read (.error peerClosed)), .io .none] ++ List.replicate entries (.io (.pick 0)) ++
    List.replicate 5 (.io .none)

end RmqStream
