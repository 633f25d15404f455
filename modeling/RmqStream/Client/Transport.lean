import RmqStream.Client.Reception
import RmqStream.Client.Wire
import RmqStream.Writer

/-! The client with both directions of its socket.

For the client alone handing a frame to the socket is one step. Here it is a call of
`write_all`: the thread waits for the lock, sends in pieces and returns, while other threads
do the same and the I/O thread reads. Every run is a run of the client with its reader, and
one of the writer. -/

set_option autoImplicit false

namespace RmqStream
open Library Commands

/-- The threads that write once the handshake is over. -/
inductive WritingThread where
  | call (n : Nat)
  | close
  | heartbeat
  deriving DecidableEq, Repr

namespace WritingThread

def source : WritingThread → Source
  | call n => .call n
  | close => .close
  | heartbeat => .heartbeat

def returns (result : Result Unit) : WritingThread → Action
  | call n => .call n (.sent result)
  | close => .control (.sent result)
  | heartbeat => .heartbeat (.sent result)

theorem returns_injective {t t' : WritingThread} {r r' : Result Unit} (same : t.returns r = t'.returns r') :
    t = t' := by
  cases t <;> cases t' <;> cases same <;> rfl

end WritingThread

def Client.toWrite (s : Client) : WritingThread → Option Bytes
  | .call n =>
    match s.calls n with
    | .write op cid => some (op.frame cid)
    | _ => none
  | .close =>
    match s.control with
    | .closeWrite _ cid => some (closeFrame cid)
    | _ => none
  | .heartbeat =>
    match s.heartbeat with
    | .write _ => some heartbeatFrame
    | _ => none

def Action.isReturn : Action → Bool
  | .call _ (.sent _) | .control (.sent _) | .heartbeat (.sent _) => true
  | _ => false

def Occurrence.isReturn : Occurrence → Bool
  | .client a => a.isReturn
  | .recv _ => false

inductive WriteEvent where
  | lock
  | send (outcome : SendOutcome)
  | finish
  deriving DecidableEq, Repr

def WriteEvent.of (k : Nat) : WriteEvent → WriteAction
  | lock => .lock k
  | send outcome => .send k outcome
  | finish => .finish k

inductive Traffic where
  | other (o : Occurrence)
  | write (t : WritingThread)
  | progress (t : WritingThread) (event : WriteEvent)
  deriving DecidableEq, Repr

structure Transport where
  reception : Reception := {}
  writer : SocketWriter := {}
  /-- The call of `write_all` that a thread is in. -/
  inside : WritingThread → Option Nat := fun _ => none
  calls : Nat := 0
  /-- The bytes that have gone out. -/
  stream : Bytes := []

/-- The handshake writes its frames one after the other, before there are other writers. -/
def greeted (cfg : ConnectionConfig) : Occurrence → Bytes
  | .client (.control (.script replies)) => (sentFrames ((runHandshake cfg).run ⟨replies, []⟩).2.trace).flatten
  | _ => []

theorem greeted_other (cfg : ConnectionConfig) {a : Action} (other : ¬ ∃ replies, a = .control (.script replies)) :
    greeted cfg (.client a) = [] := by
  unfold greeted
  split
  next replies same =>
    cases same
    exact absurd ⟨replies, rfl⟩ other
  · rfl

namespace Transport

def client (s : Transport) : Client := s.reception.client

/-- The call has come that far. With its end the thread goes on. -/
def proceed (cfg : ConnectionConfig) (s : Transport) (t : WritingThread) (k : Nat) (w : SocketWriter) :
    Option Transport :=
  let moved := { s with writer := w, stream := s.stream ++ w.wire.drop s.writer.wire.length }
  match w.calls k with
  | .returned _ result => (s.reception.step cfg (.client (t.returns result))).map fun r =>
      { moved with reception := r, inside := Function.update s.inside t none }
  | _ => some moved

def step (cfg : ConnectionConfig) (s : Transport) : Traffic → Option Transport
  | .other o =>
    if o.isReturn then none
    else (s.reception.step cfg o).map fun r => { s with reception := r, stream := s.stream ++ greeted cfg o }
  | .write t =>
    match s.inside t, s.client.toWrite t with
    | none, some frame => (s.writer.step (.call s.calls frame)).map fun w =>
        { s with writer := w, inside := Function.update s.inside t (some s.calls), calls := s.calls + 1 }
    | _, _ => none
  | .progress t event =>
    (s.inside t).bind fun k => (s.writer.step (event.of k)).bind fun w => s.proceed cfg t k w

/-- No byte is accepted after a frame was cut. -/
def SendsBehindWhole (s : Transport) : Traffic → Prop
  | .progress _ (.send (.accepted _)) => s.writer.torn = false
  | _ => True

instance (s : Transport) : (a : Traffic) → Decidable (s.SendsBehindWhole a)
  | .progress _ (.send (.accepted _)) => inferInstanceAs (Decidable (_ = _))
  | .progress _ (.send .interrupted) => .isTrue trivial
  | .progress _ (.send (.failed _)) => .isTrue trivial
  | .progress _ (.send .closed) => .isTrue trivial
  | .progress _ .lock => .isTrue trivial
  | .progress _ .finish => .isTrue trivial
  | .other _ => .isTrue trivial
  | .write _ => .isTrue trivial

end Transport

def transport (cfg : ConnectionConfig) : Machine Transport Traffic where
  init s := s = {}
  step := Transport.step cfg

namespace Transport
variable {cfg : ConnectionConfig} {s s' : Transport}

inductive Move (cfg : ConnectionConfig) (s : Transport) : Traffic → Transport → Prop where
  | other {o : Occurrence} {r : Reception} (own : o.isReturn = false) (run : s.reception.step cfg o = some r) :
    Move cfg s (.other o) { s with reception := r, stream := s.stream ++ greeted cfg o }
  | write {t : WritingThread} {frame : Bytes} {w : SocketWriter} (outside : s.inside t = none)
      (here : s.client.toWrite t = some frame) (run : s.writer.step (.call s.calls frame) = some w) :
    Move cfg s (.write t) { s with
      writer := w, inside := Function.update s.inside t (some s.calls), calls := s.calls + 1 }
  | onward {t : WritingThread} {event : WriteEvent} {k : Nat} {w : SocketWriter} (inside : s.inside t = some k)
      (run : s.writer.step (event.of k) = some w) (more : ∀ part result, w.calls k ≠ .returned part result) :
    Move cfg s (.progress t event) { s with
      writer := w, stream := s.stream ++ w.wire.drop s.writer.wire.length }
  | returned {t : WritingThread} {event : WriteEvent} {k : Nat} {w : SocketWriter} {part : Fragment UInt8}
      {result : Result Unit} {r : Reception} (inside : s.inside t = some k)
      (run : s.writer.step (event.of k) = some w) (done : w.calls k = .returned part result)
      (back : s.reception.step cfg (.client (t.returns result)) = some r) :
    Move cfg s (.progress t event) { s with
      reception := r, writer := w, inside := Function.update s.inside t none
      stream := s.stream ++ w.wire.drop s.writer.wire.length }

theorem step_move {a : Traffic} (run : step cfg s a = some s') : Move cfg s a s' := by
  cases a with
  | other o =>
    simp only [step] at run
    split at run
    · cases run
    next own =>
      obtain ⟨r, moved, rfl⟩ := Option.map_eq_some_iff.mp run
      exact .other (Bool.eq_false_iff.mpr own) moved
  | write t =>
    simp only [step] at run
    split at run
    next frame outside here =>
      obtain ⟨w, moved, rfl⟩ := Option.map_eq_some_iff.mp run
      exact .write outside here moved
    · cases run
  | progress t event =>
    obtain ⟨k, inside, run⟩ := Option.bind_eq_some_iff.mp run
    obtain ⟨w, moved, run⟩ := Option.bind_eq_some_iff.mp run
    unfold proceed at run
    split at run
    next part result done =>
      obtain ⟨r, back, rfl⟩ := Option.map_eq_some_iff.mp run
      exact .returned inside moved done back
    next more =>
      cases run
      exact .onward inside moved more

theorem SendsBehindWhole.writer {t : WritingThread} {event : WriteEvent}
    (behind : s.SendsBehindWhole (.progress t event)) (k : Nat) : s.writer.SendsBehindWhole (event.of k) := by
  cases event with
  | send outcome =>
    cases outcome with
    | accepted count => exact behind
    | _ => trivial
  | _ => trivial

end Transport

theorem reach_reception {cfg : ConnectionConfig} {allowed : Transport → Traffic → Prop} {s : Transport}
    (reach : (transport cfg).Reach allowed s) : (reception cfg).Reach Machine.anyStep s.reception := by
  refine reach.invariant (fun s => (reception cfg).Reach Machine.anyStep s.reception) ?_ ?_
  · rintro _ rfl
    exact .init rfl
  · intro s a s' _ before _ run
    cases Transport.step_move run with
    | other _ moved => exact .step before trivial moved
    | write | onward => exact before
    | returned _ _ _ back => exact .step before trivial back

/-- The writer makes only runs that it makes by itself. -/
theorem reach_writer {cfg : ConnectionConfig} {allowed : Transport → Traffic → Prop}
    {may : SocketWriter → WriteAction → Prop} {s : Transport} (calls : ∀ s n frame, may s (.call n frame))
    (goes : ∀ (s : Transport) t event k, allowed s (.progress t event) → may s.writer (WriteEvent.of k event))
    (reach : (transport cfg).Reach allowed s) : socketWriter.Reach may s.writer := by
  refine reach.invariant (fun s => socketWriter.Reach may s.writer) ?_ ?_
  · rintro _ rfl
    exact .init rfl
  · intro s a s' _ before allow run
    cases Transport.step_move run with
    | other => exact before
    | @write t frame w _ _ moved => exact .step before (calls s.writer s.calls frame) moved
    | @onward t event k w _ moved | @returned t event k w _ _ _ _ moved =>
      exact .step before (goes s t event k allow) moved

theorem reach_writer_locked {cfg : ConnectionConfig} {allowed : Transport → Traffic → Prop} {s : Transport}
    (reach : (transport cfg).Reach allowed s) : s.writer.Locked :=
  have alone : socketWriter.Reach Machine.anyStep s.writer :=
    reach_writer (fun _ _ _ => trivial) (fun _ _ _ _ _ => trivial) reach
  reach_locked alone

theorem reach_writer_serial {cfg : ConnectionConfig} {s : Transport}
    (reach : (transport cfg).Reach Transport.SendsBehindWhole s) : Fragment.Serial s.writer.fragments :=
  reach_serial (reach_writer (fun _ _ _ => trivial) (fun _ _ _ k behind => behind.writer k) reach)

end RmqStream
