import RmqStream.Client.Stages
import RmqStream.Reader

/-! The client with its socket: each `recv` of the I/O thread is a step of its own.

For the client alone a read comes back in one step. Here it is a call of `read_frame`
that stands between two calls of `recv`, under the receive timeout which `connect` left
on the socket. All other steps are those of the client, in any order between the calls,
and every run is a run of the client. -/

set_option autoImplicit false

namespace RmqStream
open Library Commands

structure Reception where
  client : Client := {}
  reader : ReaderPc := .start
  /-- When the I/O thread called `recv`. -/
  recvSince : Int := 0
  -- The remaining fields only record what happened.
  lastByte : Int := 0
  /-- What `recv` returned to the calls of `read_frame` that `io_loop` went on from. -/
  past : Schedule := []
  /-- What it returned to the last call since. -/
  call : Schedule := []
  arrived : List IncomingFrame := []

inductive Occurrence where
  | client (a : Action)
  | recv (outcome : RecvOutcome)
  deriving DecidableEq, Repr

/-- The timeout on the socket once `connect` has returned. Where no heartbeat was agreed
on, the one for the requested interval stays. -/
def Client.receiveTimeout (cfg : ConnectionConfig) (s : Client) : Option Int :=
  if s.negotiatedHeartbeat > 0 then some (s.negotiatedHeartbeat.toNat * 500)
  else if cfg.requestedHeartbeatSeconds > 0 then some (cfg.requestedHeartbeatSeconds.toNat * 500)
  else none

def IoPc.left : IoPc → Bool
  | .fail _ _ | .failing _ _ | .readClosing _ | .notify _ | .fetchCallback _ | .leaving | .finished => true
  | _ => false

def IoPc.frame : IoPc → Option IncomingFrame
  | .arrived _ frame | .stamped _ frame | .reap _ (.dispatch _ frame) | .reaping _ (.dispatch _ frame)
  | .dispatch _ frame | .dispatching _ frame => some frame
  | _ => none

namespace Reception

/-- A timeout is returned only when it has passed since the call. -/
def mayReturn (cfg : ConnectionConfig) (s : Reception) : RecvOutcome → Bool
  | .timeout _ => (s.client.receiveTimeout cfg).any fun ms => s.client.elapsed s.recvSince ms
  | _ => true

def heard (s : Reception) (outcome : RecvOutcome) : Int :=
  if outcome.bytes = [] then s.lastByte else s.client.now

/-- A step of the client. A read begins with its first `recv`, and the handshake ends with
the bytes of its last reply. -/
def follow (s : Reception) (a : Action) (client : Client) : Reception :=
  { s with
    client := client
    recvSince := if s.client.io = .reading then s.recvSince else client.now
    lastByte :=
      match a with
      | .control (.script _) => client.now
      | _ => s.lastByte }

def returned (s : Reception) (outcome : RecvOutcome) (client : Client) : Reply → Reception
  | .ok frame => { s with
      client := client, reader := .start, lastByte := s.heard outcome
      past := s.past ++ (s.call ++ [outcome]), call := [], arrived := s.arrived ++ [frame] }
  | .error e =>
    if e.kind = .requestTimeout then { s with
      client := client, reader := .start, lastByte := s.heard outcome
      past := s.past ++ (s.call ++ [outcome]), call := [] }
    else { s with
      client := client, reader := .start, lastByte := s.heard outcome, call := s.call ++ [outcome] }

def took (s : Reception) (outcome : RecvOutcome) : ReadStep → Option Reception
  | .more reader => some { s with
      reader := reader, recvSince := s.client.now, lastByte := s.heard outcome, call := s.call ++ [outcome] }
  | .done reply => (s.client.ioStep (.read reply)).map fun client => s.returned outcome client reply

def step (cfg : ConnectionConfig) (s : Reception) : Occurrence → Option Reception
  | .client (.io (.read _)) => none
  | .client a => (s.client.step cfg a).map (s.follow a)
  | .recv outcome =>
    if s.client.io = .reading ∧ s.mayReturn cfg outcome then (s.reader.recv outcome).bind (s.took outcome)
    else none

def received (s : Reception) : Bytes := delivered (s.past ++ s.call)

end Reception

def reception (cfg : ConnectionConfig) : Machine Reception Occurrence where
  init s := s = {}
  step := Reception.step cfg

namespace Reception
variable {cfg : ConnectionConfig} {s s' : Reception}

inductive Move (cfg : ConnectionConfig) (s : Reception) : Occurrence → Reception → Prop where
  | client {a : Action} {client : Client} (run : s.client.step cfg a = some client)
      (own : ∀ reply, a ≠ .io (.read reply)) : Move cfg s (.client a) (s.follow a client)
  | more {outcome : RecvOutcome} {reader : ReaderPc} (here : s.client.io = .reading)
      (took : s.reader.recv outcome = some (.more reader)) : Move cfg s (.recv outcome) { s with
        reader := reader, recvSince := s.client.now, lastByte := s.heard outcome, call := s.call ++ [outcome] }
  | frame {outcome : RecvOutcome} {frame : IncomingFrame} (here : s.client.io = .reading)
      (took : s.reader.recv outcome = some (.done (.ok frame))) : Move cfg s (.recv outcome) { s with
        client := { s.client with
          io := .arrived s.client.inbound frame, inbound := s.client.inbound + 1
          closingAtRead := s.client.closing }
        reader := .start, lastByte := s.heard outcome
        past := s.past ++ (s.call ++ [outcome]), call := [], arrived := s.arrived ++ [frame] }
  | timeout {outcome : RecvOutcome} {e : StreamError} (here : s.client.io = .reading)
      (took : s.reader.recv outcome = some (.done (.error e))) (kind : e.kind = .requestTimeout) :
    Move cfg s (.recv outcome) { s with
      client := { s.client with io := .timedOut, closingAtRead := s.client.closing }
      reader := .start, lastByte := s.heard outcome, past := s.past ++ (s.call ++ [outcome]), call := [] }
  | failed {outcome : RecvOutcome} {e : StreamError} (here : s.client.io = .reading)
      (took : s.reader.recv outcome = some (.done (.error e))) (kind : e.kind ≠ .requestTimeout) :
    Move cfg s (.recv outcome) { s with
      client := { s.client with
        io := .fail e .readError, closingAtRead := s.client.closing, ended := some (.readError, e) }
      reader := .start, lastByte := s.heard outcome, call := s.call ++ [outcome] }

theorem step_client {a : Action} (run : step cfg s (.client a) = some s') :
    (∀ reply, a ≠ .io (.read reply)) ∧ ∃ client, s.client.step cfg a = some client ∧ s' = s.follow a client := by
  unfold step at run
  split at run
  · cases run
  next own same =>
    cases same
    obtain ⟨client, moved, rfl⟩ := Option.map_eq_some_iff.mp run
    exact ⟨fun reply read => own reply (by rw [read]), client, moved, rfl⟩
  next same => cases same

theorem step_move {o : Occurrence} (run : step cfg s o = some s') : Move cfg s o s' := by
  cases o with
  | client a =>
    obtain ⟨own, client, moved, rfl⟩ := step_client run
    exact .client moved own
  | recv outcome =>
    obtain ⟨⟨here, _⟩, run⟩ := Option.ite_none_right_eq_some.mp run
    obtain ⟨readStep, received, run⟩ := Option.bind_eq_some_iff.mp run
    cases readStep with
    | more reader =>
      cases run
      exact .more here received
    | done reply =>
      obtain ⟨client, read, rfl⟩ := Option.map_eq_some_iff.mp run
      cases Client.ioStep_move read with
      | frame => exact .frame here received
      | timeout _ kind =>
        simp only [returned, kind, ↓reduceIte]
        exact .timeout here received kind
      | readError _ kind =>
        simp only [returned, kind, ↓reduceIte]
        exact .failed here received kind

theorem step_projects {o : Occurrence} (run : step cfg s o = some s') :
    s'.client = s.client ∨ ∃ a, s.client.step cfg a = some s'.client := by
  cases step_move run with
  | client moved => exact .inr ⟨_, moved⟩
  | more => exact .inl rfl
  | @frame _ frame here => exact .inr ⟨.io (.read (.ok frame)), by simp only [Client.step, Client.ioStep, here]⟩
  | @timeout _ e here _ kind =>
    exact .inr ⟨.io (.read (.error e)), by simp only [Client.step, Client.ioStep, here, kind, ↓reduceIte]⟩
  | @failed _ e here _ kind =>
    exact .inr ⟨.io (.read (.error e)), by simp only [Client.step, Client.ioStep, here, kind, ↓reduceIte]⟩

end Reception

/-- With its socket the client makes only runs that it makes without. -/
theorem reach_client {cfg : ConnectionConfig} {allowed : Reception → Occurrence → Prop} {s : Reception}
    (reach : (reception cfg).Reach allowed s) : (client cfg).Reach Machine.anyStep s.client := by
  refine reach.invariant (fun s => (client cfg).Reach Machine.anyStep s.client) ?_ ?_
  · rintro _ rfl
    exact .init rfl
  · intro s o s' _ before _ run
    rcases Reception.step_projects run with same | ⟨a, moved⟩
    · rw [same]
      exact before
    · exact .step before trivial moved

structure Looping (s : Client) : Prop where
  running : s.io.left = false → s.ended = none
  stopped : s.io.left = true → s.ended = none → s.stopIo = true

namespace Client
variable {cfg : ConnectionConfig} {s s' : Client}

theorem step_looping {a : Action} (looping : Looping s) (staged : s.control.Staged s)
    (run : s.step cfg a = some s') : Looping s' := by
  obtain ⟨running, stopped⟩ := looping
  rcases step_sides run with ⟨_, _, _, _, _, _, _, _, _, rfl⟩ | ⟨input, rfl, run⟩ | ⟨input, rfl, run⟩
  · exact ⟨running, stopped⟩
  · cases controlStep_move run with
    | @handshake replies =>
      obtain ⟨_, _, _, _, _, same⟩ := handshakeStep_writes cfg s replies
      rw [same]
      exact ⟨running, stopped⟩
    | connectFlags here | startIo here =>
      rw [here] at staged
      exact ⟨fun _ => running (by rw [staged.2.1]; rfl), by simp [staged.2.1, IoPc.left]⟩
    | closeStop | destroyStop => exact ⟨running, fun _ _ => rfl⟩
    | _ => exact ⟨running, stopped⟩
  · cases ioStep_move run with
    | top here =>
      have going := running (by rw [here]; rfl)
      refine ⟨fun _ => going, fun ends _ => ?_⟩
      cases stop : s.stopIo with
      | true => rfl
      | false => simp [stop, IoPc.left] at ends
    | @reaped _ next here =>
      have going := running (by rw [here]; rfl)
      cases next <;> exact ⟨fun _ => going, by simp [afterReap, IoPc.left]⟩
    | readClosing here =>
      refine ⟨fun going => ?_, fun _ => stopped (by rw [here]; rfl)⟩
      cases closing : s.closing <;> simp [closing, IoPc.left] at going
    | _ => constructor <;> simp_all [IoPc.left]

/-- Without a read the loop ends at the deadline alone. -/
theorem step_ended {a : Action} (run : s.step cfg a = some s') (own : ∀ reply, a ≠ .io (.read reply)) :
    s'.ended = s.ended ∨ s.io = .timedOut ∧ s.silent := by
  rcases step_sides run with ⟨_, _, _, _, _, _, _, _, _, rfl⟩ | ⟨input, rfl, run⟩ | ⟨input, rfl, run⟩
  · exact .inl rfl
  · obtain ⟨_, _, _, _, _, _, _, _, _, _, _, _, _, _, _, rfl⟩ := controlStep_writes run
    exact .inl rfl
  · cases ioStep_move run with
    | readError => exact absurd rfl (own _)
    | deadline here silent => exact .inr ⟨here, silent⟩
    | _ => exact .inl rfl

end Client

theorem reach_looping {cfg : ConnectionConfig} {allowed : Client → Action → Prop} {s : Client}
    (reach : (client cfg).Reach allowed s) : Looping s := by
  refine reach.invariant Looping ?_ ?_
  · rintro _ rfl
    exact ⟨fun _ => rfl, by simp [IoPc.left]⟩
  · intro s a s' before looping _ run
    exact Client.step_looping looping (reach_staged before) run

/-! ## The bytes received -/

namespace Client
variable {cfg : ConnectionConfig} {s s' : Client}

theorem step_io {a : Action} (staged : s.control.Staged s) (run : s.step cfg a = some s')
    (own : ∀ reply, a ≠ .io (.read reply)) :
    s'.io = s.io ∨ s.io ≠ .reading ∧ s'.io ≠ .notStarted ∧ (s.io.left = true → s'.io.left = true) := by
  rcases step_sides run with ⟨_, _, _, _, _, _, _, _, _, rfl⟩ | ⟨input, rfl, run⟩ | ⟨input, rfl, run⟩
  · exact .inl rfl
  · cases controlStep_move run with
    | handshake => exact .inl (handshakeStep_io cfg s _)
    | startIo here =>
      rw [here] at staged
      exact .inr (by simp [staged.2.1, IoPc.left])
    | _ => exact .inl rfl
  · cases ioStep_move run with
    | frame | timeout | readError => exact absurd rfl (own _)
    | expire | answer | failOne => exact .inl rfl
    | @reaped _ next here => cases next <;> exact .inr (by simp [here, afterReap, IoPc.left])
    | top here | readClosing here =>
      right
      simp only [here]
      split <;> simp [IoPc.left]
    | _ => exact .inr (by simp_all [IoPc.left])

theorem step_frame {a : Action} (run : s.step cfg a = some s') (own : ∀ reply, a ≠ .io (.read reply)) :
    ∀ frame ∈ s'.io.frame, frame ∈ s.io.frame := by
  rcases step_sides run with ⟨_, _, _, _, _, _, _, _, _, rfl⟩ | ⟨input, rfl, run⟩ | ⟨input, rfl, run⟩
  · exact fun _ => id
  · cases controlStep_move run with
    | handshake => simp
    | startIo => simp [IoPc.frame]
    | _ => exact fun _ => id
  · cases ioStep_move run with
    | frame | timeout | readError => exact absurd rfl (own _)
    | expire | answer | failOne => exact fun _ => id
    | @reap _ next here | @reaped _ next here => cases next <;> simp [here, afterReap, IoPc.frame]
    | top | readClosing =>
      simp only
      split <;> simp [IoPc.frame]
    | _ => simp_all [IoPc.frame]

end Client

namespace Reception
variable {cfg : ConnectionConfig} {s s' : Reception}

/-- The calls that came back are a run of polling, and the reader stands in the last one. -/
structure Tracked (s : Reception) : Prop where
  fresh : s.client.io = .notStarted → s.past = [] ∧ s.call = [] ∧ s.arrived = []
  idle : s.client.io ≠ .reading → s.reader = .start
  polls : ∀ rest, Polls (s.past ++ rest) s.arrived rest
  incomplete : nextFrame (delivered s.call) = none
  resumes : s.client.io.left = false → delivered s.call = s.reader.bytes ∧
    ∀ rest, readFrame (s.call ++ rest) = s.reader.resume rest

theorem tracked_init : Tracked {} where
  fresh _ := ⟨rfl, rfl, rfl⟩
  idle _ := rfl
  polls _ := .start
  incomplete := rfl
  resumes _ := ⟨rfl, fun rest => (ReaderPc.resume_start rest).symm⟩

theorem follow_tracked {a : Action} {client : Client} (tracked : s.Tracked)
    (staged : s.client.control.Staged s.client) (run : s.client.step cfg a = some client)
    (own : ∀ reply, a ≠ .io (.read reply)) : (s.follow a client).Tracked := by
  obtain ⟨fresh, idle, polls, incomplete, resumes⟩ := tracked
  rcases Client.step_io staged run own with same | ⟨elsewhere, started, stays⟩
  · exact ⟨same ▸ fresh, same ▸ idle, polls, incomplete, same ▸ resumes⟩
  · refine ⟨fun unstarted => absurd unstarted started, fun _ => idle elsewhere, polls, incomplete, ?_⟩
    intro going
    cases before : s.client.io.left with
    | false => exact resumes before
    | true =>
      -- A loop that has been left stays left.
      rw [show (s.follow a client).client.io.left = true from stays before] at going
      cases going

theorem Tracked.call_bytes (tracked : s.Tracked) (here : s.client.io = .reading) (outcome : RecvOutcome) :
    delivered (s.call ++ [outcome]) = s.reader.bytes ++ outcome.bytes := by
  rw [delivered_append, delivered_single, (tracked.resumes (by rw [here]; rfl)).1]

theorem call_returns {outcome : RecvOutcome} {reply : Reply} (tracked : s.Tracked) (here : s.client.io = .reading)
    (took : s.reader.recv outcome = some (.done reply)) (rest : Schedule) :
    readFrame (s.call ++ [outcome] ++ rest) = (reply, rest) := by
  rw [List.append_assoc, (tracked.resumes (by rw [here]; rfl)).2]
  exact ReaderPc.resume_recv took rest

theorem step_tracked {o : Occurrence} (tracked : s.Tracked) (staged : s.client.control.Staged s.client)
    (run : step cfg s o = some s') : s'.Tracked := by
  cases step_move run with
  | client moved own => exact follow_tracked tracked staged moved own
  | @more outcome reader here took =>
    have grown : delivered (s.call ++ [outcome]) = reader.bytes := by
      rw [tracked.call_bytes here, ReaderPc.recv_more took]
    refine ⟨fun unstarted => ?_, fun elsewhere => absurd here elsewhere, tracked.polls, ?_, fun _ => ⟨grown, ?_⟩⟩
    · rw [here] at unstarted
      cases unstarted
    · exact grown ▸ ReaderPc.nextFrame_bytes reader
    · intro rest
      rw [List.append_assoc, (tracked.resumes (by rw [here]; rfl)).2]
      exact ReaderPc.resume_recv took rest
  | @frame outcome _ here took =>
    refine ⟨by simp, fun _ => rfl, fun rest => ?_, rfl, tracked_init.resumes⟩
    have polls := tracked.polls (s.call ++ [outcome] ++ rest)
    rw [← List.append_assoc] at polls
    exact polls.frame (call_returns tracked here took rest)
  | @timeout outcome _ here took kind =>
    refine ⟨by simp, fun _ => rfl, fun rest => ?_, rfl, tracked_init.resumes⟩
    have polls := tracked.polls (s.call ++ [outcome] ++ rest)
    rw [← List.append_assoc] at polls
    exact polls.timeout (call_returns tracked here took rest) kind
  | @failed outcome e here took =>
    refine ⟨by simp, fun _ => rfl, tracked.polls, ?_, by simp [IoPc.left]⟩
    show nextFrame (delivered (s.call ++ [outcome])) = none
    rw [tracked.call_bytes here]
    exact (ReaderPc.recv_failed took).1

/-- What has arrived are the frames of the bytes received, in order. -/
theorem Tracked.frames (tracked : s.Tracked) : frames s.received = s.arrived := by
  obtain ⟨_, _, _, all⟩ := polls_boundary (tracked.polls s.call)
  rw [received, all, frames_none tracked.incomplete, List.append_nil]

end Reception

theorem reach_tracked {cfg : ConnectionConfig} {allowed : Reception → Occurrence → Prop} {s : Reception}
    (reach : (reception cfg).Reach allowed s) : s.Tracked := by
  refine reach.invariant Reception.Tracked ?_ ?_
  · rintro _ rfl
    exact Reception.tracked_init
  · intro s o s' before tracked _ run
    exact Reception.step_tracked tracked (reach_staged (reach_client before)) run

namespace Reception
variable {cfg : ConnectionConfig} {s s' : Reception}

/-- Whatever `io_loop` has in hand, or has handed over as an answer, has arrived. -/
structure Dispatched (s : Reception) : Prop where
  inHand : ∀ frame ∈ s.client.io.frame, frame ∈ s.arrived
  answers : ∀ x ∈ s.client.dispatcher.settled, ∀ index frame, x.cause = .response index frame →
    frame ∈ s.arrived

theorem step_dispatched {o : Occurrence} (dispatched : s.Dispatched) (run : step cfg s o = some s') :
    s'.Dispatched := by
  obtain ⟨inHand, answers⟩ := dispatched
  cases step_move run with
  | @client a client moved own =>
    refine ⟨fun frame member => inHand frame (Client.step_frame moved own frame member), ?_⟩
    rcases Client.step_settles moved with same | ⟨x, grown, settles⟩
    · intro y member
      rw [show (s.follow a client).client.dispatcher.settled = _ from same] at member
      exact answers y member
    · intro y member index frame cause
      rw [show (s.follow a client).client.dispatcher.settled = _ from grown] at member
      rcases List.mem_append.mp member with old | new
      · exact answers y old index frame cause
      · rw [List.mem_singleton.mp new] at cause
        -- Only an answer has a frame, and it is the one in hand.
        cases settles with
        | answered here =>
          cases cause
          exact inHand frame (by rw [here]; rfl)
        | _ => cases cause
  | more => exact ⟨inHand, answers⟩
  | frame =>
    refine ⟨fun frame member => ?_, fun x member index frame cause => ?_⟩
    · cases member
      exact List.mem_append_right _ List.mem_cons_self
    · exact List.mem_append_left _ (answers x member index frame cause)
  | timeout | failed => exact ⟨by simp [IoPc.frame], answers⟩

end Reception

theorem reach_dispatched {cfg : ConnectionConfig} {allowed : Reception → Occurrence → Prop} {s : Reception}
    (reach : (reception cfg).Reach allowed s) : s.Dispatched := by
  refine reach.invariant Reception.Dispatched ?_ ?_
  · rintro _ rfl
    exact ⟨by simp [IoPc.frame], by simp⟩
  · intro s o s' _ dispatched _ run
    exact Reception.step_dispatched dispatched run

def listening (tune : Tune) : List Occurrence :=
  (opening (acceptingScript tune)).map .client ++ [.client (.io .none)]

end RmqStream
