import RmqStream.Client.Stages

/-! Where the user's credentials go.

Two clients whose configurations differ in the credentials alone, in the same surroundings,
take the same steps. They come to the same results, errors and frames, except for the body of
the authentication requests. -/

set_option autoImplicit false

namespace RmqStream
open Library Commands

def ConnectionConfig.withCredentials (cfg : ConnectionConfig) (username password : Bytes) : ConnectionConfig :=
  { cfg with username := username, password := password }

@[simp] theorem ConnectionConfig.withCredentials_requestTimeout (cfg : ConnectionConfig) (username password : Bytes) :
    (cfg.withCredentials username password).requestTimeout = cfg.requestTimeout := rfl

@[simp] theorem ConnectionConfig.withCredentials_validate (cfg : ConnectionConfig) (username password : Bytes) :
    (cfg.withCredentials username password).validate = cfg.validate := rfl

variable {cfg other : ConnectionConfig}

/-! ## The handshake -/

/-- The same frame, or the same authentication request with the credentials of each. -/
inductive FrameTwins (cfg other : ConnectionConfig) : Bytes → Bytes → Prop where
  | same (frame : Bytes) : FrameTwins cfg other frame frame
  | authenticate (cid : UInt32) :
    FrameTwins cfg other (requestFrame (plainRequest cfg) cid) (requestFrame (plainRequest other) cid)

inductive EventTwins (cfg other : ConnectionConfig) : Event → Event → Prop where
  | sent {frame twin : Bytes} (twins : FrameTwins cfg other frame twin) :
    EventTwins cfg other (.sent frame) (.sent twin)
  | received (reply : Reply) : EventTwins cfg other (.received reply) (.received reply)

structure ChannelTwins (cfg other : ConnectionConfig) (ch twin : Channel) : Prop where
  script : ch.script = twin.script
  trace : List.Forall₂ (EventTwins cfg other) ch.trace twin.trace

theorem forall₂_snoc {α β : Type} {r : α → β → Prop} {xs : List α} {ys : List β} {x : α} {y : β}
    (front : List.Forall₂ r xs ys) (last : r x y) : List.Forall₂ r (xs ++ [x]) (ys ++ [y]) :=
  List.rel_append front (.cons last .nil)

section Handshake
open Fallible

theorem writeFrame_twins {frame twin : Bytes} (twins : FrameTwins cfg other frame twin) :
    Agree (ChannelTwins cfg other) (writeFrame frame) (writeFrame twin) :=
  .modify fun _ _ related => ⟨related.script, forall₂_snoc related.trace (.sent twins)⟩

theorem nextReply_twins : Agree (ChannelTwins cfg other) nextReply nextReply := by
  rintro ⟨script, trace⟩ ⟨_, twin⟩ ⟨rfl, related⟩
  cases script with
  | nil => exact ⟨rfl, rfl, related⟩
  | cons reply script => exact ⟨rfl, rfl, forall₂_snoc related (.received reply)⟩

section Commands
variable {α : Type} [Command α]

theorem sendRequest_twins (cmd : α) (cid frameMax : UInt32) :
    Agree (ChannelTwins cfg other) (sendRequest cmd cid frameMax) (sendRequest cmd cid frameMax) :=
  (Agree.ofExcept _).bind fun _ => writeFrame_twins (.same _)

theorem sendOneway_twins (cmd : α) (frameMax : UInt32) :
    Agree (ChannelTwins cfg other) (sendOneway cmd frameMax) (sendOneway cmd frameMax) :=
  (Agree.ofExcept _).bind fun _ => writeFrame_twins (.same _)

theorem recvResponse_twins (cid : UInt32) :
    Agree (ChannelTwins cfg other) (recvResponse α cid) (recvResponse α cid) :=
  nextReply_twins.bind fun _ => .ite (.fail _) (.ite (.fail _) (.ofExcept _))

theorem recvOneway_twins : Agree (ChannelTwins cfg other) (recvOneway α) (recvOneway α) :=
  nextReply_twins.bind fun _ => .ite (.fail _) (.ofExcept _)

end Commands

/-- The length of the credentials is not compared with anything: no limit holds yet. -/
theorem sendPlain_twins (cid : UInt32) : Agree (ChannelTwins cfg other) (sendRequest (plainRequest cfg) cid 0)
    (sendRequest (plainRequest other) cid 0) :=
  (Agree.ofExcept (.ok ())).bind fun _ => writeFrame_twins (.authenticate cid)

theorem saslAuthenticateRound_twins (cid : UInt32) :
    Agree (ChannelTwins cfg other) (saslAuthenticateRound cfg cid) (saslAuthenticateRound other cid) :=
  (sendPlain_twins cid).bind fun _ => (recvResponse_twins cid).bind fun _ => .ofExcept _

theorem saslAuthenticateLoop_twins (rounds : Nat) (cid : UInt32) :
    Agree (ChannelTwins cfg other) (saslAuthenticateLoop cfg rounds cid) (saslAuthenticateLoop other rounds cid) := by
  induction rounds generalizing cid with
  | zero => exact .fail _
  | succ rounds ih => exact (saslAuthenticateRound_twins cid).bind fun _ => .ite (.pure _) (ih _)

theorem saslAuthenticateStep_twins (cid : UInt32) :
    Agree (ChannelTwins cfg other) (saslAuthenticateStep cfg cid) (saslAuthenticateStep other cid) := by
  intro ch twin related
  have rounds := congrArg List.length related.script
  simp only [saslAuthenticateStep, rounds]
  exact saslAuthenticateLoop_twins _ cid ch twin related

theorem runHandshake_twins (username password : Bytes) :
    Agree (ChannelTwins cfg (cfg.withCredentials username password)) (runHandshake cfg)
      (runHandshake (cfg.withCredentials username password)) := by
  unfold runHandshake
  -- The steps before and after the authentication do not look at the credentials.
  refine ((sendRequest_twins _ _ _).bind fun _ => (recvResponse_twins _).bind fun _ => .ofExcept _).bind fun _ => ?_
  refine ((sendRequest_twins _ _ _).bind fun _ => (recvResponse_twins _).bind fun _ => .ofExcept _).bind fun _ => ?_
  refine (saslAuthenticateStep_twins _).bind fun _ => ?_
  refine (recvOneway_twins.bind fun _ => (sendOneway_twins _ _).bind fun _ => .pure _).bind fun _ => ?_
  refine ((sendRequest_twins _ _ _).bind fun _ => (recvResponse_twins _).bind fun _ => .ofExcept _).bind fun _ => ?_
  exact .pure _

end Handshake

/-! ## The client -/

structure WireTwins (cfg other : ConnectionConfig) (w twin : WireEntry) : Prop where
  source : w.source = twin.source
  state : w.state = twin.state
  frame : w.frame = twin.frame ∨ w.source = .handshake ∧ FrameTwins cfg other w.frame twin.frame

theorem WireTwins.refl (w : WireEntry) : WireTwins cfg other w w := ⟨rfl, rfl, .inl rfl⟩

namespace Client

def withWire (s : Client) (wire : List WireEntry) : Client := { s with wire := wire }

section Fields
variable (s : Client) (wire : List WireEntry)

@[simp] theorem withWire_now : (s.withWire wire).now = s.now := rfl
@[simp] theorem withWire_state : (s.withWire wire).state = s.state := rfl
@[simp] theorem withWire_closing : (s.withWire wire).closing = s.closing := rfl
@[simp] theorem withWire_dispatcher : (s.withWire wire).dispatcher = s.dispatcher := rfl
@[simp] theorem withWire_negotiatedFrameMax : (s.withWire wire).negotiatedFrameMax = s.negotiatedFrameMax := rfl
@[simp] theorem withWire_control : (s.withWire wire).control = s.control := rfl
@[simp] theorem withWire_calls : (s.withWire wire).calls = s.calls := rfl
@[simp] theorem withWire_io : (s.withWire wire).io = s.io := rfl
@[simp] theorem withWire_heartbeat : (s.withWire wire).heartbeat = s.heartbeat := rfl
@[simp] theorem withWire_unexpectedFired : (s.withWire wire).unexpectedFired = s.unexpectedFired := rfl

@[simp] theorem withWire_elapsed (since duration : Int) :
    (s.withWire wire).elapsed since duration ↔ s.elapsed since duration := Iff.rfl

@[simp] theorem withWire_waitedOut (since : Int) :
    (s.withWire wire).waitedOut cfg since ↔ s.waitedOut cfg since := Iff.rfl

@[simp] theorem waitedOut_withCredentials (username password : Bytes) (since : Int) :
    s.waitedOut (cfg.withCredentials username password) since ↔ s.waitedOut cfg since := Iff.rfl

@[simp] theorem withWire_silent : (s.withWire wire).silent ↔ s.silent := Iff.rfl

@[simp] theorem withWire_setCall (n : Nat) (pc : CallPc) :
    (s.withWire wire).setCall n pc = (s.setCall n pc).withWire wire := rfl

@[simp] theorem withWire_finish (call : ControlCall) (result : Result Unit) :
    (s.withWire wire).finish call result = (s.finish call result).withWire wire := rfl

end Fields
end Client

/-- A client in which only what was written may differ, and that only in the credentials. -/
def ClientTwins (cfg other : ConnectionConfig) (s twin : Client) : Prop :=
  ∃ wire, twin = s.withWire wire ∧ List.Forall₂ (WireTwins cfg other) s.wire wire

namespace Client
variable {s s' twin : Client} {input : Input}

theorem callStep_twins (username password : Bytes) {n : Nat}
    (twins : ClientTwins cfg (cfg.withCredentials username password) s twin)
    (run : callStep cfg s n input = some s') :
    ∃ after, callStep (cfg.withCredentials username password) twin n input = some after ∧
      ClientTwins cfg (cfg.withCredentials username password) s' after := by
  obtain ⟨wire, rfl, related⟩ := twins
  cases callStep_move run with
  | write here | writeFailed here =>
    exact ⟨_, by simp only [callStep, withWire_calls, here]; rfl, _, rfl, forall₂_snoc related (.refl _)⟩
  | _ => exact ⟨_, by simp_all [callStep] <;> rfl, wire, rfl, related⟩

theorem ioStep_twins (twins : ClientTwins cfg other s twin) (run : ioStep s input = some s') :
    ∃ after, ioStep twin input = some after ∧ ClientTwins cfg other s' after := by
  obtain ⟨wire, rfl, related⟩ := twins
  cases ioStep_move run with
  | expire here settle | answer here settle | failOne here settle =>
    exact ⟨_, by simp [ioStep, ioSettle, here, settle]; rfl, wire, rfl, related⟩
  | reaped here done | dispatched here done | failedDeadline here done | failedRead here done =>
    exact ⟨_, by simp [ioStep, ioDone, here, done]; rfl, wire, rfl, related⟩
  | _ => exact ⟨_, by simp_all [ioStep]; rfl, wire, rfl, related⟩

theorem heartbeatStep_twins (twins : ClientTwins cfg other s twin) (run : heartbeatStep s input = some s') :
    ∃ after, heartbeatStep twin input = some after ∧ ClientTwins cfg other s' after := by
  obtain ⟨wire, rfl, related⟩ := twins
  cases heartbeatStep_move run with
  | write here =>
    exact ⟨_, by simp only [heartbeatStep, withWire_heartbeat, here]; rfl, _, rfl, forall₂_snoc related (.refl _)⟩
  | _ => exact ⟨_, by simp_all [heartbeatStep]; rfl, wire, rfl, related⟩

theorem handshakeEntries_twins (state : ConnectionState) {trace twin : List Event}
    (twins : List.Forall₂ (EventTwins cfg other) trace twin) :
    List.Forall₂ (WireTwins cfg other) (trace.filterMap (handshakeEntry state))
      (twin.filterMap (handshakeEntry state)) := by
  induction twins with
  | nil => exact .nil
  | cons event _ ih =>
    cases event with
    | sent twins => exact .cons ⟨rfl, rfl, .inr ⟨rfl, twins⟩⟩ ih
    | received => exact ih

theorem handshakeStep_twins (username password : Bytes) {replies : List Reply}
    (twins : ClientTwins cfg (cfg.withCredentials username password) s twin) :
    ClientTwins cfg (cfg.withCredentials username password) (handshakeStep cfg s replies)
      (handshakeStep (cfg.withCredentials username password) twin replies) := by
  obtain ⟨wire, rfl, related⟩ := twins
  obtain ⟨outcome, same⟩ := runHandshake_twins username password ⟨replies, []⟩ ⟨replies, []⟩ ⟨rfl, .nil⟩
  rcases left : (runHandshake cfg).run ⟨replies, []⟩ with ⟨result, ch⟩
  rcases right : (runHandshake (cfg.withCredentials username password)).run ⟨replies, []⟩ with ⟨other, twin⟩
  rw [left, right] at outcome same
  cases outcome
  have entries := List.rel_append related (handshakeEntries_twins s.state same.trace)
  simp only [handshakeStep, left, right]
  cases result with
  | error e => exact ⟨_, rfl, entries⟩
  | ok values => exact ⟨_, rfl, entries⟩

theorem controlStep_twins (username password : Bytes)
    (twins : ClientTwins cfg (cfg.withCredentials username password) s twin) (run : controlStep cfg s input = some s') :
    ∃ after, controlStep (cfg.withCredentials username password) twin input = some after ∧
      ClientTwins cfg (cfg.withCredentials username password) s' after := by
  cases controlStep_move run with
  | handshake here =>
    refine ⟨_, ?_, handshakeStep_twins username password twins⟩
    obtain ⟨wire, rfl, _⟩ := twins
    simp only [controlStep, withWire_control, here]
  | closeWrite here =>
    obtain ⟨wire, rfl, related⟩ := twins
    exact ⟨_, by simp only [controlStep, withWire_control, here]; rfl, _, rfl, forall₂_snoc related (.refl _)⟩
  | destroyLock here =>
    obtain ⟨wire, rfl, related⟩ := twins
    exact ⟨_, by simp only [controlStep, withWire_control, here]; rfl, wire, rfl, related⟩
  | closeFailOne here settle =>
    obtain ⟨wire, rfl, related⟩ := twins
    exact ⟨_, by simp [controlStep, here, settle]; rfl, wire, rfl, related⟩
  | _ =>
    obtain ⟨wire, rfl, related⟩ := twins
    exact ⟨_, by simp_all [controlStep] <;> rfl, wire, rfl, related⟩

theorem step_twins (username password : Bytes) {a : Action}
    (twins : ClientTwins cfg (cfg.withCredentials username password) s twin) (run : step cfg s a = some s') :
    ∃ after, step (cfg.withCredentials username password) twin a = some after ∧
      ClientTwins cfg (cfg.withCredentials username password) s' after := by
  cases a with
  | call n input => exact callStep_twins username password twins run
  | control input => exact controlStep_twins username password twins run
  | io input => exact ioStep_twins twins run
  | heartbeat input => exact heartbeatStep_twins twins run
  | tick | onUnexpectedClose =>
    obtain ⟨wire, rfl, related⟩ := twins
    cases run
    exact ⟨_, rfl, wire, rfl, related⟩
  | invoke n op =>
    obtain ⟨wire, rfl, related⟩ := twins
    obtain ⟨idle, rfl⟩ := step_invoke run
    exact ⟨_, by simp [step, idle], wire, rfl, related⟩
  | connect =>
    obtain ⟨wire, rfl, related⟩ := twins
    obtain ⟨idle, run⟩ := Option.ite_none_right_eq_some.mp run
    cases check : cfg.validate with
    | error e | ok =>
      rw [check] at run
      cases run
      exact ⟨_, by simp [step, idle, check] <;> rfl, wire, rfl, related⟩
  | close n =>
    obtain ⟨wire, rfl, related⟩ := twins
    obtain ⟨idle, free, rfl⟩ := step_close run
    exact ⟨_, by simp [step, idle, free]; rfl, wire, rfl, related⟩
  | destroy =>
    obtain ⟨wire, rfl, related⟩ := twins
    obtain ⟨idle, rfl⟩ := step_destroy run
    exact ⟨_, by simp [step, idle]; rfl, wire, rfl, related⟩

end Client

/-- The credentials reach nothing but the authentication requests. Whatever the peer and the
callers do, a client with other credentials goes the same way: every state, result, error and
callback is the same, and every frame handed to the socket, in the same order, except for the
credentials inside the authentication requests of the handshake. -/
theorem credentials_confined (username password : Bytes) {labels : List Action} {s : Client}
    (ran : (client cfg).exec Machine.anyStep {} labels = some s) : ∃ wire,
      (client (cfg.withCredentials username password)).exec Machine.anyStep {} labels = some (s.withWire wire) ∧
        List.Forall₂ (WireTwins cfg (cfg.withCredentials username password)) s.wire wire := by
  have follow : ∀ s twin a s', ClientTwins cfg (cfg.withCredentials username password) s twin →
      (client cfg).step s a = some s' →
        ∃ after, (client (cfg.withCredentials username password)).step twin a = some after ∧
          ClientTwins cfg (cfg.withCredentials username password) s' after :=
    fun _ _ _ _ twins move => Client.step_twins username password twins move
  obtain ⟨_, same, wire, rfl, related⟩ := Machine.exec_follows follow ⟨[], rfl, .nil⟩ ran
  exact ⟨wire, same, related⟩

def oneRequest : List Action :=
  opening (acceptingScript ⟨1048576, 0⟩) ++ request 0 (.deleteStream (text "a") false)

/-- The same with passwords of different lengths. -/
theorem credentials_confined_request : ∃ s wire,
    (client {}).exec Machine.anyStep {} oneRequest = some s ∧
    (client (ConnectionConfig.withCredentials {} (text "guest") (text "secret"))).exec Machine.anyStep {} oneRequest =
      some (s.withWire wire) ∧ s.wire.length = 6 ∧ s.wire ≠ wire := by
  have ran : ((client {}).exec Machine.anyStep {} oneRequest).any (fun s => s.wire.length = 6) = true := by
    decide +kernel
  have differ : ((client {}).exec Machine.anyStep {} oneRequest).map Client.wire ≠
      ((client (ConnectionConfig.withCredentials {} (text "guest") (text "secret"))).exec Machine.anyStep {}
        oneRequest).map Client.wire := by decide +kernel
  obtain ⟨s, final, frames⟩ := (Option.any_eq_true _ _).mp ran
  obtain ⟨wire, same, _⟩ := credentials_confined (text "guest") (text "secret") final
  refine ⟨s, wire, final, same, of_decide_eq_true frames, fun equal => differ ?_⟩
  rw [final, same, Option.map_some, Option.map_some, equal]
  rfl

end RmqStream
