import RmqStream.Client.Reception
import RmqStream.Handshake.Socket

/-! All bytes of a connection, from the first reply of the handshake on.

`run_handshake` and `io_loop` share one `SocketReader`, the one on the control thread and
then the other on its own. -/

set_option autoImplicit false

namespace RmqStream
open Library Commands

namespace Client
variable {cfg : ConnectionConfig} {s s' : Client} {input : Input}

def Greeted (s : Client) : Prop := s.control = .connectOpen ∨ s.state = .open ∨ s.io ≠ .notStarted

theorem controlStep_greeted (staged : s.control.Staged s) (run : controlStep cfg s input = some s')
    (greeted : s'.Greeted) : s.Greeted ∨ ∃ replies result, input = .script replies ∧
      ((runHandshake cfg).run ⟨replies, []⟩).1 = .ok result := by
  cases controlStep_move run with
  | @handshake replies here =>
    rw [here] at staged
    obtain ⟨state, io, _⟩ := staged
    rcases outcome : (runHandshake cfg).run ⟨replies, []⟩ with ⟨e | result, ch⟩
    · simp [handshakeStep, outcome, Greeted, state, io] at greeted
    · exact .inr ⟨replies, result, rfl, by rw [outcome]⟩
  | connectOpen here => exact .inl (.inl here)
  | startIo here =>
    rw [here] at staged
    exact .inl (.inr (.inl staged.1))
  | _ => simp_all [Greeted, finish, write]

theorem step_greeted {a : Action} (staged : s.control.Staged s) (run : step cfg s a = some s') (greeted : s'.Greeted) :
    s.Greeted ∨ ∃ replies result, a = .control (.script replies) ∧
      ((runHandshake cfg).run ⟨replies, []⟩).1 = .ok result := by
  cases a with
  | tick | onUnexpectedClose =>
    cases run
    exact .inl greeted
  | invoke n op =>
    obtain ⟨_, rfl⟩ := step_invoke run
    exact .inl greeted
  | connect =>
    obtain ⟨_, ⟨e, rfl⟩ | rfl⟩ := step_connect run
    · exact .inl (greeted.imp_left fun here => by cases here)
    · exact .inl (greeted.imp_left fun here => by cases here)
  | close n =>
    obtain ⟨_, _, rfl⟩ := step_close run
    exact .inl (greeted.imp_left fun here => by cases here)
  | destroy =>
    obtain ⟨_, rfl⟩ := step_destroy run
    exact .inl (greeted.imp_left fun here => by cases here)
  | call n input =>
    obtain ⟨_, _, _, _, rfl⟩ := callStep_writes run
    exact .inl greeted
  | control input =>
    refine (controlStep_greeted staged run greeted).imp_right ?_
    rintro ⟨replies, result, rfl, accepted⟩
    exact ⟨replies, result, rfl, accepted⟩
  | io input => exact .inl (.inr (.inr (ioStep_staged run).1))
  | heartbeat input =>
    obtain ⟨_, _, _, rfl⟩ := heartbeatStep_writes run
    exact .inl greeted

end Client

def Occurrence.replies : Occurrence → Option (List Reply)
  | .client (.control (.script replies)) => some replies
  | _ => none

/-- The handshake reads what `recv` returned to it, and all of that. -/
def HandshakeReads (cfg : ConnectionConfig) (greeting : Schedule) (_ : Reception) (o : Occurrence) : Prop :=
  ∀ replies ∈ o.replies, replies = repliesOf greeting ∧
    Reads greeting (receivedReplies (greet cfg greeting).2.trace) []

theorem reach_greeted {cfg : ConnectionConfig} {greeting : Schedule} {s : Reception}
    (reach : (reception cfg).Reach (HandshakeReads cfg greeting) s) (greeted : s.client.Greeted) :
    (∃ result, (greet cfg greeting).1 = .ok result) ∧
      Reads greeting (receivedReplies (greet cfg greeting).2.trace) [] := by
  induction reach with
  | init here =>
    cases here
    simp [Client.Greeted] at greeted
  | @step s o s' before allowed run ih =>
    cases Reception.step_move run with
    | @client a client moved own =>
      rcases Client.step_greeted (reach_staged (reach_client before)) moved greeted with
        earlier | ⟨replies, result, rfl, accepted⟩
      · exact ih earlier
      · obtain ⟨rfl, reads⟩ := allowed replies rfl
        exact ⟨⟨result, accepted⟩, reads⟩
    | more here | frame here | timeout here | failed here => exact ih (.inr (.inr (by simp [here])))

/-- All bytes of the connection are frames in a row, of which the handshake and `io_loop`
get each once and in order. The first byte that `io_loop` receives begins a frame. -/
structure IncomingStream (cfg : ConnectionConfig) (greeting : Schedule) (s : Reception) : Prop where
  frames : frames (delivered greeting ++ s.received) =
    receivedFrames (greet cfg greeting).2.trace ++ s.arrived
  boundary : FrameBoundary (delivered greeting ++ s.received) (delivered greeting).length
  answers : ∀ x ∈ s.client.dispatcher.settled, ∀ index frame, x.cause = .response index frame → frame ∈ s.arrived

theorem incoming_stream {cfg : ConnectionConfig} {greeting : Schedule} {s : Reception}
    (reach : (reception cfg).Reach (HandshakeReads cfg greeting) s) (started : s.client.io ≠ .notStarted) :
    IncomingStream cfg greeting s := by
  obtain ⟨⟨result, accepted⟩, reads⟩ := reach_greeted reach (.inr (.inr started))
  obtain ⟨boundary, all⟩ := reads.stream rfl (greet_succeed accepted) s.received
  refine ⟨?_, boundary, (reach_dispatched reach).answers⟩
  rw [all, (reach_tracked reach).frames]
  rfl

def acceptingBytes (tune : Tune) : Bytes :=
  encodeRequestFrame (Key.responseOf Key.peerProperties) 1 1
      (Command.encodeBody (⟨ResponseCode.ok, []⟩ : PeerPropertiesResponse)) ++
    encodeRequestFrame (Key.responseOf Key.saslHandshake) 1 2
      (Command.encodeBody (⟨ResponseCode.ok, [text "PLAIN"]⟩ : SaslHandshakeResponse)) ++
    encodeRequestFrame (Key.responseOf Key.saslAuthenticate) 1 3
      (Command.encodeBody (⟨ResponseCode.ok, none⟩ : SaslAuthenticateResponse)) ++
    encodeOnewayFrame Key.tune 1 (Command.encodeBody tune) ++
    encodeRequestFrame (Key.responseOf Key.open) 1 4 (Command.encodeBody (⟨ResponseCode.ok, []⟩ : OpenResponse))

/-- The handshake comes in two pieces that are cut inside its second frame, and a heartbeat
follows. -/
theorem incoming_stream_two_pieces : ∃ greeting s, delivered greeting = acceptingBytes ⟨1048576, 0⟩ ∧
    (reception {}).Reach (HandshakeReads {} greeting) s ∧ s.arrived = [⟨Key.heartbeat, 1, [], none⟩] ∧
    IncomingStream {} greeting s := by
  let greeting : Schedule := leftover ((acceptingBytes ⟨1048576, 0⟩).take 21)
    (.interrupted :: leftover ((acceptingBytes ⟨1048576, 0⟩).drop 21) [])
  have reads : Reads greeting (acceptingScript ⟨1048576, 0⟩) [] :=
    .read rfl (.read rfl (.read rfl (.read rfl (.read rfl .none))))
  have replies : repliesOf greeting = acceptingScript ⟨1048576, 0⟩ ++ [.error peerClosed] := by
    rw [reads.front (by simp [acceptingScript]), repliesOf_error rfl]
  have recorded : receivedReplies (greet {} greeting).2.trace = acceptingScript ⟨1048576, 0⟩ := by
    rw [greet, replies]
    decide +kernel
  have ran : ((reception {}).exec (fun _ o => ∀ replies ∈ o.replies,
      replies = acceptingScript ⟨1048576, 0⟩ ++ [.error peerClosed]) {}
      ((opening (acceptingScript ⟨1048576, 0⟩ ++ [.error peerClosed])).map .client ++ [.client (.io .none)] ++
        [.recv (.data 0 [0, 0, 4]), .recv (.data 0 [0x17, 0, 1])])).any (fun s =>
          s.client.io ≠ .notStarted ∧ s.arrived = [⟨Key.heartbeat, 1, [], none⟩]) = true := by decide +kernel
  obtain ⟨s, reach, holds⟩ := Machine.reach_of_exec rfl ran
  obtain ⟨started, arrived⟩ := of_decide_eq_true holds
  have allowed : (reception {}).Reach (HandshakeReads {} greeting) s :=
    reach.mono fun _ _ given found member => ⟨(given found member).trans replies.symm, recorded ▸ reads⟩
  exact ⟨greeting, s, rfl, allowed, arrived, incoming_stream allowed started⟩

end RmqStream
