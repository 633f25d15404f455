import RmqStream.Client.Stages
import RmqStream.Handshake.Negotiation

/-! What the tune negotiation does to a connection.

The values of the handshake are stored once, before either background thread exists. A
negotiated heartbeat of zero then keeps the heartbeat thread and the inbound deadline
out of every run. -/

set_option autoImplicit false

namespace RmqStream
open Library Commands

namespace Client

/-- Every handshake of the run reads this proposal. -/
def ProposedBy (cfg : ConnectionConfig) (proposal : Tune) (_ : Client) (a : Action) : Prop :=
  ∀ replies, a = .control (.script replies) → ServerProposes cfg replies proposal

def Stores (s : Client) (values : Tune) : Prop :=
  s.negotiatedFrameMax = values.frameMax ∧ s.negotiatedHeartbeat = values.heartbeat

structure Tuned (values : Tune) (s : Client) : Prop where
  stored : s.control = .connectOpen ∨ s.state = .open ∨ s.io ≠ .notStarted → s.Stores values
  connected : (ControlCall.connect, Except.ok ()) ∈ s.returned → s.io ≠ .notStarted

variable {cfg : ConnectionConfig} {s s' : Client} {input : Input} {proposal : Tune} {values : Tune}

theorem Tuned.keep (tuned : Tuned values s) (frameMax : s'.negotiatedFrameMax = s.negotiatedFrameMax)
    (heartbeat : s'.negotiatedHeartbeat = s.negotiatedHeartbeat)
    (control : s'.control = .connectOpen → s.control = .connectOpen) (state : s'.state = .open → s.state = .open)
    (io : s'.io ≠ .notStarted ↔ s.io ≠ .notStarted)
    (returned : (ControlCall.connect, Except.ok ()) ∈ s'.returned → (ControlCall.connect, Except.ok ()) ∈ s.returned) :
    Tuned values s' := by
  constructor
  · intro far
    rw [Stores, frameMax, heartbeat]
    exact tuned.stored (far.imp control (Or.imp state io.mp))
  · intro member
    exact io.mpr (tuned.connected (returned member))

theorem handshakeStep_tuned {replies : List Reply} (tuned : Tuned (negotiate cfg proposal) s)
    (here : s.control = .connectHandshake) (staged : s.control.Staged s)
    (proposes : ServerProposes cfg replies proposal) :
    Tuned (negotiate cfg proposal) (handshakeStep cfg s replies) := by
  rw [here] at staged
  obtain ⟨state, io, _⟩ := staged
  have values := (runHandshake_negotiates proposes).stored
  unfold handshakeStep
  rcases outcome : (runHandshake cfg).run ⟨replies, []⟩ with ⟨e | result, ch⟩
  · refine ⟨?_, tuned.connected⟩
    simp [state, io]
  · exact ⟨fun _ => values result (by rw [outcome]), tuned.connected⟩

theorem controlStep_tuned (tuned : Tuned (negotiate cfg proposal) s) (staged : s.control.Staged s)
    (proposed : ProposedBy cfg proposal s (.control input)) (run : controlStep cfg s input = some s') :
    Tuned (negotiate cfg proposal) s' := by
  cases controlStep_move run with
  | handshake here => exact handshakeStep_tuned tuned here staged (proposed _ rfl)
  | connectOpen here => exact ⟨fun _ => tuned.stored (.inl here), tuned.connected⟩
  | startIo here =>
    rw [here] at staged
    exact ⟨fun _ => tuned.stored (.inr (.inl staged.1)), fun _ => by simp⟩
  | startHeartbeat here =>
    rw [here] at staged
    exact ⟨fun _ => tuned.stored (.inr (.inr staged.2.1)), fun _ => staged.2.1⟩
  | _ =>
    refine tuned.keep rfl rfl ?_ ?_ Iff.rfl ?_
    · simp_all [finish, write]
    · simp_all [finish, write]
    · simp [finish, write]

theorem step_tuned {a : Action} (tuned : Tuned (negotiate cfg proposal) s) (staged : s.control.Staged s)
    (proposed : ProposedBy cfg proposal s a) (run : step cfg s a = some s') :
    Tuned (negotiate cfg proposal) s' := by
  cases a with
  | tick | onUnexpectedClose =>
    cases run
    exact tuned.keep rfl rfl id id Iff.rfl id
  | invoke n op =>
    obtain ⟨_, rfl⟩ := step_invoke run
    exact tuned.keep rfl rfl id id Iff.rfl id
  | connect =>
    obtain ⟨idle, ⟨e, rfl⟩ | rfl⟩ := step_connect run
    · exact tuned.keep rfl rfl (by simp [finish]) id Iff.rfl (by simp [finish])
    · exact tuned.keep rfl rfl (by simp) id Iff.rfl id
  | close n =>
    obtain ⟨_, _, rfl⟩ := step_close run
    exact tuned.keep rfl rfl (by simp) id Iff.rfl id
  | destroy =>
    obtain ⟨_, rfl⟩ := step_destroy run
    exact tuned.keep rfl rfl (by simp) id Iff.rfl id
  | call n input =>
    obtain ⟨_, _, _, _, rfl⟩ := callStep_writes run
    exact tuned.keep rfl rfl id id Iff.rfl id
  | control input => exact controlStep_tuned tuned staged proposed run
  | io input =>
    obtain ⟨before, after, state⟩ := ioStep_staged run
    obtain ⟨_, _, _, _, _, _, _, _, _, rfl⟩ := ioStep_writes run
    exact tuned.keep rfl rfl id (by grind) (iff_of_true after before) id
  | heartbeat input =>
    obtain ⟨_, _, _, rfl⟩ := heartbeatStep_writes run
    exact tuned.keep rfl rfl id id Iff.rfl id

/-! ## No heartbeat -/

structure Quiet (s : Client) : Prop where
  thread : s.heartbeat = .notStarted
  wire : ∀ w ∈ s.wire, w.source ≠ .heartbeat
  ended : ∀ e, s.ended ≠ some (.heartbeat, e)

theorem step_quiet_wire {a : Action} (quiet : Quiet s) (run : step cfg s a = some s') :
    ∀ w ∈ s'.wire, w.source ≠ .heartbeat := by
  obtain ⟨frames, handover, grown⟩ := step_handover run
  intro w member
  rw [grown] at member
  rcases List.mem_append.mp member with old | new
  · exact quiet.wire w old
  cases handover with
  | nothing => cases new
  | handshake => simp [(handshake_entry new).1]
  | call | close => simp [List.mem_singleton.mp new]
  | heartbeat here => simp [quiet.thread] at here

theorem controlStep_quiet (quiet : Quiet s) (staged : s.control.Staged s)
    (disabled : s.io ≠ .notStarted → s.negotiatedHeartbeat = 0) (run : controlStep cfg s input = some s') :
    s'.heartbeat = .notStarted ∧ s'.ended = s.ended := by
  cases controlStep_move run with
  | @handshake replies =>
    obtain ⟨_, _, _, _, _, same⟩ := handshakeStep_writes cfg s replies
    rw [same]
    exact ⟨quiet.thread, rfl⟩
  | startHeartbeat here =>
    rw [here] at staged
    exact ⟨if_neg (by simp [disabled staged.2.1]), rfl⟩
  | _ => exact ⟨quiet.thread, rfl⟩

theorem ioStep_quiet (quiet : Quiet s) (disabled : s.io ≠ .notStarted → s.negotiatedHeartbeat = 0)
    (run : ioStep s input = some s') : s'.heartbeat = .notStarted ∧ ∀ e, s'.ended ≠ some (.heartbeat, e) := by
  cases ioStep_move run with
  | readError => exact ⟨quiet.thread, by simp⟩
  | deadline here silent =>
    have positive := silent.1
    rw [disabled (by simp [here])] at positive
    exact absurd positive (by decide)
  | _ => exact ⟨quiet.thread, quiet.ended⟩

theorem step_quiet {a : Action} (quiet : Quiet s) (tuned : Tuned values s) (staged : s.control.Staged s)
    (off : values.heartbeat = 0) (run : step cfg s a = some s') : Quiet s' := by
  have wire := step_quiet_wire quiet run
  -- Both places that could start something look at the value that was stored.
  have disabled : s.io ≠ .notStarted → s.negotiatedHeartbeat = 0 :=
    fun started => (tuned.stored (.inr (.inr started))).2.trans off
  rcases step_threads run with ⟨_, _, _, _, _, rfl⟩ | ⟨n, input, rfl, run⟩ | ⟨input, rfl, run⟩ |
    ⟨input, rfl, run⟩ | ⟨input, rfl, run⟩
  · exact ⟨quiet.thread, wire, quiet.ended⟩
  · obtain ⟨_, _, _, _, rfl⟩ := callStep_writes run
    exact ⟨quiet.thread, wire, quiet.ended⟩
  · obtain ⟨thread, ended⟩ := controlStep_quiet quiet staged disabled run
    exact ⟨thread, wire, by rw [ended]; exact quiet.ended⟩
  · obtain ⟨thread, ended⟩ := ioStep_quiet quiet disabled run
    exact ⟨thread, wire, ended⟩
  · exact absurd quiet.thread (heartbeatStep_staged run).1

end Client

theorem reach_tuned {cfg : ConnectionConfig} {proposal : Tune} {s : Client}
    (reach : (client cfg).Reach (Client.ProposedBy cfg proposal) s) : Client.Tuned (negotiate cfg proposal) s := by
  refine reach.invariant (Client.Tuned (negotiate cfg proposal)) ?_ ?_
  · rintro _ rfl
    exact ⟨by simp, by simp⟩
  · intro s a s' before tuned proposed run
    exact Client.step_tuned tuned (reach_staged before) proposed run

theorem reach_quiet {cfg : ConnectionConfig} {proposal : Tune} {s : Client}
    (reach : (client cfg).Reach (Client.ProposedBy cfg proposal) s)
    (off : (negotiate cfg proposal).heartbeat = 0) : Client.Quiet s := by
  refine reach.invariant Client.Quiet ?_ ?_
  · rintro _ rfl
    exact ⟨rfl, by simp, by simp⟩
  · intro s a s' before quiet _ run
    exact Client.step_quiet quiet (reach_tuned before) (reach_staged before) off run

/-- For these settings and this proposal the negotiation has its meaning in every run. -/
structure NegotiatesRightly (cfg : ConnectionConfig) (proposal : Tune) : Prop where
  /-- Reply, result and limit of the open request are the agreed values. -/
  handshake : ∀ script, ServerProposes cfg script proposal →
    Negotiates cfg ((runHandshake cfg).run ⟨script, []⟩) (agreed cfg proposal)
  /-- So are the values that `connect` stored, when it has opened the connection. -/
  stored : ∀ s, (client cfg).Reach (Client.ProposedBy cfg proposal) s →
    (ControlCall.connect, Except.ok ()) ∈ s.returned ∨ s.state = .open ∨ s.io ≠ .notStarted →
      s.Stores (agreed cfg proposal)
  /-- Zero on either side switches heartbeats off. -/
  quiet : proposal.heartbeat = 0 ∨ cfg.requestedHeartbeatSeconds = 0 →
    ∀ s, (client cfg).Reach (Client.ProposedBy cfg proposal) s → s.Quiet

theorem agreed_off {cfg : ConnectionConfig} {proposal : Tune}
    (zero : proposal.heartbeat = 0 ∨ cfg.requestedHeartbeatSeconds = 0) : (agreed cfg proposal).heartbeat = 0 :=
  if_pos zero

/-- The negotiation has its meaning for exactly those pairs in which the client asks for a
heartbeat or the server offers none. -/
theorem negotiates_rightly_iff (cfg : ConnectionConfig) (proposal : Tune) :
    NegotiatesRightly cfg proposal ↔ cfg.requestedHeartbeatSeconds ≠ 0 ∨ proposal.heartbeat = 0 := by
  rw [← negotiate_eq_agreed_iff]
  constructor
  · intro rightly
    have proposes := acceptingScript_proposes cfg proposal
    have meant := (rightly.handshake _ proposes).reply
    rw [(runHandshake_negotiates proposes).reply] at meant
    exact onewayFrame_tune_injective (List.singleton_inj.mp meant)
  · intro same
    constructor
    · intro script proposes
      rw [← same]
      exact runHandshake_negotiates proposes
    · intro s reach later
      have tuned := reach_tuned reach
      rw [← same]
      rcases later with returned | state | io
      · exact tuned.stored (.inr (.inr (tuned.connected returned)))
      · exact tuned.stored (.inr (.inl state))
      · exact tuned.stored (.inr (.inr io))
    · intro zero s reach
      exact reach_quiet reach (by rw [same]; exact agreed_off zero)

/-- A client that switches heartbeats off is given the server's sixty seconds. -/
theorem heartbeat_zero_ignored :
    ¬ ∀ (cfg : ConnectionConfig) (proposal : Tune), NegotiatesRightly cfg proposal := by
  intro claimed
  have proposes := acceptingScript_proposes { requestedHeartbeatSeconds := 0 } ⟨1048576, 60⟩
  have meant := ((claimed { requestedHeartbeatSeconds := 0 } ⟨1048576, 60⟩).handshake _ proposes).reply
  rw [(runHandshake_negotiates proposes).reply] at meant
  exact absurd (onewayFrame_tune_injective (List.singleton_inj.mp meant)) (by decide)

end RmqStream
