import RmqStream.Client.Pending
import RmqStream.Client.Requests

/-! What is written outside `Open`.

Each writer decides to write some steps before it does: a call in `require_open`, the
heartbeat thread where it compares the clock. Nothing holds the connection open in
between, and the heartbeat thread looks at `stop_io_` instead of the state, which
`io_loop` does not set when it ends. The wire is silent outside `Open` in the runs where
no decision to write straddles the end of the connection. -/

set_option autoImplicit false

namespace RmqStream
open Library

def Op.passes (limit : UInt32) (op : Op) : Bool :=
  (checkOutboundFrameSize ((op.frame 0).length - 4) limit).isOk

/-- The call has passed `require_open` and is going to write. -/
def CallPc.writeAhead (limit : UInt32) : CallPc → Bool
  | .checkArguments op => op.checkArguments.isOk && (op.isOneway || op.passes limit)
  | .allocate op | .deadline op _ | .register op _ _ | .checkSize op _ => op.passes limit
  | .touch _ _ | .write _ _ => true
  | _ => false

def ControlPc.requestAhead : ControlPc → Bool
  | .closeAllocate _ | .closeDeadline _ _ | .closeRegister _ _ _ | .closeWrite _ _ => true
  | _ => false

def HeartbeatPc.writeAhead : HeartbeatPc → Bool
  | .write _ => true
  | _ => false

namespace Client

def leavesOpen (s : Client) : Action → Bool
  | .control .none =>
    match s.control with
    | .closeLock _ => s.state = .open
    | _ => false
  | .io .none => s.io = .leaving ∧ s.state = .open
  | _ => false

def heartbeatDue (s : Client) : Action → Bool
  | .heartbeat .none =>
    match s.heartbeat with
    | .compare now => now - s.lastOutbound ≥ (s.negotiatedHeartbeat.toNat : Int) * 1000
    | _ => false
  | _ => false

/-- The connection leaves `Open` when nobody is about to write, and no heartbeat falls
due outside `Open`. -/
structure WritesInTime (s : Client) (a : Action) : Prop where
  calls : s.leavesOpen a = true → ∀ n, (s.calls n).writeAhead s.negotiatedFrameMax = false
  heartbeat : s.leavesOpen a = true → s.heartbeat.writeAhead = false
  due : s.heartbeatDue a = true → s.state = .open

structure NoWriter (s : Client) : Prop where
  calls : ∀ n, (s.calls n).writeAhead s.negotiatedFrameMax = false
  heartbeat : s.heartbeat.writeAhead = false

variable {cfg : ConnectionConfig} {s s' : Client} {input : Input}

/-! ## Who is about to write -/

theorem passes_of_check {op : Op} {cid limit : UInt32}
    (check : checkOutboundFrameSize ((op.frame cid).length - 4) limit = .ok ()) : op.passes limit = true := by
  rw [Op.passes, ← op.frame_length cid, check]
  rfl

theorem outside_noWriter {pc : CallPc} (outside : pc.Outside) (limit : UInt32) : pc.writeAhead limit = false := by
  cases pc <;> simp_all [CallPc.Outside, CallPc.writeAhead]

theorem callStep_noWriter {n : Nat} (quiet : (s.calls n).writeAhead s.negotiatedFrameMax = false)
    (shut : s.state ≠ .open) (run : callStep cfg s n input = some s') :
    (s'.calls n).writeAhead s.negotiatedFrameMax = false := by
  cases callStep_move run with
  | admitted _ state => exact absurd state shut
  | @accepted op here check =>
    rw [here, CallPc.writeAhead, check] at quiet
    simp only [setCall, Function.update_self]
    cases oneway : op.isOneway <;> simp_all [CallPc.writeAhead, Except.isOk, Except.toBool]
  | fits here check =>
    rw [here, CallPc.writeAhead, passes_of_check check] at quiet
    cases quiet
  | touch here | write here | writeFailed here =>
    rw [here] at quiet
    cases quiet
  | allocate here | deadline here | register here =>
    rw [here] at quiet
    simp only [setCall, Function.update_self]
    exact quiet
  | _ =>
    simp only [setCall, Function.update_self]
    rfl

theorem heartbeatStep_noWriter (due : s.heartbeatDue (.heartbeat input) = false)
    (run : heartbeatStep s input = some s') : s'.heartbeat.writeAhead = false := by
  cases heartbeatStep_move run with
  | top | woken =>
    simp only
    split <;> rfl
  | compare here =>
    simp only [heartbeatDue, here, decide_eq_false_iff_not] at due
    simp only [if_neg due]
    rfl
  | _ => rfl

theorem step_noWriter {a : Action} (quiet : s.NoWriter) (untouched : s.Untouched) (staged : s.control.Staged s)
    (shut : s.state ≠ .open) (due : s.heartbeatDue a = false) (run : step cfg s a = some s') : s'.NoWriter where
  calls := by
    intro n
    rcases step_calls run n with still | ⟨_, ⟨op, begun, _⟩ | begun⟩ | ⟨input, rfl⟩
    · rw [still]
      rcases step_agreed run with ⟨same, _⟩ | here
      · rw [same]
        exact quiet.calls n
      · -- The limit changes in the handshake, when no call has been let in.
        rw [here] at staged
        exact outside_noWriter ((untouched (by simp [staged.1, ConnectionState.rank])).2 n) _
    · rw [begun]
      rfl
    · rw [begun]
      rfl
    · have same : s'.negotiatedFrameMax = s.negotiatedFrameMax := by
        obtain ⟨_, _, _, _, rfl⟩ := callStep_writes run
        rfl
      rw [same]
      exact callStep_noWriter (quiet.calls n) shut run
  heartbeat := by
    rcases step_threads run with ⟨_, _, _, _, _, rfl⟩ | ⟨n, input, rfl, run⟩ | ⟨input, rfl, run⟩ |
      ⟨input, rfl, run⟩ | ⟨input, rfl, run⟩
    · exact quiet.heartbeat
    · obtain ⟨_, _, _, _, rfl⟩ := callStep_writes run
      exact quiet.heartbeat
    · cases controlStep_move run with
      | handshake =>
        rw [handshakeStep_heartbeat]
        exact quiet.heartbeat
      | startHeartbeat =>
        simp only [finish]
        split <;> rfl
      | _ => exact quiet.heartbeat
    · obtain ⟨_, _, _, _, _, _, _, _, _, rfl⟩ := ioStep_writes run
      exact quiet.heartbeat
    · exact heartbeatStep_noWriter due run

/-- The connection leaves `Open` in two places, and neither moves a writer. -/
theorem step_leaves {a : Action} (staged : s.control.Staged s) (run : step cfg s a = some s')
    (opened : s.state = .open) (shut : s'.state ≠ .open) : s.leavesOpen a = true ∧
      s'.calls = s.calls ∧ s'.heartbeat = s.heartbeat ∧ s'.negotiatedFrameMax = s.negotiatedFrameMax := by
  rcases step_threads run with ⟨_, _, _, _, _, rfl⟩ | ⟨n, input, rfl, run⟩ | ⟨input, rfl, run⟩ |
    ⟨input, rfl, run⟩ | ⟨input, rfl, run⟩
  · exact absurd opened shut
  · obtain ⟨_, _, _, _, rfl⟩ := callStep_writes run
    exact absurd opened shut
  · cases controlStep_move run with
    | closeLock here => exact ⟨by simp [leavesOpen, here, opened], rfl, rfl, rfl⟩
    | handshake here | connectAbort here | closeFinish here =>
      rw [here, ControlPc.Staged, opened] at staged
      cases staged.1
    | connectLock _ state =>
      rw [opened] at state
      cases state
    | connectOpen => exact absurd rfl shut
    | _ => exact absurd opened shut
  · cases ioStep_move run with
    | leave here => exact ⟨by simp [leavesOpen, here, opened], rfl, rfl, rfl⟩
    | _ => exact absurd opened shut
  · obtain ⟨_, _, _, rfl⟩ := heartbeatStep_writes run
    exact absurd opened shut

theorem step_noWriter_outside {a : Action} (quiet : s.state ≠ .open → s.NoWriter) (untouched : s.Untouched)
    (staged : s.control.Staged s) (intime : s.WritesInTime a) (run : step cfg s a = some s')
    (shut : s'.state ≠ .open) : s'.NoWriter := by
  by_cases opened : s.state = .open
  · obtain ⟨leaves, calls, heartbeat, limit⟩ := step_leaves staged run opened shut
    constructor
    · rw [calls, limit]
      exact intime.calls leaves
    · rw [heartbeat]
      exact intime.heartbeat leaves
  · refine step_noWriter (quiet opened) untouched staged opened ?_ run
    rw [Bool.eq_false_iff]
    exact fun due => opened (intime.due due)

/-- The close request has not been sent: no `close` got through, or it is about to. -/
def Unannounced (s : Client) : Prop := s.state.rank < 3 ∨ s.control.requestAhead = true

def closes (s : Client) : Nat := s.wire.countP fun w => w.source = .close

theorem step_requestAhead {a : Action} (staged : s.control.Staged s) (run : step cfg s a = some s')
    (late : ¬ s.state.rank < 3) (ahead : s'.control.requestAhead = true) : s.control.requestAhead = true := by
  rcases step_control run with same | idle | ⟨input, rfl⟩
  · rwa [same] at ahead
  · -- The connection is closed and stays so, while a `close` under way is in `Closing`.
    have closing : s'.state = .closing := by
      have after := step_staged staged run
      cases here : s'.control <;> simp_all [ControlPc.requestAhead, ControlPc.Staged]
    rw [idle] at staged
    rcases staged with ⟨state, _⟩ | ⟨state, _⟩ | state
    · simp [state, ConnectionState.rank] at late
    · simp [state, ConnectionState.rank] at late
    · have stays := step_state (by rw [idle]; exact .inr (.inr state)) run
      simp [state, closing, ConnectionState.next] at stays
  · cases controlStep_move run with
    | closeLock _ state => simp [state, ConnectionState.rank] at late
    | @handshake replies =>
      rcases handshakeStep_control cfg s replies with opened | ⟨e, aborted⟩
      · simp [opened, ControlPc.requestAhead] at ahead
      · simp [aborted, ControlPc.requestAhead] at ahead
    | closeAllocate here | closeDeadline here | closeRegister here =>
      rw [here]
      rfl
    | closeFailOne here =>
      rw [here] at ahead
      cases ahead
    | _ => cases ahead

theorem step_closes {a : Action} (run : step cfg s a = some s') : s'.closes = s.closes ∨
    (∃ n cid, s.control = .closeWrite n cid) ∧ s'.control.requestAhead = false ∧ s'.state = s.state ∧
      s'.closes = s.closes + 1 := by
  obtain ⟨frames, handover, wire⟩ := step_handover run
  have grown : s'.closes = s.closes + frames.countP fun w => w.source = .close := by
    rw [closes, wire, List.countP_append, closes]
  cases handover with
  | nothing => exact .inl grown
  | handshake =>
    rw [List.countP_eq_zero.mpr fun w member => by simp [(handshake_entry member).1]] at grown
    exact .inl grown
  | close here =>
    cases controlStep_move run with
    | closeWrite => exact .inr ⟨⟨_, _, here⟩, rfl, rfl, grown⟩
  | call | heartbeat => exact .inl grown

theorem step_unannounced {a : Action} (staged : s.control.Staged s) (run : step cfg s a = some s')
    (unannounced : s'.Unannounced) : s.Unannounced ∧ s'.closes = s.closes := by
  constructor
  · by_cases early : s.state.rank < 3
    · exact .inl early
    · refine .inr (step_requestAhead staged run early (unannounced.resolve_left ?_))
      rcases step_state staged run with same | edge
      · rwa [same]
      · exact fun less => early ((ConnectionState.rank_lt_of_next edge).trans less)
  · refine (step_closes run).resolve_right ?_
    rintro ⟨⟨n, cid, here⟩, past, state, _⟩
    rw [here] at staged
    simp [Unannounced, past, state, staged.1, ConnectionState.rank] at unannounced

/-! ## Every state reached -/

/-- Sent in the handshake, or in `Open`, or as the close request in `Closing`. -/
def Permitted (w : WireEntry) : Prop :=
  w.source = .handshake ∨ w.state = .open ∨
    w.source = .close ∧ w.state = .closing ∧ ∃ cid, w.frame = closeFrame cid

structure Silent (s : Client) : Prop where
  wire : ∀ w ∈ s.wire, Permitted w
  quiet : s.state ≠ .open → s.NoWriter
  none : s.Unannounced → s.closes = 0
  one : s.closes ≤ 1

/-- Whoever is about to write is in `Open`, or is a `close` in `Closing`. -/
theorem handover_permitted {a : Action} {frames : List WireEntry} (quiet : s.state ≠ .open → s.NoWriter)
    (staged : s.control.Staged s) (handover : Handover cfg s a frames) : ∀ w ∈ frames, Permitted w := by
  intro w member
  by_cases opened : s.state = .open
  · cases handover with
    | nothing => cases member
    | handshake => exact .inl (handshake_entry member).1
    | call | close | heartbeat =>
      rw [List.mem_singleton.mp member]
      exact .inr (.inl opened)
  · obtain ⟨calls, heartbeat⟩ := quiet opened
    cases handover with
    | nothing => cases member
    | handshake => exact .inl (handshake_entry member).1
    | @call n op cid result here =>
      have ahead := calls n
      rw [here] at ahead
      cases ahead
    | @close n cid result here =>
      rw [here] at staged
      rw [List.mem_singleton.mp member]
      exact .inr (.inr ⟨rfl, staged.1, cid, rfl⟩)
    | heartbeat here =>
      rw [here] at heartbeat
      cases heartbeat

theorem step_silent {a : Action} (silent : s.Silent) (untouched : s.Untouched) (staged : s.control.Staged s)
    (intime : s.WritesInTime a) (run : step cfg s a = some s') : s'.Silent where
  wire := by
    obtain ⟨frames, handover, wire⟩ := step_handover run
    rw [wire]
    intro w member
    rcases List.mem_append.mp member with old | new
    · exact silent.wire w old
    · exact handover_permitted silent.quiet staged handover w new
  quiet := step_noWriter_outside silent.quiet untouched staged intime run
  none := by
    intro unannounced
    obtain ⟨before, same⟩ := step_unannounced staged run unannounced
    rw [same, silent.none before]
  one := by
    rcases step_closes run with same | ⟨⟨n, cid, here⟩, _, _, grown⟩
    · rw [same]
      exact silent.one
    · rw [grown, silent.none (.inr (by rw [here]; rfl))]

end Client

structure SilentOutsideOpen (cfg : ConnectionConfig) (s : Client) : Prop where
  permitted : ∀ w ∈ s.wire, Client.Permitted w
  single : s.closes ≤ 1
  closed : s.state = .closed → ∀ a s', (client cfg).step s a = some s' → s'.wire = s.wire

theorem reach_silent {cfg : ConnectionConfig} {s : Client} (reach : (client cfg).Reach Client.WritesInTime s) :
    s.Silent := by
  refine reach.invariant Client.Silent ?_ ?_
  · rintro _ rfl
    exact ⟨by simp, fun _ => ⟨fun _ => rfl, rfl⟩, fun _ => rfl, Nat.zero_le 1⟩
  · intro s a s' before silent intime run
    exact Client.step_silent silent (reach_kept before).untouched (reach_staged before) intime run

/-- In every run in which no decision to write straddles the end of the connection, the
client writes in `Open` only, apart from one close request, and never again once closed. -/
theorem silent_outside_open {cfg : ConnectionConfig} {s : Client}
    (reach : (client cfg).Reach Client.WritesInTime s) : SilentOutsideOpen cfg s := by
  obtain ⟨wire, quiet, _, one⟩ := reach_silent reach
  refine ⟨wire, one, ?_⟩
  intro closed a s' run
  obtain ⟨calls, heartbeat⟩ := quiet (by simp [closed])
  have staged := reach_staged reach
  obtain ⟨frames, handover, grown⟩ := Client.step_handover run
  cases handover with
  | nothing => simpa using grown
  | handshake here | close here =>
    rw [here, ControlPc.Staged, closed] at staged
    cases staged.1
  | @call n op cid result here =>
    have ahead := calls n
    rw [here] at ahead
    cases ahead
  | heartbeat here =>
    rw [here] at heartbeat
    cases heartbeat

def Action.invoked : Action → Option Nat
  | .invoke n _ => some n
  | _ => none

/-- The same condition for runs whose one lifecycle call has the number 0. -/
def OneCaller (s : Client) (a : Action) : Prop :=
  (∀ n ∈ a.invoked, n = 0) ∧
    (s.leavesOpen a = true →
      (s.calls 0).writeAhead s.negotiatedFrameMax = false ∧ s.heartbeat.writeAhead = false) ∧
    (s.heartbeatDue a = true → s.state = .open)

instance (s : Client) (a : Action) : Decidable (OneCaller s a) := inferInstanceAs (Decidable (_ ∧ _ ∧ _))

theorem reach_oneCaller {cfg : ConnectionConfig} {s : Client} (reach : (client cfg).Reach OneCaller s) :
    (∀ n, n ≠ 0 → s.calls n = .idle ∨ s.calls n = .close) ∧ (client cfg).Reach Client.WritesInTime s := by
  induction reach with
  | init first =>
    refine ⟨?_, .init first⟩
    cases first
    exact fun _ _ => .inl rfl
  | @step s s' a before allow move ih =>
    obtain ⟨others, reach⟩ := ih
    obtain ⟨one, leaves, due⟩ := allow
    constructor
    · intro n other
      rcases Client.step_calls move n with same | ⟨_, ⟨op, _, invoked⟩ | closing⟩ | ⟨input, rfl⟩
      · rw [same]
        exact others n other
      · subst invoked
        exact absurd (one n rfl) other
      · exact .inr closing
      · rcases others n other with here | here <;> cases Client.callStep_move move <;> simp_all
    · refine .step reach ⟨fun leaving n => ?_, fun leaving => (leaves leaving).2, due⟩ move
      by_cases zero : n = 0
      · rw [zero]
        exact (leaves leaving).1
      · rcases others n zero with here | here <;> rw [here] <;> rfl

def heartbeatTurn : List Action :=
  .heartbeat .none :: .tick 1000 :: List.replicate 3 (.heartbeat .none) ++ [.heartbeat (.sent (.ok ()))]

def storeRequest (n : Nat) : List Action :=
  .invoke n (.storeOffset (text "r") (text "s") 1) :: List.replicate 3 (.call n .none) ++ [.call n (.sent (.ok ()))]

/-- A `store_offset`, a heartbeat and a `close` that times out, one after the other. -/
theorem silent_outside_open_closed : ∃ s, (client {}).Reach Client.WritesInTime s ∧ s.state = .closed ∧
    s.closes = 1 ∧ SilentOutsideOpen {} s := by
  have ran : ((client {}).exec OneCaller {} (opening (acceptingScript ⟨1048576, 1⟩) ++
      storeRequest 0 ++ heartbeatTurn ++ closeRequest 1 ++
      .tick 10000 :: closeRest [.io .none, .io .none, .heartbeat .none, .heartbeat .none] 1)).any
      (fun s => s.state = .closed ∧ s.closes = 1) = true := by decide +kernel
  obtain ⟨s, reach, holds⟩ := Machine.reach_of_exec rfl ran
  obtain ⟨state, closes⟩ := of_decide_eq_true holds
  have intime := (reach_oneCaller reach).2
  exact ⟨s, intime, state, closes, silent_outside_open intime⟩

/-- The peer goes away, `io_loop` ends, and a second later the heartbeat thread writes. -/
theorem heartbeat_written_when_closed : ¬ ∀ (cfg : ConnectionConfig) (s : Client),
    (client cfg).Reach Machine.anyStep s → SilentOutsideOpen cfg s := by
  intro claimed
  have ran : ((client {}).exec Machine.anyStep {} (opening (acceptingScript ⟨1048576, 1⟩) ++
      readFailure 0 ++ heartbeatTurn)).any (fun s => s.state = .closed ∧
        ∃ w ∈ s.wire, w.source = .heartbeat ∧ w.state = .closed) = true := by decide +kernel
  obtain ⟨s, reach, holds⟩ := Machine.reach_of_exec rfl ran
  obtain ⟨_, w, member, source, state⟩ := of_decide_eq_true holds
  have permitted := (claimed {} s reach).permitted w member
  simp [Client.Permitted, source, state] at permitted

end RmqStream
