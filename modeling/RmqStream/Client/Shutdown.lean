import RmqStream.Client.Correlation

/-! The end of a connection and the requests still in the table.

Two threads empty the table for the last time: the I/O thread when a read fails or the
heartbeat deadline passes, and `close`. `require_open` and the registration are separate
critical sections, so a caller can pass the first before and reach the second after both.
Without such a late registration nothing is left behind. -/

set_option autoImplicit false

namespace RmqStream
open Library Commands

/-- The final `fail_all_pending` of `io_loop` is still ahead, unless the stop flag ends
the loop before it. -/
def IoPc.live : IoPc → Bool
  | .failing _ _ | .readClosing _ | .notify _ | .fetchCallback _ | .leaving | .finished => false
  | _ => true

def ControlPc.closeAhead : ControlPc → Bool
  | .closeAllocate _ | .closeDeadline _ _ | .closeRegister _ _ _ | .closeWrite _ _ | .closeWritten _
  | .closeWait _ _ | .closeStop | .closeSocket | .closeJoinIo | .closeJoinHeartbeat | .closeFail => true
  | _ => false

def ControlPc.inClose : ControlPc → Bool
  | .closeLock _ | .closeFailing | .closeFinish => true
  | pc => pc.closeAhead

def ControlPc.inDestroy : ControlPc → Bool
  | .destroyLock | .destroyStop | .destroyJoinIo | .destroyJoinHeartbeat | .destroySocket | .destroyed => true
  | _ => false

namespace Client

def awaited (s : Client) : Bool := s.io.live || s.control.closeAhead

def registers (s : Client) : Action → Bool
  | .call n .none =>
    match s.calls n with
    | .register _ _ _ => true
    | _ => false
  | _ => false

/-- The client is not destroyed under its callers. -/
def NotDestroyed (_ : Client) (a : Action) : Prop := a ≠ .destroy

instance (s : Client) (a : Action) : Decidable (s.NotDestroyed a) := inferInstanceAs (Decidable (_ ≠ _))

/-- No call registers after the last `fail_all_pending`. -/
def RegistersInTime (s : Client) (a : Action) : Prop :=
  s.NotDestroyed a ∧ (s.registers a = true → s.awaited = true)

instance (s : Client) (a : Action) : Decidable (s.RegistersInTime a) := inferInstanceAs (Decidable (_ ∧ (_ → _)))

end Client

/-- Nothing is left that nobody will fail, and the stop flag is up only while a `close`
waits for the I/O thread or after that thread has ended. -/
structure Drained (s : Client) : Prop where
  drained : s.awaited = false → s.dispatcher.pending = []
  stopped : s.stopIo = true → s.control.closeAhead = true ∨ s.io = .finished
  joined : s.control = .closeJoinHeartbeat ∨ s.control = .closeFail → s.io = .finished
  alive : s.control.inDestroy = false

namespace Client
variable {cfg : ConnectionConfig} {s s' : Client} {input : Input}

/-- Whoever neither ends a loop nor registers keeps the table drained. -/
theorem drained_frame (inv : Drained s) (control : s'.control = s.control) (io : s'.io = s.io)
    (stop : s'.stopIo = s.stopIo)
    (pending : s.awaited = false → ∀ e ∈ s'.dispatcher.pending, e ∈ s.dispatcher.pending) : Drained s' where
  drained := by
    intro nobody
    rw [awaited, control, io] at nobody
    refine List.eq_nil_iff_forall_not_mem.mpr fun e member => ?_
    have old := pending nobody e member
    rw [inv.drained nobody] at old
    exact List.not_mem_nil old
  stopped := by
    rw [stop, control, io]
    exact inv.stopped
  joined := by
    rw [control, io]
    exact inv.joined
  alive := control ▸ inv.alive

theorem callStep_drained {n : Nat} (inv : Drained s) (guarded : s.RegistersInTime (.call n input))
    (run : callStep cfg s n input = some s') : Drained s' := by
  have effect := callStep_table run
  have registering : ∀ op cid deadline, s.calls n = .register op cid deadline → s.awaited = true := by
    intro op cid deadline here
    cases input with
    | none => exact guarded.2 (by simp [registers, here])
    | _ => simp [callStep, here] at run
  obtain ⟨_, table, _, _, rfl⟩ := callStep_writes run
  obtain ⟨pc, _, _, effect⟩ := effect
  rcases effect with ⟨rfl, _⟩ | ⟨_, _, _, rfl⟩ | ⟨op, cid, deadline, here, _, rfl⟩
  · exact drained_frame inv rfl rfl rfl fun _ _ => id
  · exact drained_frame inv rfl rfl rfl fun _ _ => id
  · refine drained_frame inv rfl rfl rfl fun nobody => ?_
    rw [registering op cid deadline here] at nobody
    cases nobody

/-- What the I/O thread does to the table: it empties it for good, or takes some out and
goes on, unless it is told to stop. -/
theorem ioStep_drain (run : ioStep s input = some s') :
    s'.dispatcher.pending = [] ∨ ((∀ e ∈ s'.dispatcher.pending, e ∈ s.dispatcher.pending) ∧
      (s.io.live = true → s'.io.live = true ∨ s.io = .top ∧ s.stopIo = true)) := by
  cases ioStep_move run with
  | expire _ settle | answer _ settle | failOne _ settle =>
    obtain ⟨e, _, _, rfl⟩ := Dispatcher.settle_eq settle
    exact .inr ⟨fun _ => id, .inl⟩
  | @reaped _ next => exact .inr ⟨fun _ => id, fun _ => .inl (by cases next <;> rfl)⟩
  | reap => exact .inr ⟨fun e member => (List.mem_filter.mp member).1, fun _ => .inl rfl⟩
  | dispatch => exact .inr ⟨fun e => Dispatcher.pending_dispatchTake, fun _ => .inl rfl⟩
  | fail => exact .inl (by simp [Dispatcher.failAllTake, Dispatcher.take])
  | _ => exact .inr ⟨fun _ => id, by simp_all [IoPc.live] <;> grind [IoPc.live]⟩

theorem ioStep_drained (inv : Drained s) (run : ioStep s input = some s') : Drained s' := by
  have running : s.io ≠ .finished := by
    intro finished
    simp [ioStep, finished] at run
  have drain := ioStep_drain run
  obtain ⟨pc, table, _, _, _, _, _, _, _, rfl⟩ := ioStep_writes run
  -- While the thread runs, a raised stop flag means that `close` still waits for it.
  have stopping : s.stopIo = true → s.control.closeAhead = true := fun stop =>
    (inv.stopped stop).resolve_right running
  refine ⟨?_, fun stop => .inl (stopping stop), fun joined => absurd (inv.joined joined) running, inv.alive⟩
  intro nobody
  simp only [awaited, Bool.or_eq_false_iff] at nobody
  rcases drain with empty | ⟨part, goesOn⟩
  · exact empty
  · refine List.eq_nil_iff_forall_not_mem.mpr fun e member => ?_
    have before : s.awaited = false := by
      cases live : s.io.live with
      | false => simp [awaited, live, nobody.2]
      | true =>
        rcases goesOn live with still | ⟨_, stop⟩
        · rw [nobody.1] at still
          cases still
        · rw [stopping stop] at nobody
          cases nobody.2
    have old := part e member
    rw [inv.drained before] at old
    exact List.not_mem_nil old

theorem drained_control (inv : Drained s) (io : s'.io = s.io) (stop : s'.stopIo = s.stopIo)
    (table : s'.dispatcher.pending = s.dispatcher.pending)
    (ahead : s.control.closeAhead = true → s'.control.closeAhead = true)
    (joined : s'.control = .closeJoinHeartbeat ∨ s'.control = .closeFail → s.io = .finished)
    (alive : s'.control.inDestroy = false) : Drained s' where
  drained := by
    intro nobody
    rw [awaited, io, Bool.or_eq_false_iff] at nobody
    rw [table]
    refine inv.drained ?_
    rw [awaited, nobody.1, Bool.false_or, Bool.eq_false_iff]
    intro before
    rw [ahead before] at nobody
    cases nobody.2
  stopped := by
    rw [stop, io]
    exact fun up => (inv.stopped up).imp_left ahead
  joined := by
    rw [io]
    exact joined
  alive := alive

theorem controlStep_drained (inv : Drained s) (staged : s.control.Staged s)
    (run : controlStep cfg s input = some s') : Drained s' := by
  have alive := inv.alive
  cases controlStep_move run with
  | @handshake replies here =>
    refine drained_control inv (handshakeStep_io _ _ _) (handshakeStep_stopIo _ _ _) (by simp)
      (by simp [here, ControlPc.closeAhead]) ?_ ?_ <;>
      rcases handshakeStep_control cfg s replies with opened | ⟨e, aborted⟩ <;> simp [*, ControlPc.inDestroy]
  | connectFlags here =>
    refine ⟨fun nobody => inv.drained ?_, by simp, by simp, rfl⟩
    simpa [awaited, here, ControlPc.closeAhead] using nobody
  | startIo here =>
    -- The loop is ahead again, and nobody has raised the flag.
    rw [here] at staged
    refine ⟨by simp [awaited, IoPc.live], fun up => absurd (inv.stopped up) ?_, by simp, rfl⟩
    simp [here, ControlPc.closeAhead, staged.2.1]
  | closeRegister => exact ⟨by simp [awaited, ControlPc.closeAhead], fun _ => .inl rfl, by simp, rfl⟩
  | closeStop => exact ⟨by simp [awaited, ControlPc.closeAhead], fun _ => .inl rfl, by simp, rfl⟩
  | closeJoinIo here ended =>
    rw [here] at staged
    exact drained_control inv rfl rfl rfl (fun _ => rfl) (fun _ => ended.resolve_right staged.2) rfl
  | closeJoinHeartbeat here =>
    exact drained_control inv rfl rfl rfl (fun _ => rfl) (fun _ => inv.joined (.inl here)) rfl
  | closeFail here =>
    exact ⟨fun _ => Dispatcher.pending_failAllTake _ _, fun _ => .inr (inv.joined (.inr here)), by simp, rfl⟩
  | closeFailOne here settle =>
    obtain ⟨e, _, _, rfl⟩ := Dispatcher.settle_eq settle
    exact ⟨inv.drained, inv.stopped, inv.joined, inv.alive⟩
  | destroyLock here | destroyStop here | destroyJoinIo here | destroyJoinHeartbeat here | destroySocket here =>
    rw [here] at alive
    cases alive
  | _ =>
    exact drained_control inv rfl rfl rfl (by simp_all [ControlPc.closeAhead, finish, write])
      (by simp_all [finish, write]) rfl

theorem step_drained {a : Action} (inv : Drained s) (staged : s.control.Staged s)
    (guarded : s.RegistersInTime a) (run : step cfg s a = some s') : Drained s' := by
  cases a with
  | tick | onUnexpectedClose =>
    cases run
    exact drained_frame inv rfl rfl rfl fun _ _ => id
  | invoke n op =>
    obtain ⟨_, rfl⟩ := step_invoke run
    exact drained_frame inv rfl rfl rfl fun _ _ => id
  | connect =>
    obtain ⟨drained, stopped, joined, alive⟩ := inv
    obtain ⟨idle, ⟨e, rfl⟩ | rfl⟩ := step_connect run <;> constructor <;>
      simp_all [awaited, ControlPc.closeAhead, ControlPc.inDestroy, finish]
  | close n =>
    obtain ⟨drained, stopped, joined, alive⟩ := inv
    obtain ⟨idle, _, rfl⟩ := step_close run
    constructor <;> simp_all [awaited, ControlPc.closeAhead, ControlPc.inDestroy, setCall]
  | destroy => exact absurd rfl guarded.1
  | call n input => exact callStep_drained inv guarded run
  | control input => exact controlStep_drained inv staged run
  | io input => exact ioStep_drained inv run
  | heartbeat input =>
    obtain ⟨_, _, _, rfl⟩ := heartbeatStep_writes run
    exact drained_frame inv rfl rfl rfl fun _ _ => id

end Client

theorem reach_drained {cfg : ConnectionConfig} {s : Client}
    (reach : (client cfg).Reach Client.RegistersInTime s) : Drained s := by
  refine reach.invariant Drained ?_ ?_
  · rintro _ rfl
    exact ⟨fun _ => rfl, by simp, by simp, rfl⟩
  · intro s a s' before inv guarded run
    exact Client.step_drained inv (reach_staged before) guarded run

/-- Once the I/O thread has ended and no `close` is in progress the table is empty, and
every request that was registered has been answered or failed. -/
theorem no_request_orphaned {cfg : ConnectionConfig} {s : Client}
    (reach : (client cfg).Reach Client.RegistersInTime s) (ended : s.io = .finished)
    (noClose : s.control.inClose = false) :
    s.dispatcher.pending = [] ∧ (s.dispatcher.allocated < 2 ^ 32 → ∀ n k,
      s.dispatcher.ticket n = .registered k → ∃ x ∈ s.dispatcher.settled, x.entry.owner = n) := by
  have notFailing : s.control ≠ .closeFailing := by
    intro here
    rw [here] at noClose
    cases noClose
  have past : s.control.closeAhead = false := by
    cases here : s.control <;> rw [here] at noClose <;> first | rfl | cases noClose
  have empty : s.dispatcher.pending = [] :=
    (reach_drained reach).drained (by rw [Client.awaited, ended, past]; rfl)
  refine ⟨empty, fun few n k registered => ?_⟩
  have linked := reach_linked reach
  have ioHands := linked.ioHeld
  rw [ended] at ioHands
  -- The entry of a registered request is nowhere but among the settled ones.
  obtain ⟨e, member, owner⟩ := linked.table.present n k registered
  unfold Dispatcher.entries at member
  rw [empty, show s.dispatcher.held .io = [] from ioHands, linked.controlHeld notFailing,
    linked.table.intact few.le] at member
  simp only [List.nil_append, List.append_nil, List.mem_map] at member
  obtain ⟨x, settled, rfl⟩ := member
  exact ⟨x, settled, owner⟩

/-- A call that waits when the peer goes away is failed. -/
theorem no_request_orphaned_waiting : ∃ s, (client {}).Reach Client.RegistersInTime s ∧
    s.dispatcher.ticket 0 = .registered 0 ∧ s.dispatcher.pending = [] ∧
    ∃ x ∈ s.dispatcher.settled, x.entry.owner = 0 := by
  have ran : ((client {}).exec Client.RegistersInTime {} (opening (acceptingScript ⟨1048576, 60⟩) ++
      request 0 (.deleteStream (text "a") false) ++ readFailure 1)).any (fun s => s.io = .finished ∧
        s.control.inClose = false ∧ s.dispatcher.allocated < 2 ^ 32 ∧
        s.dispatcher.ticket 0 = .registered 0) = true := by
    decide +kernel
  obtain ⟨s, reach, holds⟩ := Machine.reach_of_exec rfl ran
  obtain ⟨ended, noClose, few, registered⟩ := of_decide_eq_true holds
  obtain ⟨empty, resolved⟩ := no_request_orphaned reach ended noClose
  exact ⟨s, reach, registered, empty, resolved few 0 0 registered⟩

/-- A call passes `require_open`, the peer goes away and the I/O thread ends, and only
then the call registers. -/
theorem late_request_orphaned :
    ¬ ∀ (cfg : ConnectionConfig) (s : Client), (client cfg).Reach Client.NotDestroyed s → s.io = .finished →
      s.control.inClose = false → s.dispatcher.pending = [] := by
  intro claimed
  have ran : ((client {}).exec Client.NotDestroyed {} (opening (acceptingScript ⟨1048576, 60⟩) ++
      (.invoke 0 (.deleteStream (text "a") false) :: List.replicate 4 (.call 0 .none)) ++ readFailure 0 ++
      [.call 0 .none])).any (fun s => s.io = .finished ∧ s.control.inClose = false ∧
        s.dispatcher.pending ≠ []) = true := by
    decide +kernel
  obtain ⟨s, reach, holds⟩ := Machine.reach_of_exec rfl ran
  obtain ⟨ended, noClose, left⟩ := of_decide_eq_true holds
  exact left (claimed {} s reach ended noClose)

end RmqStream
