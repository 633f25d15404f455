import RmqStream.Client.Shutdown

/-! The unexpected-close event.

The branch of `io_loop` for a failed read asks whether the client is closing before it
notifies; the branch for the heartbeat deadline does not. The event is right in every run
in which the deadline does not pass on a read that came back after the closing flag was
raised. -/

set_option autoImplicit false

namespace RmqStream
open Library Commands

namespace Client

/-- A callback is registered before `connect` and none is taken away. -/
def keepsCallback (s : Client) : Action → Bool
  | .onUnexpectedClose registered => registered
  | .connect => s.callback
  | _ => true

/-- The deadline branch is not taken on a read that returned while closing. -/
def NotifiesRightly (s : Client) (a : Action) : Prop :=
  s.keepsCallback a = true ∧ (a = .io .none → s.io = .timedOut → s.silent → s.closingAtRead = false)

instance (s : Client) (a : Action) : Decidable (s.NotifiesRightly a) :=
  inferInstanceAs (Decidable (_ ∧ (_ → _ → _ → _)))

def Asked (s : Client) : Prop := (∃ n, s.calls n = .close) ∨ s.control.inDestroy = true

end Client

def Ending.reason (e : StreamError) : Ending → CloseReason
  | .heartbeat => .heartbeatTimeout
  | .readError => if e.kind = .connectionClosed then .peerClosedSocket else .ioError

def Explains (ended : Option (Ending × StreamError)) (event : UnexpectedClose) : Prop :=
  ∃ ending e, ended = some (ending, e) ∧ event.reason = ending.reason e

/-- What has been notified, by where the I/O thread stands. -/
def IoPc.Notified (s : Client) : IoPc → Prop
  | .notStarted => s.ended = none ∧ s.callbacks = [] ∧ s.unexpectedFired = false ∧ s.closingAtRead = false
  | .fail e ending | .failing e ending => s.ended = some (ending, e) ∧ s.callbacks = [] ∧
      s.unexpectedFired = false ∧ (ending = .heartbeat → s.closingAtRead = false)
  | .readClosing e => s.ended = some (.readError, e) ∧ s.callbacks = [] ∧ s.unexpectedFired = false
  | .notify event => Explains s.ended event ∧ s.callbacks = [] ∧ s.unexpectedFired = false ∧
      s.closingAtRead = false
  | .fetchCallback event => Explains s.ended event ∧ s.callbacks = [] ∧ s.closingAtRead = false
  | .leaving | .finished =>
    (s.callbacks = [] ∧ (s.closing = true ∨ s.ended = none ∧ s.stopIo = true)) ∨
      ∃ event, s.callbacks = [event] ∧ Explains s.ended event ∧ s.closingAtRead = false
  | _ => s.ended = none ∧ s.callbacks = [] ∧ s.unexpectedFired = false

def ControlPc.inConnect : ControlPc → Bool
  | .connectLock | .connectTcp | .connectHandshake | .connectAbort _ | .connectOpen | .connectStamp
  | .connectFlags | .connectStartIo | .connectStartHeartbeat => true
  | _ => false

structure Notified (s : Client) : Prop where
  io : s.io.Notified s
  registered : s.control.inConnect = true ∨ s.io ≠ .notStarted → s.callback = true
  atRead : s.closingAtRead = true → s.closing = true
  asked : s.closing = true ∨ s.stopIo = true ∨ s.control.inClose = true → s.Asked

namespace Client
variable {cfg : ConnectionConfig} {s s' : Client} {input : Input}

theorem controlStep_inDestroy (run : controlStep cfg s input = some s') (destroying : s.control.inDestroy = true) :
    s'.control.inDestroy = true := by
  cases controlStep_move run with
  | destroyLock | destroyStop | destroyJoinIo | destroyJoinHeartbeat | destroySocket => rfl
  | _ => simp_all [ControlPc.inDestroy]

theorem step_asked {a : Action} (asked : s.Asked) (run : step cfg s a = some s') : s'.Asked := by
  rcases asked with ⟨m, mine⟩ | destroying
  · refine .inl ⟨m, ?_⟩
    rcases step_calls run m with same | ⟨idle, _⟩ | ⟨input, rfl⟩
    · exact same.trans mine
    · rw [idle] at mine
      cases mine
    · -- A call that is a `close` has no steps of its own.
      obtain ⟨_, _, notClose, _⟩ := callStep_table run
      exact absurd mine notClose
  · refine .inr ?_
    rcases step_control run with same | idle | ⟨input, rfl⟩
    · exact same ▸ destroying
    · rw [idle] at destroying
      cases destroying
    · exact controlStep_inDestroy run destroying

/-! ## The event along a run -/

theorem ioNotified_frame {pc : IoPc} (notified : pc.Notified s) (ended : s'.ended = s.ended)
    (callbacks : s'.callbacks = s.callbacks) (fired : s'.unexpectedFired = s.unexpectedFired)
    (atRead : s'.closingAtRead = s.closingAtRead) (closing : s.closing = true → s'.closing = true)
    (stop : s.stopIo = true → s'.stopIo = true) : pc.Notified s' := by
  cases pc with
  | leaving | finished =>
    rcases notified with ⟨silent, late | ⟨stopped, flag⟩⟩ | ⟨event, started, explains, early⟩
    · exact .inl ⟨callbacks.trans silent, .inl (closing late)⟩
    · exact .inl ⟨callbacks.trans silent, .inr ⟨ended.trans stopped, stop flag⟩⟩
    · exact .inr ⟨event, callbacks.trans started, ended ▸ explains, atRead.trans early⟩
  | _ => simpa only [IoPc.Notified, ended, callbacks, fired, atRead] using notified

theorem ioStep_notified (notified : s.io.Notified s) (atRead : s.closingAtRead = true → s.closing = true)
    (callback : s.callback = true) (guarded : s.NotifiesRightly (.io input)) (run : ioStep s input = some s') :
    s'.io.Notified s' ∧ (s'.closingAtRead = true → s.closing = true) := by
  cases ioStep_move run with
  | @reaped _ next here => cases next <;> simp_all [IoPc.Notified, afterReap]
  | @failedDeadline e here =>
    rw [here] at notified
    obtain ⟨ended, silent, unfired, early⟩ := notified
    exact ⟨⟨⟨.heartbeat, e, ended, rfl⟩, silent, unfired, early rfl⟩, atRead⟩
  | failedRead here =>
    rw [here] at notified
    exact ⟨⟨notified.1, notified.2.1, notified.2.2.1⟩, atRead⟩
  | deadline here silent =>
    rw [here] at notified
    exact ⟨⟨rfl, notified.2.1, notified.2.2, fun _ => guarded.2 rfl here silent⟩, atRead⟩
  | @readClosing e here =>
    rw [here] at notified
    obtain ⟨ended, silent, unfired⟩ := notified
    refine ⟨?_, atRead⟩
    cases closing : s.closing with
    | true => exact .inl ⟨silent, .inl rfl⟩
    | false =>
      -- Nobody was closing at the read either, since the flag is never lowered.
      have late : s.closingAtRead = false := by
        rw [closing] at atRead
        simpa using atRead
      exact ⟨⟨.readError, e, ended, rfl⟩, silent, unfired, late⟩
  | @fetchCallback event here =>
    rw [here] at notified
    obtain ⟨explains, silent, late⟩ := notified
    exact ⟨.inr ⟨event, by simp [callback, silent], explains, late⟩, atRead⟩
  | leave here =>
    rw [here] at notified
    exact ⟨notified, atRead⟩
  | _ => simp_all [IoPc.Notified] <;> grind

/-- The control thread raises a flag only on behalf of `close` or the destructor. -/
theorem controlStep_flags (run : controlStep cfg s input = some s')
    (raised : s'.closing = true ∨ s'.stopIo = true ∨ s'.control.inClose = true) :
    s.closing = true ∨ s.stopIo = true ∨ s.control.inClose = true ∨ s.control.inDestroy = true := by
  revert raised
  cases controlStep_move run with
  | @handshake replies here =>
    obtain ⟨frames, ⟨e, same⟩ | ⟨frameMax, interval, same⟩⟩ := handshakeStep_eq cfg s replies <;>
      rw [same] <;> simp +contextual [ControlPc.inClose, ControlPc.closeAhead] <;> grind
  | _ => simp_all [ControlPc.inClose, ControlPc.closeAhead, ControlPc.inDestroy, finish, write]

theorem controlStep_notified (inv : Notified s) (staged : s.control.Staged s)
    (run : controlStep cfg s input = some s') : Notified s' := by
  have asked : s'.closing = true ∨ s'.stopIo = true ∨ s'.control.inClose = true → s'.Asked := by
    intro raised
    refine step_asked (a := .control input) ?_ run
    rcases controlStep_flags run raised with flag | flag | flag | flag
    · exact inv.asked (.inl flag)
    · exact inv.asked (.inr (.inl flag))
    · exact inv.asked (.inr (.inr flag))
    · exact .inr flag
  obtain ⟨io, registered, atRead, _⟩ := inv
  cases controlStep_move run with
  | @handshake replies here =>
    obtain ⟨frames, ⟨e, same⟩ | ⟨frameMax, interval, same⟩⟩ := handshakeStep_eq cfg s replies <;>
      rw [same] at asked ⊢ <;>
      exact ⟨ioNotified_frame io rfl rfl rfl rfl id id, fun _ => registered (.inl (by rw [here]; rfl)),
        atRead, asked⟩
  | closeFailOne => exact ⟨ioNotified_frame io rfl rfl rfl rfl id id, registered, atRead, asked⟩
  | connectOpen here | connectFlags here | startIo here =>
    -- The flags are lowered only while the I/O thread does not exist.
    rw [here] at staged
    have dormant := staged.2.1
    rw [dormant] at io
    refine ⟨?_, fun _ => registered (.inl (by rw [here]; rfl)), by simp_all [IoPc.Notified], asked⟩
    simp_all [IoPc.Notified]
  | _ =>
    refine ⟨ioNotified_frame io rfl rfl rfl rfl (by simp +contextual [finish, write])
      (by simp [finish, write]), ?_, ?_, asked⟩ <;> simp_all [ControlPc.inConnect, finish, write]

theorem notified_frame (inv : Notified s) (io : s'.io = s.io) (ended : s'.ended = s.ended)
    (callbacks : s'.callbacks = s.callbacks) (fired : s'.unexpectedFired = s.unexpectedFired)
    (atRead : s'.closingAtRead = s.closingAtRead) (closing : s'.closing = s.closing)
    (stop : s'.stopIo = s.stopIo)
    (registered : s'.control.inConnect = true ∨ s.io ≠ .notStarted → s'.callback = true)
    (asked : s.closing = true ∨ s.stopIo = true ∨ s'.control.inClose = true → s'.Asked) : Notified s' where
  io := io ▸ ioNotified_frame inv.io ended callbacks fired atRead (closing ▸ id) (stop ▸ id)
  registered := io ▸ registered
  atRead := by
    rw [atRead, closing]
    exact inv.atRead
  asked := by
    rw [closing, stop]
    exact asked

theorem step_notified {a : Action} (inv : Notified s) (staged : s.control.Staged s)
    (guarded : s.NotifiesRightly a) (run : step cfg s a = some s') : Notified s' := by
  have asked : s.Asked → s'.Asked := fun before => step_asked before run
  have registered := inv.registered
  cases a with
  | tick =>
    cases run
    exact notified_frame inv rfl rfl rfl rfl rfl rfl rfl registered inv.asked
  | onUnexpectedClose =>
    cases run
    exact notified_frame inv rfl rfl rfl rfl rfl rfl rfl (fun _ => guarded.1) inv.asked
  | invoke n op =>
    obtain ⟨_, rfl⟩ := step_invoke run
    exact notified_frame inv rfl rfl rfl rfl rfl rfl rfl registered fun raised => asked (inv.asked raised)
  | connect =>
    have callback : s.callback = true := guarded.1
    obtain ⟨idle, ⟨e, rfl⟩ | rfl⟩ := step_connect run <;>
      refine notified_frame inv rfl rfl rfl rfl rfl rfl rfl (fun _ => callback)
        (fun raised => asked (inv.asked ?_)) <;>
      simpa [finish, ControlPc.inClose, ControlPc.closeAhead, idle] using raised
  | close n =>
    obtain ⟨idle, _, rfl⟩ := step_close run
    refine notified_frame inv rfl rfl rfl rfl rfl rfl rfl ?_ fun _ => .inl ⟨n, Function.update_self n _ _⟩
    simpa [ControlPc.inConnect, idle, setCall] using registered
  | destroy =>
    obtain ⟨idle, rfl⟩ := step_destroy run
    refine notified_frame inv rfl rfl rfl rfl rfl rfl rfl ?_ fun _ => .inr rfl
    simpa [ControlPc.inConnect, idle] using registered
  | call n input =>
    obtain ⟨_, _, _, _, rfl⟩ := callStep_writes run
    exact notified_frame inv rfl rfl rfl rfl rfl rfl rfl registered fun raised => asked (inv.asked raised)
  | control input => exact controlStep_notified inv staged run
  | io input =>
    obtain ⟨started, _, _⟩ := ioStep_staged run
    have callback := registered (.inr started)
    obtain ⟨io, atRead⟩ := ioStep_notified inv.io inv.atRead callback guarded run
    obtain ⟨_, _, _, _, _, _, _, _, _, rfl⟩ := ioStep_writes run
    exact ⟨io, fun _ => callback, atRead, inv.asked⟩
  | heartbeat input =>
    obtain ⟨_, _, _, rfl⟩ := heartbeatStep_writes run
    exact notified_frame inv rfl rfl rfl rfl rfl rfl rfl registered inv.asked

end Client

theorem reach_notified {cfg : ConnectionConfig} {s : Client}
    (reach : (client cfg).Reach Client.NotifiesRightly s) : Notified s := by
  refine reach.invariant Notified ?_ ?_
  · rintro _ rfl
    exact ⟨⟨rfl, rfl, rfl, rfl⟩, by simp [ControlPc.inConnect], by simp,
      by simp [ControlPc.inClose, ControlPc.closeAhead]⟩
  · intro s a s' before inv guarded run
    exact Client.step_notified inv (reach_staged before) guarded run

structure RightlyNotified (s : Client) : Prop where
  once : s.callbacks.length ≤ 1
  /-- Silent when the closing flag was up as the last read returned. -/
  asked : s.closingAtRead = true → s.callbacks = []
  /-- Not silent when nobody asked. -/
  unasked : ¬ s.Asked → s.io = .finished → ∃ event, s.callbacks = [event] ∧
    (event.reason = .heartbeatTimeout ↔ ∃ e, s.ended = some (.heartbeat, e)) ∧
    (event.reason = .peerClosedSocket ↔ ∃ e, s.ended = some (.readError, e) ∧ e.kind = .connectionClosed)

theorem explains_reasons {ended : Option (Ending × StreamError)} {event : UnexpectedClose}
    (explains : Explains ended event) :
    (event.reason = .heartbeatTimeout ↔ ∃ e, ended = some (.heartbeat, e)) ∧
    (event.reason = .peerClosedSocket ↔ ∃ e, ended = some (.readError, e) ∧ e.kind = .connectionClosed) := by
  obtain ⟨ending, e, rfl, reason⟩ := explains
  rw [reason]
  cases ending with
  | heartbeat => simp [Ending.reason]
  | readError =>
    by_cases closed : e.kind = .connectionClosed <;> simp [Ending.reason, closed]

theorem unexpected_close_notified {cfg : ConnectionConfig} {s : Client}
    (reach : (client cfg).Reach Client.NotifiesRightly s) : RightlyNotified s := by
  have inv := reach_notified reach
  have io := inv.io
  -- The event is started by the time the thread leaves, and never after a late read.
  have started : s.callbacks = [] ∨ ∃ event, s.callbacks = [event] ∧ s.closingAtRead = false := by
    cases here : s.io with
    | leaving | finished =>
      rw [here] at io
      rcases io with ⟨silent, _⟩ | ⟨event, callbacks, _, early⟩
      · exact .inl silent
      · exact .inr ⟨event, callbacks, early⟩
    | _ =>
      rw [here] at io
      exact .inl (by simp_all [IoPc.Notified])
  refine ⟨?_, ?_, ?_⟩
  · rcases started with silent | ⟨event, callbacks, _⟩
    · simp [silent]
    · simp [callbacks]
  · intro late
    rcases started with silent | ⟨_, _, early⟩
    · exact silent
    · rw [late] at early
      cases early
  · intro unasked finished
    rw [finished] at io
    rcases io with ⟨_, closing | ⟨_, stop⟩⟩ | ⟨event, callbacks, explains, _⟩
    · exact absurd (inv.asked (.inl closing)) unasked
    · exact absurd (inv.asked (.inr (.inl stop))) unasked
    · exact ⟨event, callbacks, explains_reasons explains⟩

/-- The peer goes away from an open connection that nobody closes. -/
theorem unexpected_close_notified_once : ∃ s, (client {}).Reach Client.NotifiesRightly s ∧
    s.io = .finished ∧ s.callbacks = [⟨.peerClosedSocket, peerClosed.message, false⟩] ∧ RightlyNotified s := by
  have ran : ((client {}).exec Client.NotifiesRightly {} (.onUnexpectedClose true ::
      opening (acceptingScript ⟨1048576, 60⟩) ++ readFailure 0)).any (fun s => s.io = .finished ∧
        s.callbacks = [⟨.peerClosedSocket, peerClosed.message, false⟩]) = true := by
    decide +kernel
  obtain ⟨s, reach, holds⟩ := Machine.reach_of_exec rfl ran
  obtain ⟨finished, callbacks⟩ := of_decide_eq_true holds
  exact ⟨s, reach, finished, callbacks, unexpected_close_notified reach⟩

def idleTurn : List Action :=
  [.tick 500, .io (.read (.error recvTimeout))] ++ List.replicate 4 (.io .none)

/-- The turn in which the heartbeat deadline has passed, with one entry to fail. -/
def deadlineTurn : List Action :=
  .tick 500 :: .io (.read (.error recvTimeout)) :: .io .none :: .io .none :: .io (.pick 0) ::
    List.replicate 3 (.io .none)

/-- `close` has sent its request to a server that has fallen silent and waits. With a
heartbeat of one second the deadline passes in the fifth turn, and the callback is started. -/
theorem deadline_notified_while_closing :
    ¬ ∀ (cfg : ConnectionConfig) (s : Client),
      (client cfg).Reach (fun s a => s.keepsCallback a = true) s → RightlyNotified s := by
  intro claimed
  have ran : ((client {}).exec (fun s a => s.keepsCallback a = true) {} (.onUnexpectedClose true ::
      opening (acceptingScript ⟨1048576, 1⟩) ++ .io .none :: closeRequest 0 ++
      (List.replicate 4 idleTurn).flatten ++ deadlineTurn)).any
      (fun s => s.closingAtRead = true ∧ s.callbacks ≠ []) = true := by decide +kernel
  obtain ⟨s, reach, holds⟩ := Machine.reach_of_exec rfl ran
  obtain ⟨late, started⟩ := of_decide_eq_true holds
  exact started ((claimed {} s reach).asked late)

end RmqStream
