import RmqStream.Client.EndToEnd
import RmqStream.Client.Notification
import RmqStream.Client.Watchdog

/-! Why a call fails.

Every error that a lifecycle call returns goes back to something that happened to this call: its
check, its frame, its `write_all`, its wait, its response, or the end of the connection. What has
become of the request differs: with some of these nothing of it has gone out, with others it has
gone out whole. -/

set_option autoImplicit false

namespace RmqStream
open Library Commands

namespace Client
variable {cfg : ConnectionConfig} {s s' : Client} {n : Nat} {op : Op}

inductive Failure (cfg : ConnectionConfig) (s : Client) (n : Nat) (op : Op) : Action → StreamError → Prop where
  | notOpen (here : s.calls n = .requireOpen op) (state : s.state ≠ .open) :
    Failure cfg s n op (.call n .none) notOpen
  | argument {e : StreamError} (here : s.calls n = .checkArguments op) (check : op.checkArguments = .error e) :
    Failure cfg s n op (.call n .none) e
  | tooLarge {cid : UInt32} {e : StreamError} (here : s.calls n = .checkSize op cid)
      (check : checkOutboundFrameSize ((op.frame cid).length - 4) s.negotiatedFrameMax = .error e) :
    Failure cfg s n op (.call n .none) e
  | write {cid : UInt32} {e : StreamError} (here : s.calls n = .write op cid) :
    Failure cfg s n op (.call n (.sent (.error e))) e
  | value {cid : UInt32} {since : Int} {e : StreamError} (here : s.calls n = .wait op cid since)
      (value : s.dispatcher.value n = some (.error e)) : Failure cfg s n op (.call n .none) e
  | timedOut {cid : UInt32} {since : Int} (here : s.calls n = .wait op cid since)
      (value : s.dispatcher.value n = none) (late : s.waitedOut cfg since) :
    Failure cfg s n op (.call n .none) requestTimedOut
  | response {cid : UInt32} {frame : IncomingFrame} {e : StreamError} (here : s.calls n = .answered op cid frame)
      (finish : op.finish frame = .error e) : Failure cfg s n op (.call n .none) e

theorem step_failure {a : Action} {e : StreamError} (run : step cfg s a = some s')
    (failed : s'.calls n = .returned op (.error e)) : s.calls n = .returned op (.error e) ∨ Failure cfg s n op a e := by
  rcases step_calls run n with same | ⟨_, ⟨other, begun, _⟩ | begun⟩ | ⟨input, rfl⟩
  · exact .inl (same.symm.trans failed)
  · simp [begun] at failed
  · simp [begun] at failed
  · right
    cases callStep_move run with
    | refused here state =>
      simp only [setCall, Function.update_self] at failed
      cases failed
      exact .notOpen here state
    | rejected here check =>
      simp only [setCall, Function.update_self] at failed
      cases failed
      exact .argument here check
    | tooLarge here check =>
      simp only [setCall, Function.update_self] at failed
      cases failed
      exact .tooLarge here check
    | writeFailed here =>
      simp only [setCall, Function.update_self] at failed
      cases failed
      exact .write here
    | failed here value =>
      simp only [setCall, Function.update_self] at failed
      cases failed
      exact .value here value
    | timedOut here value _ late =>
      simp only [setCall, Function.update_self] at failed
      cases failed
      exact .timedOut here value late
    | @finish op' cid frame here =>
      simp only [setCall, Function.update_self, CallPc.returned.injEq] at failed
      obtain ⟨rfl, finish⟩ := failed
      exact .response here finish
    | accepted | write =>
      simp only [setCall, Client.write, Function.update_self] at failed
      split at failed <;> cases failed
    | _ => simp [setCall] at failed

/-! ## The table -/

def reapsAt (s : Client) : Option Int :=
  match s.io with
  | .reap now _ | .reaping now _ => some now
  | _ => none

structure Clocked (s : Client) : Prop where
  reaper : ∀ now ∈ s.reapsAt, now ≤ s.now
  expired : ∀ x ∈ s.dispatcher.settled, ∀ now, x.cause = .expired now → now ≤ s.now

theorem step_clocked {a : Action} (clocked : Clocked s) (run : step cfg s a = some s') : Clocked s' := by
  have later := step_clock run
  constructor
  · have kept : s'.io = s.io → ∀ now ∈ s'.reapsAt, now ≤ s'.now := by
      intro same now found
      rw [reapsAt, same] at found
      exact (clocked.reaper now found).trans later
    rcases step_sides run with ⟨_, _, _, _, _, _, _, _, _, rfl⟩ | ⟨input, rfl, moved⟩ | ⟨input, rfl, moved⟩
    · exact kept rfl
    · cases controlStep_move moved with
      | handshake => exact kept (handshakeStep_io _ _ _)
      | startIo => simp [reapsAt]
      | _ => exact kept rfl
    · cases ioStep_move moved with
      | expire | answer | failOne => exact kept rfl
      | wakeup | clock => simp [reapsAt]
      | reap here =>
        intro now found
        exact clocked.reaper now (by rw [reapsAt, here]; exact found)
      | @reaped _ next => cases next <;> simp [reapsAt, afterReap]
      | top => cases s.stopIo <;> simp [reapsAt]
      | readClosing => cases s.closing <;> simp [reapsAt]
      | _ => simp [reapsAt]
  · intro x member now cause
    rcases step_settles run with same | ⟨y, grown, settles⟩
    · exact (clocked.expired x (same ▸ member) now cause).trans later
    · rw [grown] at member
      rcases List.mem_append.mp member with old | new
      · exact (clocked.expired x old now cause).trans later
      · rw [List.mem_singleton.mp new] at cause
        cases settles with
        | expired here =>
          cases cause
          exact (clocked.reaper _ (by rw [reapsAt, here]; rfl)).trans later
        | _ => cases cause

theorem step_keepsEnded {a : Action} {x : Ending × StreamError} (looping : Looping s) (ended : s.ended = some x)
    (run : step cfg s a = some s') : s'.ended = some x := by
  have gone : s.io.left = true := by
    by_contra going
    rw [looping.running (Bool.eq_false_iff.mpr going)] at ended
    cases ended
  rcases step_sides run with ⟨_, _, _, _, _, _, _, _, _, rfl⟩ | ⟨input, rfl, run⟩ | ⟨input, rfl, run⟩
  · exact ended
  · obtain ⟨_, _, _, _, _, _, _, _, _, _, _, _, _, _, _, rfl⟩ := controlStep_writes run
    exact ended
  · cases ioStep_move run with
    | readError here | deadline here =>
      rw [here] at gone
      cases gone
    | _ => exact ended

theorem step_keepsClose {a : Action} {m : Nat} (closing : s.calls m = .close) (run : step cfg s a = some s') :
    s'.calls m = .close := by
  rcases step_calls run m with same | ⟨idle, _⟩ | ⟨input, rfl⟩
  · exact same.trans closing
  · rw [idle] at closing
    cases closing
  · obtain ⟨_, _, notClose, _⟩ := callStep_table run
    exact absurd closing notClose

theorem step_closer {a : Action} (closer : s.control.inClose = true → ∃ m, s.calls m = .close)
    (run : step cfg s a = some s') (closing : s'.control.inClose = true) : ∃ m, s'.calls m = .close := by
  have kept : s.control.inClose = true → ∃ m, s'.calls m = .close := by
    intro before
    obtain ⟨m, mine⟩ := closer before
    exact ⟨m, step_keepsClose mine run⟩
  cases a with
  | close n =>
    obtain ⟨_, _, rfl⟩ := step_close run
    exact ⟨n, Function.update_self n _ _⟩
  | connect =>
    obtain ⟨_, ⟨e, rfl⟩ | rfl⟩ := step_connect run <;> cases closing
  | destroy =>
    obtain ⟨_, rfl⟩ := step_destroy run
    cases closing
  | control input =>
    refine kept ?_
    cases controlStep_move run with
    | @handshake replies =>
      rcases handshakeStep_control cfg s replies with opened | ⟨e, failed⟩ <;>
        simp_all [ControlPc.inClose, ControlPc.closeAhead]
    | _ => simp_all [finish, Client.write, ControlPc.inClose, ControlPc.closeAhead]
  | tick | onUnexpectedClose =>
    cases run
    exact kept closing
  | invoke n op =>
    obtain ⟨_, rfl⟩ := step_invoke run
    exact kept closing
  | call n input =>
    obtain ⟨_, _, _, _, rfl⟩ := callStep_writes run
    exact kept closing
  | io input =>
    obtain ⟨_, _, _, _, _, _, _, _, _, rfl⟩ := ioStep_writes run
    exact kept closing
  | heartbeat input =>
    obtain ⟨_, _, _, rfl⟩ := heartbeatStep_writes run
    exact kept closing

/-- What an entry is failed with is what ended the loop, or it is failed by a `close`. -/
structure FailsRightly (s : Client) : Prop where
  closer : s.control.inClose = true → ∃ m, s.calls m = .close
  failing : ∀ e ending, s.io = .fail e ending ∨ s.io = .failing e ending → s.ended = some (ending, e)
  settled : ∀ x ∈ s.dispatcher.settled, ∀ e, x.cause = .failed e →
    (∃ ending, s.ended = some (ending, e)) ∨ e = connectionClosed ∧ 3 ≤ s.state.rank ∧ ∃ m, s.calls m = .close

theorem step_failing {a : Action} (looping : Looping s)
    (failing : ∀ e ending, s.io = .fail e ending ∨ s.io = .failing e ending → s.ended = some (ending, e))
    (run : step cfg s a = some s') (e : StreamError) (ending : Ending)
    (here : s'.io = .fail e ending ∨ s'.io = .failing e ending) : s'.ended = some (ending, e) := by
  have kept : s.io = .fail e ending ∨ s.io = .failing e ending → s'.ended = some (ending, e) :=
    fun before => step_keepsEnded looping (failing e ending before) run
  rcases step_sides run with ⟨_, _, _, _, _, _, _, _, _, rfl⟩ | ⟨input, rfl, moved⟩ | ⟨input, rfl, moved⟩
  · exact kept here
  · cases controlStep_move moved with
    | handshake => exact kept (by rwa [handshakeStep_io] at here)
    | startIo => simp at here
    | _ => exact kept here
  · cases ioStep_move moved with
    | readError | deadline =>
      simp only [IoPc.fail.injEq, reduceCtorEq, or_false] at here
      obtain ⟨rfl, rfl⟩ := here
      rfl
    | fail before =>
      simp only [reduceCtorEq, IoPc.failing.injEq, false_or] at here
      obtain ⟨rfl, rfl⟩ := here
      exact kept (.inl before)
    | expire | answer | failOne => exact kept here
    | @reaped _ next => cases next <;> simp [afterReap] at here
    | top | readClosing =>
      simp only at here
      split at here <;> simp at here
    | _ => simp at here

theorem step_rank {a : Action} {k : Nat} (staged : s.control.Staged s) (passed : k ≤ s.state.rank)
    (run : step cfg s a = some s') : k ≤ s'.state.rank := by
  rcases step_state staged run with same | edge
  · rwa [same]
  · exact passed.trans (ConnectionState.rank_lt_of_next edge).le

theorem step_failsRightly {a : Action} (rightly : FailsRightly s) (looping : Looping s)
    (staged : s.control.Staged s) (run : step cfg s a = some s') : FailsRightly s' where
  closer := step_closer rightly.closer run
  failing := step_failing looping rightly.failing run
  settled := by
    have old : ∀ x ∈ s.dispatcher.settled, ∀ e, x.cause = .failed e →
        (∃ ending, s'.ended = some (ending, e)) ∨
          e = connectionClosed ∧ 3 ≤ s'.state.rank ∧ ∃ m, s'.calls m = .close := by
      intro x member e cause
      rcases rightly.settled x member e cause with ⟨ending, ended⟩ | ⟨same, shut, m, closing⟩
      · exact .inl ⟨ending, step_keepsEnded looping ended run⟩
      · exact .inr ⟨same, step_rank staged shut run, m, step_keepsClose closing run⟩
    intro x member e cause
    rcases step_settles run with same | ⟨y, grown, settles⟩
    · exact old x (same ▸ member) e cause
    · rw [grown] at member
      rcases List.mem_append.mp member with before | new
      · exact old x before e cause
      · rw [List.mem_singleton.mp new] at cause
        cases settles with
        | failed here =>
          cases cause
          exact .inl ⟨_, step_keepsEnded looping (rightly.failing _ _ (.inr here)) run⟩
        | closed here =>
          cases cause
          obtain ⟨m, closing⟩ := rightly.closer (by rw [here]; rfl)
          have shut : 3 ≤ s.state.rank := by
            rw [here] at staged
            rw [staged.1]
            exact le_rfl
          exact .inr ⟨rfl, step_rank staged shut run, m, step_keepsClose closing run⟩
        | expired | answered => cases cause

end Client

theorem reach_failsRightly {cfg : ConnectionConfig} {allowed : Client → Action → Prop} {s : Client}
    (reach : (client cfg).Reach allowed s) : Client.FailsRightly s := by
  refine reach.invariant Client.FailsRightly ?_ ?_
  · rintro _ rfl
    exact ⟨by simp [ControlPc.inClose, ControlPc.closeAhead], by simp, by simp⟩
  · intro s a s' before rightly _ run
    exact Client.step_failsRightly rightly (reach_looping before) (reach_staged before) run

theorem reach_clocked {cfg : ConnectionConfig} {allowed : Client → Action → Prop} {s : Client}
    (reach : (client cfg).Reach allowed s) : s.Clocked := by
  refine reach.invariant Client.Clocked ?_ ?_
  · rintro _ rfl
    exact ⟨by simp [Client.reapsAt], by simp⟩
  · intro s a s' _ clocked _ run
    exact Client.step_clocked clocked run

/-! ## Before the write -/

def CallPc.unsent : CallPc → Bool
  | .idle | .requireOpen _ | .checkArguments _ | .allocate _ | .deadline _ _ | .register _ _ _ | .checkSize _ _
  | .touch _ _ | .write _ _ => true
  | _ => false

/-- The operation of a call that has asked for an id, or waits. -/
def CallPc.asking : CallPc → Option Op
  | .allocate op | .deadline op _ | .register op _ _ | .checkSize op _ | .written op _ | .wait op _ _
  | .answered op _ _ => some op
  | _ => none

namespace Client
variable {cfg : ConnectionConfig} {s s' : Client} {n : Nat} {op : Op}

theorem step_unsentCall {a : Action} (silent : ∀ n, (s.calls n).unsent = true → ¬ s.Wrote n)
    (run : step cfg s a = some s') : ∀ n, (s'.calls n).unsent = true → ¬ s'.Wrote n := by
  intro n unsent wrote
  by_cases own : ∃ input, a = .call n input
  · obtain ⟨input, rfl⟩ := own
    cases callStep_move run with
    | accepted here | admitted here | allocate here | deadline here | register here | fits here | touch here =>
      exact silent n (by rw [here]; rfl) wrote
    | write =>
      simp only [setCall, Client.write, Function.update_self] at unsent
      split at unsent <;> cases unsent
    | _ => simp [setCall, Client.write, CallPc.unsent] at unsent
  · have before := step_wrote_others run (fun input same => own ⟨input, same⟩) wrote
    rcases step_calls run n with same | ⟨idle, _⟩ | ⟨input, mine⟩
    · exact silent n (by rwa [same] at unsent) before
    · exact silent n (by rw [idle]; rfl) before
    · exact own ⟨input, mine⟩

theorem step_asking {a : Action} (twoway : ∀ n, ∀ op ∈ (s.calls n).asking, op.isOneway = false)
    (run : step cfg s a = some s') : ∀ n, ∀ op ∈ (s'.calls n).asking, op.isOneway = false := by
  intro n op asks
  rcases step_calls run n with same | ⟨_, ⟨other, begun, _⟩ | begun⟩ | ⟨input, rfl⟩
  · exact twoway n op (same ▸ asks)
  · simp [begun, CallPc.asking] at asks
  · simp [begun, CallPc.asking] at asks
  · have before := twoway n op
    cases callStep_move run with
    | @accepted op' here =>
      cases oneway : op'.isOneway <;> simp [setCall, oneway, CallPc.asking] at asks
      exact asks ▸ oneway
    | @write op' cid here =>
      cases oneway : op'.isOneway <;> simp [setCall, oneway, CallPc.asking] at asks
      exact asks ▸ oneway
    | allocate here | deadline here | register here | written here | answered here =>
      simp only [setCall, Function.update_self] at asks
      exact before (by rw [here]; exact asks)
    | _ => simp [setCall, Client.write, CallPc.asking] at asks

theorem step_keepsReturned {a : Action} {result : Result Value} (linked : Linked s) (run : step cfg s a = some s')
    (here : s.calls n = .returned op result) : s'.calls n = .returned op result ∧
      s'.dispatcher.ticket n = s.dispatcher.ticket n ∧ (s'.Wrote n → s.Wrote n) := by
  have other : ∀ input, a ≠ .call n input := by
    rintro input rfl
    cases callStep_move run <;> simp_all
  obtain ⟨same, ticket⟩ := step_others linked run (by simp [here]) (by simp [here]) other
  exact ⟨same.trans here, ticket, step_wrote_others run other⟩

theorem step_keepsLimit {a : Action} (staged : s.control.Staged s) (opened : 2 ≤ s.state.rank)
    (run : step cfg s a = some s') : 2 ≤ s'.state.rank ∧ s'.negotiatedFrameMax = s.negotiatedFrameMax := by
  constructor
  · exact step_rank staged opened run
  · rcases step_agreed run with ⟨same, _⟩ | here
    · exact same
    · rw [here] at staged
      rw [staged.1] at opened
      simp [ConnectionState.rank] at opened

theorem step_answeredBy {a : Action} {index : Nat} (run : step cfg s a = some s')
    (answered : s.dispatcher.answeredBy n = some index) : s'.dispatcher.answeredBy n = some index := by
  obtain ⟨more, grown⟩ := step_settled run
  obtain ⟨x, first, cause⟩ := Option.bind_eq_some_iff.mp answered
  rw [Dispatcher.answeredBy, grown, List.find?_append, first]
  exact cause

end Client

theorem reach_unsentCall {cfg : ConnectionConfig} {allowed : Client → Action → Prop} {s : Client}
    (reach : (client cfg).Reach allowed s) : ∀ n, (s.calls n).unsent = true → ¬ s.Wrote n := by
  refine reach.invariant (fun s => ∀ n, (s.calls n).unsent = true → ¬ s.Wrote n) ?_ ?_
  · rintro _ rfl n _ ⟨w, member, _⟩
    cases member
  · intro s a s' _ silent _ run
    exact Client.step_unsentCall silent run

theorem reach_asking {cfg : ConnectionConfig} {allowed : Client → Action → Prop} {s : Client}
    (reach : (client cfg).Reach allowed s) : ∀ n, ∀ op ∈ (s.calls n).asking, op.isOneway = false := by
  refine reach.invariant (fun s => ∀ n, ∀ op ∈ (s.calls n).asking, op.isOneway = false) ?_ ?_
  · rintro _ rfl n op asks
    cases asks
  · intro s a s' _ twoway _ run
    exact Client.step_asking twoway run

theorem Reception.step_arrived {cfg : ConnectionConfig} {s s' : Reception} {o : Occurrence} {index : Nat}
    {frame : IncomingFrame} (run : s.step cfg o = some s') (arrived : s.arrived[index]? = some frame) :
    s'.arrived[index]? = some frame := by
  cases step_move run with
  | frame => exact (List.getElem?_append_left (List.getElem?_eq_some_iff.mp arrived).1).trans arrived
  | client | more | timeout | failed => exact arrived

/-! ## The reasons -/

namespace Transport
variable {cfg : ConnectionConfig} {s s' : Transport} {n : Nat} {op : Op}

def SentWhole (s : Transport) (frame : Bytes) : Prop :=
  ∃ k part, s.writer.calls k = .returned part (.ok ()) ∧ part.whole = frame

/-- Why the step from one state to the next returns this error to a call. Every fact is one of
the state before the step, the outcome of the call's own `write_all` apart. -/
inductive FailsFor (cfg : ConnectionConfig) (s s' : Transport) (n : Nat) (op : Op) : StreamError → Prop where
  | notOpen (here : s.client.calls n = .requireOpen op) (state : s.client.state ≠ .open) :
    FailsFor cfg s s' n op Client.notOpen
  | argument {e : StreamError} (here : s.client.calls n = .checkArguments op) (check : op.checkArguments = .error e) :
    FailsFor cfg s s' n op e
  | tooLarge {e : StreamError} (here : s.client.calls n = .checkSize op (s.client.requestId n))
      (check : checkOutboundFrameSize ((op.frame (s.client.requestId n)).length - 4) s.client.negotiatedFrameMax =
        .error e) : FailsFor cfg s s' n op e
  | write {e : StreamError} {k : Nat} {part : Fragment UInt8} {cid : UInt32}
      (here : s.client.calls n = .write op cid) (inside : s.inside (.call n) = some k)
      (returned : s'.writer.calls k = .returned part (.error e))
      (whole : part.whole = op.frame (s.client.requestId n)) : FailsFor cfg s s' n op e
  | reaped {cid : UInt32} {since now : Int} {x : Settlement} (here : s.client.calls n = .wait op cid since)
      (settled : x ∈ s.client.dispatcher.settled) (owner : x.entry.owner = n) (cause : x.cause = .expired now)
      (due : x.entry.deadline ≤ now) (past : now ≤ s.client.now) : FailsFor cfg s s' n op requestTimedOut
  | waited {cid : UInt32} {since : Int} (here : s.client.calls n = .wait op cid since)
      (unset : s.client.dispatcher.value n = none) (late : s.client.waitedOut cfg since) :
    FailsFor cfg s s' n op requestTimedOut
  | ended {cid : UInt32} {since : Int} {x : Settlement} {e : StreamError} {ending : Ending}
      (here : s.client.calls n = .wait op cid since) (settled : x ∈ s.client.dispatcher.settled)
      (owner : x.entry.owner = n) (cause : x.cause = .failed e) (ended : s.client.ended = some (ending, e)) :
    FailsFor cfg s s' n op e
  /-- By a `close` that has come as far as failing the map. -/
  | closed {cid : UInt32} {since : Int} {x : Settlement} {m : Nat} (here : s.client.calls n = .wait op cid since)
      (settled : x ∈ s.client.dispatcher.settled) (owner : x.entry.owner = n)
      (cause : x.cause = .failed Client.connectionClosed) (closing : s.client.calls m = .close)
      (shut : 3 ≤ s.client.state.rank) : FailsFor cfg s s' n op Client.connectionClosed
  | response {e : StreamError} {cid : UInt32} {index : Nat} {frame : IncomingFrame}
      (here : s.client.calls n = .answered op cid frame) (answered : s.client.dispatcher.answeredBy n = some index)
      (arrived : s.reception.arrived[index]? = some frame) (response : Key.isResponse frame.key = true)
      (mine : frame.correlationId = some (s.client.requestId n)) (finish : op.finish frame = .error e) :
    FailsFor cfg s s' n op e

/-- What has become of the request of a call that returned an error. With the first three nothing
of it has gone out, with the last four all of it has. A one-way call does not wait. -/
inductive Reason (s : Transport) (n : Nat) (op : Op) : StreamError → Prop where
  | notOpen (fresh : s.client.dispatcher.ticket n = .fresh) (unsent : ¬ s.client.Wrote n) :
    Reason s n op Client.notOpen
  | argument {e : StreamError} (check : op.checkArguments = .error e)
      (fresh : s.client.dispatcher.ticket n = .fresh) (unsent : ¬ s.client.Wrote n) : Reason s n op e
  | tooLarge {e : StreamError} (twoway : op.isOneway = false) (opened : 2 ≤ s.client.state.rank)
      (check : checkOutboundFrameSize ((op.frame (s.client.requestId n)).length - 4) s.client.negotiatedFrameMax =
        .error e) (unsent : ¬ s.client.Wrote n) : Reason s n op e
  | write {e : StreamError} {k : Nat} {part : Fragment UInt8} (returned : s.writer.calls k = .returned part (.error e))
      (whole : part.whole = op.frame (s.client.requestId n)) : Reason s n op e
  | timedOut (twoway : op.isOneway = false) (sent : s.SentWhole (op.frame (s.client.requestId n))) :
    Reason s n op requestTimedOut
  | ended {e : StreamError} {ending : Ending} (twoway : op.isOneway = false)
      (sent : s.SentWhole (op.frame (s.client.requestId n))) (ended : s.client.ended = some (ending, e)) :
    Reason s n op e
  | closed {m : Nat} (twoway : op.isOneway = false) (sent : s.SentWhole (op.frame (s.client.requestId n)))
      (closing : s.client.calls m = .close) : Reason s n op Client.connectionClosed
  | response {e : StreamError} {index : Nat} {frame : IncomingFrame} (twoway : op.isOneway = false)
      (sent : s.SentWhole (op.frame (s.client.requestId n)))
      (answered : s.client.dispatcher.answeredBy n = some index)
      (arrived : s.reception.arrived[index]? = some frame) (finish : op.finish frame = .error e) : Reason s n op e

theorem step_arrived {a : Traffic} {index : Nat} {frame : IncomingFrame} (run : step cfg s a = some s')
    (arrived : s.reception.arrived[index]? = some frame) : s'.reception.arrived[index]? = some frame := by
  cases step_move run with
  | other _ moved => exact Reception.step_arrived moved arrived
  | write | onward => exact arrived
  | returned _ _ _ back => exact Reception.step_arrived back arrived

theorem step_sentWhole {a : Traffic} {frame : Bytes} (wired : s.Wired) (run : step cfg s a = some s')
    (sent : s.SentWhole frame) : s'.SentWhole frame := by
  obtain ⟨k, part, returned, whole⟩ := sent
  exact ⟨k, part, (step_returned wired run returned).trans returned, whole⟩

theorem ClientMove.moves (move : ClientMove cfg s s') :
    s'.client = s.client ∨ ∃ a, s.client.step cfg a = some s'.client := by
  cases move with
  | still same => exact .inl same
  | own moved | returned moved => exact .inr ⟨_, moved⟩

theorem Reason.step {a : Traffic} {e : StreamError} (reason : Reason s n op e) (wired : s.Wired)
    (locked : s.writer.Locked) (linked : Linked s.client) (looping : Looping s.client)
    (staged : s.client.control.Staged s.client) (here : s.client.calls n = .returned op (.error e))
    (run : Transport.step cfg s a = some s') : Reason s' n op e ∧ s'.client.calls n = .returned op (.error e) := by
  have sent : ∀ frame, s.SentWhole frame → s'.SentWhole frame := fun frame => step_sentWhole wired run
  have back : ∀ k part result, s.writer.calls k = .returned part result → s'.writer.calls k = .returned part result :=
    fun k part result returned => (step_returned wired run returned).trans returned
  have arrived : ∀ (index : Nat) frame, s.reception.arrived[index]? = some frame →
      s'.reception.arrived[index]? = some frame := fun index frame => step_arrived run
  rcases (step_clientMove wired locked run).moves with same | ⟨b, moved⟩
  · rw [same]
    refine ⟨?_, here⟩
    cases reason with
    | notOpen fresh unsent => exact .notOpen (same ▸ fresh) (same ▸ unsent)
    | argument check fresh unsent => exact .argument check (same ▸ fresh) (same ▸ unsent)
    | tooLarge twoway opened check unsent => exact .tooLarge twoway (same ▸ opened) (same ▸ check) (same ▸ unsent)
    | write returned whole => exact .write (back _ _ _ returned) (same ▸ whole)
    | timedOut twoway whole => exact .timedOut twoway (same ▸ sent _ whole)
    | ended twoway whole ended => exact .ended twoway (same ▸ sent _ whole) (same ▸ ended)
    | closed twoway whole closing => exact .closed twoway (same ▸ sent _ whole) (same ▸ closing)
    | response twoway whole answered found finish =>
      exact .response twoway (same ▸ sent _ whole) (same ▸ answered) (arrived _ _ found) finish
  · obtain ⟨still, ticket, wrote⟩ := Client.step_keepsReturned linked moved here
    have cid : s'.client.requestId n = s.client.requestId n := by rw [Client.requestId, ticket, Client.requestId]
    refine ⟨?_, still⟩
    cases reason with
    | notOpen fresh unsent => exact .notOpen (ticket.trans fresh) fun now => unsent (wrote now)
    | argument check fresh unsent => exact .argument check (ticket.trans fresh) fun now => unsent (wrote now)
    | tooLarge twoway opened check unsent =>
      obtain ⟨later, limit⟩ := Client.step_keepsLimit staged opened moved
      exact .tooLarge twoway later (by rwa [cid, limit]) fun now => unsent (wrote now)
    | write returned whole => exact .write (back _ _ _ returned) (by rwa [cid])
    | timedOut twoway whole => exact .timedOut twoway (cid ▸ sent _ whole)
    | ended twoway whole ended => exact .ended twoway (cid ▸ sent _ whole) (Client.step_keepsEnded looping ended moved)
    | closed twoway whole closing => exact .closed twoway (cid ▸ sent _ whole) (Client.step_keepsClose closing moved)
    | response twoway whole answered found finish =>
      exact .response twoway (cid ▸ sent _ whole) (Client.step_answeredBy moved answered) (arrived _ _ found) finish

/-- A step of a call that hands nothing over and fails it leaves its ticket and the wire. -/
theorem silent_step {e : StreamError} {client client' : Client} (run : client.step cfg (.call n .none) = some client')
    (failed : client'.calls n = .returned op (.error e)) :
    client'.dispatcher.ticket n = client.dispatcher.ticket n ∧ (client'.Wrote n → client.Wrote n) := by
  constructor
  · obtain ⟨pc, moved, _, ⟨same, _⟩ | ⟨_, _, rfl, _⟩ | ⟨_, _, _, _, rfl, _⟩⟩ := Client.callStep_table run
    · rw [same]
    · simp [moved] at failed
    · simp [moved] at failed
  · obtain ⟨more, handover, grown⟩ := Client.step_handover run
    cases handover with
    | nothing =>
      rintro ⟨w, member, source⟩
      rw [grown, List.append_nil] at member
      exact ⟨w, member, source⟩

structure Known (s : Transport) : Prop where
  linked : Linked s.client
  clocked : s.client.Clocked
  looping : Looping s.client
  rightly : s.client.FailsRightly
  staged : s.client.control.Staged s.client
  untouched : s.client.Untouched
  unsent : ∀ n, (s.client.calls n).unsent = true → ¬ s.client.Wrote n
  twoway : ∀ n, ∀ op ∈ (s.client.calls n).asking, op.isOneway = false
  indexed : s.reception.Indexed
  received : Received s.client
  sent : ∃ via, s.SentThrough via

theorem Known.sentWhole (known : s.Known) (sent : (s.client.calls n).sent = some op) :
    s.SentWhole (op.frame (s.client.requestId n)) := by
  obtain ⟨via, through⟩ := known.sent
  obtain ⟨part, returned, whole⟩ := through.whole n (op.frame (s.client.requestId n)) (by
    rw [Client.requestFrame, sent]
    rfl)
  exact ⟨_, part, returned, whole⟩

theorem Known.value (known : s.Known) {e : StreamError} (set : s.client.dispatcher.value n = some (.error e)) :
    ∃ x ∈ s.client.dispatcher.settled, x.entry.owner = n ∧
      ((∃ now, x.cause = .expired now ∧ e = requestTimedOut ∧ x.entry.deadline ≤ now ∧ now ≤ s.client.now) ∨
        x.cause = .failed e ∧ ((∃ ending, s.client.ended = some (ending, e)) ∨
          e = Client.connectionClosed ∧ 3 ≤ s.client.state.rank ∧ ∃ m, s.client.calls m = .close)) := by
  obtain ⟨x, member, owner, result⟩ := Dispatcher.value_settled set
  refine ⟨x, member, owner, ?_⟩
  have valid := known.linked.table.valid x member
  cases cause : x.cause with
  | response index frame =>
    rw [cause] at result
    cases result
  | expired now =>
    rw [cause] at result valid
    cases result
    exact .inl ⟨now, rfl, rfl, valid, known.clocked.expired x member now cause⟩
  | failed error =>
    rw [cause] at result
    cases result
    exact .inr ⟨rfl, known.rightly.settled x member e cause⟩

theorem Known.failure {e : StreamError} (known : s.Known) (run : s.client.step cfg (.call n .none) =
      some s'.client) (failed : s'.client.calls n = .returned op (.error e))
    (failure : Client.Failure cfg s.client n op (.call n .none) e)
    (sent : ∀ frame, s.SentWhole frame → s'.SentWhole frame)
    (arrived : ∀ (index : Nat) frame, s.reception.arrived[index]? = some frame →
      s'.reception.arrived[index]? = some frame) : Reason s' n op e := by
  obtain ⟨ticket, wrote⟩ := silent_step run failed
  have cid : s'.client.requestId n = s.client.requestId n := by rw [Client.requestId, ticket, Client.requestId]
  have mine := known.linked.calls n
  have silent : (s.client.calls n).unsent = true → ¬ s'.client.Wrote n :=
    fun unsent now => known.unsent n unsent (wrote now)
  cases failure with
  | notOpen here =>
    rw [here] at mine
    exact .notOpen (ticket.trans mine) (silent (by rw [here]; rfl))
  | argument here check =>
    rw [here] at mine
    exact .argument check (ticket.trans mine) (silent (by rw [here]; rfl))
  | tooLarge here check =>
    rw [here] at mine
    obtain ⟨k, registered, rfl⟩ := mine
    have opened : 2 ≤ s.client.state.rank := by
      by_contra early
      have outside := (known.untouched (Nat.not_le.mp early)).2 n
      rw [here] at outside
      exact outside
    obtain ⟨later, limit⟩ := Client.step_keepsLimit known.staged opened run
    refine .tooLarge (known.twoway n op (by rw [here]; rfl)) later ?_ (silent (by rw [here]; rfl))
    rwa [limit, op.frame_length, ← op.frame_length]
  | value here set =>
    have twoway := known.twoway n op (by rw [here]; rfl)
    have whole : s'.SentWhole (op.frame (s.client.requestId n)) := sent _ (known.sentWhole (by rw [here]; rfl))
    rw [← cid] at whole
    obtain ⟨_, _, _, ⟨_, _, rfl, _⟩ | ⟨_, ⟨ending, ended⟩ | ⟨rfl, _, m, closing⟩⟩⟩ := known.value set
    · exact .timedOut twoway whole
    · exact .ended twoway whole (Client.step_keepsEnded known.looping ended run)
    · exact .closed twoway whole (Client.step_keepsClose closing run)
  | timedOut here =>
    have whole : s'.SentWhole (op.frame (s.client.requestId n)) := sent _ (known.sentWhole (by rw [here]; rfl))
    exact .timedOut (known.twoway n op (by rw [here]; rfl)) (cid ▸ whole)
  | response here finish =>
    have whole : s'.SentWhole (op.frame (s.client.requestId n)) := sent _ (known.sentWhole (by rw [here]; rfl))
    obtain ⟨index, answered, found, _⟩ :=
      answeredBy_of_value known.indexed known.linked (known.received.answered n op _ _ here)
    exact .response (known.twoway n op (by rw [here]; rfl)) (cid ▸ whole) (Client.step_answeredBy run answered)
      (arrived _ _ found) finish

theorem Known.failsFor {e : StreamError} (known : s.Known)
    (failure : Client.Failure cfg s.client n op (.call n .none) e) :
    s.FailsFor cfg s' n op e := by
  cases failure with
  | notOpen here state => exact .notOpen here state
  | argument here check => exact .argument here check
  | tooLarge here check =>
    have mine := known.linked.calls n
    rw [here] at mine
    obtain ⟨k, registered, rfl⟩ := mine
    have id : s.client.requestId n = appCid k := by rw [Client.requestId, registered]; rfl
    exact .tooLarge (id ▸ here) (id ▸ check)
  | value here set =>
    obtain ⟨x, member, owner, ⟨now, cause, rfl, due, past⟩ | ⟨cause, ⟨ending, ended⟩ | ⟨rfl, shut, m, closing⟩⟩⟩ :=
      known.value set
    · exact .reaped here member owner cause due past
    · exact .ended here member owner cause ended
    · exact .closed here member owner cause closing shut
  | timedOut here unset late => exact .waited here unset late
  | response here finish =>
    obtain ⟨index, answered, found, response, mine⟩ :=
      answeredBy_of_value known.indexed known.linked (known.received.answered n op _ _ here)
    exact .response here answered found response mine finish

theorem step_failsFor {a : Traffic} {e : StreamError} (known : s.Known) (wired : s.Wired) (locked : s.writer.Locked)
    (run : step cfg s a = some s') (failed : s'.client.calls n = .returned op (.error e)) :
    s.client.calls n = .returned op (.error e) ∨ s.FailsFor cfg s' n op e := by
  cases step_clientMove wired locked run with
  | still same => exact .inl (same ▸ failed)
  | @own b moved silent =>
    rcases Client.step_failure moved failed with here | failure
    · exact .inl here
    · have action : b = .call n .none := by cases failure <;> first | rfl | cases silent
      subst action
      exact .inr (known.failsFor failure)
  | @returned t k frame part result moved inside writes fresh done whole =>
    rcases Client.step_failure moved failed with here | failure
    · exact .inl here
    · obtain ⟨rfl, rfl⟩ : t = .call n ∧ result = .error e := by
        cases t with
        | call m =>
          cases failure
          exact ⟨rfl, rfl⟩
        | close | heartbeat => cases failure
      cases failure with
      | write here =>
        refine .inr (.write here inside done (whole.trans ?_))
        rw [Client.write_frame known.linked here]
        exact Client.writes_call writes (.call here)

theorem step_reason {a : Traffic} (known : s.Known) (wired : s.Wired) (locked : s.writer.Locked)
    (reasons : ∀ n op e, s.client.calls n = .returned op (.error e) → Reason s n op e) (run : step cfg s a = some s') :
    ∀ n op e, s'.client.calls n = .returned op (.error e) → Reason s' n op e := by
  intro n op e failed
  have before : s.client.calls n = .returned op (.error e) → Reason s' n op e := fun here =>
    ((reasons n op e here).step wired locked known.linked known.looping known.staged here run).1
  have sent : ∀ frame, s.SentWhole frame → s'.SentWhole frame := fun frame => step_sentWhole wired run
  have arrived : ∀ (index : Nat) frame, s.reception.arrived[index]? = some frame →
      s'.reception.arrived[index]? = some frame := fun index frame => step_arrived run
  cases step_clientMove wired locked run with
  | still same => exact before (same ▸ failed)
  | @own b moved silent =>
    rcases Client.step_failure moved failed with here | failure
    · exact before here
    · have action : b = .call n .none := by cases failure <;> first | rfl | cases silent
      subst action
      exact known.failure moved failed failure sent arrived
  | @returned t k frame part result moved _ writes fresh done whole =>
    rcases Client.step_failure moved failed with here | failure
    · exact before here
    · -- Only the error of its own `write_all` fails it here.
      obtain ⟨rfl, rfl⟩ : t = .call n ∧ result = .error e := by
        cases t with
        | call m =>
          cases failure
          exact ⟨rfl, rfl⟩
        | close | heartbeat => cases failure
      refine .write done ?_
      cases failure with
      | write here =>
        have ticket : s'.client.requestId n = s.client.requestId n := by
          obtain ⟨pc, moved, _, ⟨same, _⟩ | ⟨_, other, _⟩ | ⟨_, _, _, other, _⟩⟩ := Client.callStep_table moved
          · rw [Client.requestId, same, Client.requestId]
          · simp [here] at other
          · simp [here] at other
        rw [whole, ticket, Client.write_frame known.linked here]
        exact Client.writes_call writes (.call here)

end Transport

theorem reach_known {cfg : ConnectionConfig} {allowed : Transport → Traffic → Prop} {s : Transport}
    (reach : (transport cfg).Reach allowed s) : s.Known where
  linked := reach_linked (reach_client (reach_reception reach))
  clocked := reach_clocked (reach_client (reach_reception reach))
  looping := reach_looping (reach_client (reach_reception reach))
  rightly := reach_failsRightly (reach_client (reach_reception reach))
  staged := reach_staged (reach_client (reach_reception reach))
  untouched := (reach_kept (reach_client (reach_reception reach))).untouched
  unsent := reach_unsentCall (reach_client (reach_reception reach))
  twoway := reach_asking (reach_client (reach_reception reach))
  indexed := reach_indexed (reach_reception reach)
  received := reach_received (reach_client (reach_reception reach))
  sent := reach_sentThrough reach

theorem reach_reason {cfg : ConnectionConfig} {s : Transport} (reach : (transport cfg).Reach Machine.anyStep s) :
    ∀ n op e, s.client.calls n = .returned op (.error e) → s.Reason n op e := by
  refine reach.invariant (fun s => ∀ n op e, s.client.calls n = .returned op (.error e) → s.Reason n op e) ?_ ?_
  · rintro _ rfl n op e failed
    cases failed
  · intro s a s' before reasons _ run
    exact Transport.step_reason (reach_known before) (reach_wired before) (reach_writer_locked before) reasons run

theorem path_failsFor {cfg : ConnectionConfig} {run : List Transport}
    (path : (transport cfg).Path Machine.anyStep run) : ∀ s ∈ run.head?, ∀ n op e,
      s.client.calls n = .returned op (.error e) → (transport cfg).Took (fun before _ after =>
        before.FailsFor cfg after n op e ∧ after.client.calls n = .returned op (.error e)) run := by
  induction path with
  | init first =>
    cases first
    rintro _ ⟨rfl⟩ n op e failed
    cases failed
  | @step s s' past a before _ moved ih =>
    rintro _ ⟨rfl⟩ n op e failed
    have reach := before.reach List.mem_cons_self
    rcases Transport.step_failsFor (reach_known reach) (reach_wired reach) (reach_writer_locked reach) moved failed with
      earlier | fails
    · exact (ih s rfl n op e earlier).later s'
    · exact .now moved ⟨fails, failed⟩ past

/-- In every run a call that has returned an error did so in a step that had this reason for it,
and its request has fared accordingly. -/
theorem failed_call_explained {cfg : ConnectionConfig} {s : Transport} {past : List Transport}
    (path : (transport cfg).Path Machine.anyStep (s :: past)) :
    ∀ n op e, s.client.calls n = .returned op (.error e) →
      (transport cfg).Took (fun before _ after =>
        before.FailsFor cfg after n op e ∧ after.client.calls n = .returned op (.error e)) (s :: past) ∧
        s.Reason n op e := by
  intro n op e failed
  exact ⟨path_failsFor path s rfl n op e failed, reach_reason (path.reach List.mem_cons_self) n op e failed⟩

def deleteRefused : List Occurrence :=
  [.client (.call 1 .none), .recv (.data 0 [0, 0, 10]), .recv (.data 0x80 [0x0e, 0, 1, 0, 0, 0, 100, 0, 2])] ++
    List.replicate 5 (.client (.io .none)) ++
    [.client (.io (.pick 0)), .client (.call 1 .none), .client (.call 1 .none)]

/-- One call is made before `connect`, the `write_all` of the next is cut short, and the third is
answered with an error. -/
theorem failed_call_explained_three : ∃ s past, (transport {}).Path Machine.anyStep (s :: past) ∧
    s.Reason 0 (.deleteStream (text "s") false) Client.notOpen ∧
    s.Reason 2 (.deleteStream (text "t") false) closedDuringSend ∧
    s.Reason 1 (.deleteStream (text "s") false) (streamMissing (text "s")) := by
  have ran : ((transport {}).exec Machine.anyStep {} (
      [.invoke 0 (.deleteStream (text "s") false), .call 0 .none].map (fun a => .other (.client a)) ++
      (listening ⟨1048576, 0⟩).map .other ++ sending 1 (.deleteStream (text "s") false) 7 15 ++
      deleteRefused.map .other ++ callUpToWrite 2 (.deleteStream (text "t") false) ++
      [.progress (.call 2) .lock, .progress (.call 2) (.send (.accepted 5)), .progress (.call 2) (.send .closed)])).any
        (fun s => s.client.calls 0 = .returned (.deleteStream (text "s") false) (.error Client.notOpen) ∧
          s.client.calls 2 = .returned (.deleteStream (text "t") false) (.error closedDuringSend) ∧
          s.client.calls 1 = .returned (.deleteStream (text "s") false) (.error (streamMissing (text "s")))) =
            true := by decide +kernel
  obtain ⟨s, final, holds⟩ := (Option.any_eq_true _ _).mp ran
  obtain ⟨past, path, _⟩ := Machine.Path.exec (.init rfl) final
  obtain ⟨first, second, third⟩ := of_decide_eq_true holds
  have explained := failed_call_explained path
  exact ⟨s, past, path, (explained _ _ _ first).2, (explained _ _ _ second).2, (explained _ _ _ third).2⟩

end RmqStream
