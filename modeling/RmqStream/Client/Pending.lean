import RmqStream.Client.Correlation
import RmqStream.Client.Lifecycle
import RmqStream.Writer

/-! Whose entries the pending map holds.

A call never takes its own entry out of the map: the reader does when a response arrives,
the reaper when the deadline has passed, and `fail_all_pending` when the connection ends.
A call that gives up before one of them comes by therefore leaves its entry behind. -/

set_option autoImplicit false

namespace RmqStream
open Library

/-- A call of `close` that registered under this number has not failed the map yet. -/
def ControlPc.Awaits (n : Nat) : ControlPc → Prop
  | .closeWrite m _ | .closeWritten m | .closeWait m _ => m = n
  | .closeStop | .closeSocket | .closeJoinIo | .closeJoinHeartbeat | .closeFail => True
  | _ => False

def CallPc.Waits : CallPc → Prop
  | .allocate op | .deadline op _ | .register op _ _ => op.isOneway = false
  | _ => True

namespace Client

def Sent (s : Client) (n : Nat) (frame : Bytes) : Prop := ∃ w ∈ s.wire, w.source = .call n ∧ w.frame = frame

/-- The call that registered the entry has not returned. -/
def InProgress (s : Client) (e : PendingEntry) : Prop :=
  match s.calls e.owner with
  | .checkSize _ cid | .touch _ cid | .write _ cid | .written _ cid | .wait _ cid _ => cid = e.correlationId
  | .close => s.control.Awaits e.owner
  | _ => False

/-- A call gives up on an entry: its frame is too large, its `write_all` fails, or its wait runs
out with no value there. -/
inductive GivesUp (cfg : ConnectionConfig) (e : PendingEntry) (op : Op) (error : StreamError) (s : Client) :
    Action → Prop where
  | tooLarge (here : s.calls e.owner = .checkSize op e.correlationId)
      (check : checkOutboundFrameSize ((op.frame e.correlationId).length - 4) s.negotiatedFrameMax = .error error) :
    GivesUp cfg e op error s (.call e.owner .none)
  | write (here : s.calls e.owner = .write op e.correlationId) :
    GivesUp cfg e op error s (.call e.owner (.sent (.error error)))
  | timedOut {since : Int} (here : s.calls e.owner = .wait op e.correlationId since)
      (sent : s.Sent e.owner (op.frame e.correlationId)) (value : s.dispatcher.value e.owner = none)
      (late : s.waitedOut cfg since) (timeout : error = requestTimedOut) :
    GivesUp cfg e op error s (.call e.owner .none)

def Abandoned (cfg : ConnectionConfig) (run : List Client) (s : Client) (e : PendingEntry) : Prop :=
  ∃ op error, s.calls e.owner = .returned op (.error error) ∧ op.isOneway = false ∧
    (client cfg).Took (fun before a _ => GivesUp cfg e op error before a) run

/-! ## What a step does to the map -/

/-- A step inside one of the critical sections that change the map. -/
def ChangesMap (s : Client) : Action → Prop
  | .call n .none => ∃ op cid deadline, s.calls n = .register op cid deadline
  | .control .none => (∃ n cid deadline, s.control = .closeRegister n cid deadline) ∨ s.control = .closeFail
  | .io .none => (∃ now next, s.io = .reap now next) ∨ (∃ index frame, s.io = .dispatch index frame) ∨
      ∃ e ending, s.io = .fail e ending
  | _ => False

inductive MapChange (s : Client) : Action → List PendingEntry → Prop where
  | elsewhere {a : Action} (quiet : ¬ s.ChangesMap a) : MapChange s a s.dispatcher.pending
  | call {n : Nat} {op : Op} {cid : UInt32} {deadline : Int} (here : s.calls n = .register op cid deadline)
      (free : s.dispatcher.contains cid = false) :
    MapChange s (.call n .none) (⟨n, cid, deadline⟩ :: s.dispatcher.pending)
  /-- The id is in the map already. -/
  | callTaken {n : Nat} {op : Op} {cid : UInt32} {deadline : Int} (here : s.calls n = .register op cid deadline)
      (taken : s.dispatcher.contains cid = true) : MapChange s (.call n .none) s.dispatcher.pending
  | close {n : Nat} {cid : UInt32} {deadline : Int} (here : s.control = .closeRegister n cid deadline)
      (free : s.dispatcher.contains cid = false) :
    MapChange s (.control .none) (⟨n, cid, deadline⟩ :: s.dispatcher.pending)
  | closeTaken {n : Nat} {cid : UInt32} {deadline : Int} (here : s.control = .closeRegister n cid deadline)
      (taken : s.dispatcher.contains cid = true) : MapChange s (.control .none) s.dispatcher.pending
  | reap {now : Int} {next : AfterReap} (here : s.io = .reap now next) :
    MapChange s (.io .none) (s.dispatcher.pending.filter fun e => now < e.deadline)
  | dispatch {index : Nat} {frame : IncomingFrame} {cid : UInt32} (here : s.io = .dispatch index frame)
      (response : Key.isResponse frame.key = true) (found : frame.correlationId = some cid) :
    MapChange s (.io .none) (s.dispatcher.pending.filter fun e => e.correlationId ≠ cid)
  | unmatched {index : Nat} {frame : IncomingFrame} (here : s.io = .dispatch index frame)
      (other : Key.isResponse frame.key = false ∨ frame.correlationId = none) :
    MapChange s (.io .none) s.dispatcher.pending
  | failRead {e : StreamError} {ending : Ending} (here : s.io = .fail e ending) : MapChange s (.io .none) []
  | failClose (here : s.control = .closeFail) : MapChange s (.control .none) []

variable {cfg : ConnectionConfig} {s s' : Client} {input : Input}

theorem ioStep_mapChange (run : ioStep s input = some s') : MapChange s (.io input) s'.dispatcher.pending := by
  cases ioStep_move run with
  | reap here =>
    simp only [Dispatcher.pending_reapTake]
    exact .reap here
  | dispatch here =>
    simp only [Dispatcher.dispatchTake]
    split
    next response =>
      split
      next found => exact .unmatched here (.inr found)
      next cid found =>
        rw [Dispatcher.pending_take_cid]
        exact .dispatch here response found
    next other => exact .unmatched here (.inl (Bool.eq_false_iff.mpr other))
  | fail here =>
    simp only [Dispatcher.pending_failAllTake]
    exact .failRead here
  | expire _ settle | answer _ settle | failOne _ settle =>
    obtain ⟨e, _, _, rfl⟩ := Dispatcher.settle_eq settle
    exact .elsewhere id
  | _ => exact .elsewhere (by simp_all [ChangesMap])

theorem callStep_mapChange {n : Nat} (run : callStep cfg s n input = some s') :
    MapChange s (.call n input) s'.dispatcher.pending := by
  cases callStep_move run with
  | @register op cid deadline here =>
    rcases Dispatcher.pending_register s.dispatcher ⟨n, cid, deadline⟩ with ⟨taken, same⟩ | ⟨free, grown⟩
    · simp only [same]
      exact .callTaken here taken
    · simp only [grown]
      exact .call here free
  | _ => exact .elsewhere (by simp_all [ChangesMap])

theorem controlStep_mapChange (run : controlStep cfg s input = some s') :
    MapChange s (.control input) s'.dispatcher.pending := by
  cases controlStep_move run with
  | handshake =>
    rw [handshakeStep_dispatcher]
    exact .elsewhere id
  | @closeRegister n cid deadline here =>
    rcases Dispatcher.pending_register s.dispatcher ⟨n, cid, deadline⟩ with ⟨taken, same⟩ | ⟨free, grown⟩
    · simp only [same]
      exact .closeTaken here taken
    · simp only [grown]
      exact .close here free
  | closeFail here =>
    simp only [Dispatcher.pending_failAllTake]
    exact .failClose here
  | closeFailOne _ settle =>
    obtain ⟨e, _, _, rfl⟩ := Dispatcher.settle_eq settle
    exact .elsewhere id
  | _ => exact .elsewhere (by simp_all [ChangesMap])

theorem step_mapChange {a : Action} (run : step cfg s a = some s') : MapChange s a s'.dispatcher.pending := by
  cases a with
  | tick | onUnexpectedClose =>
    cases run
    exact .elsewhere id
  | invoke n op =>
    obtain ⟨_, rfl⟩ := step_invoke run
    exact .elsewhere id
  | connect => obtain ⟨_, ⟨e, rfl⟩ | rfl⟩ := step_connect run <;> exact .elsewhere id
  | close n =>
    obtain ⟨_, _, rfl⟩ := step_close run
    exact .elsewhere id
  | destroy =>
    obtain ⟨_, rfl⟩ := step_destroy run
    exact .elsewhere id
  | call n input => exact callStep_mapChange run
  | control input => exact controlStep_mapChange run
  | io input => exact ioStep_mapChange run
  | heartbeat input =>
    obtain ⟨_, _, _, rfl⟩ := heartbeatStep_writes run
    exact .elsewhere id

theorem mapChange_mem {a : Action} {pending : List PendingEntry} (change : MapChange s a pending) {e : PendingEntry}
    (member : e ∈ pending) : e ∈ s.dispatcher.pending ∨
      (a = .call e.owner .none ∧ ∃ op, s.calls e.owner = .register op e.correlationId e.deadline) ∨
      (a = .control .none ∧ s.control = .closeRegister e.owner e.correlationId e.deadline) := by
  cases change with
  | elsewhere | callTaken | closeTaken | unmatched => exact .inl member
  | call here =>
    rcases List.mem_cons.mp member with rfl | old
    · exact .inr (.inl ⟨rfl, _, here⟩)
    · exact .inl old
  | close here =>
    rcases List.mem_cons.mp member with rfl | old
    · exact .inr (.inr ⟨rfl, here⟩)
    · exact .inl old
  | reap | dispatch => exact .inl (List.mem_filter.mp member).1
  | failRead | failClose => simp at member

def Untouched (s : Client) : Prop :=
  s.state.rank < 2 → s.dispatcher.pending = [] ∧ ∀ n, (s.calls n).Outside

theorem step_untouched {a : Action} (untouched : s.Untouched) (staged : s.control.Staged s)
    (run : step cfg s a = some s') : s'.Untouched := by
  intro early
  have before : s.state.rank < 2 := by
    rcases step_state staged run with same | edge
    · rwa [same] at early
    · exact (ConnectionState.rank_lt_of_next edge).trans early
  obtain ⟨empty, outside⟩ := untouched before
  constructor
  · refine List.eq_nil_iff_forall_not_mem.mpr fun e member => ?_
    rcases mapChange_mem (step_mapChange run) member with old | ⟨rfl, op, here⟩ | ⟨rfl, here⟩
    · rw [empty] at old
      cases old
    · have := outside e.owner
      rw [here] at this
      exact this
    · rw [here] at staged
      rw [staged.1] at before
      simp [ConnectionState.rank] at before
  · intro n
    -- No call passes require_open yet.
    have shut : s.state ≠ .open := by
      intro opened
      rw [opened] at before
      simp [ConnectionState.rank] at before
    rcases step_calls run n with same | ⟨_, ⟨op, begun, _⟩ | begun⟩ | ⟨input, rfl⟩
    · rw [same]
      exact outside n
    · rw [begun]
      trivial
    · rw [begun]
      trivial
    · exact (callStep_outside run (outside n) shut).1

/-! ## Every entry is accounted for -/

/-- Where the call of an entry stands, with what it has done for the entry so far. -/
def Accounted (cfg : ConnectionConfig) (run : List Client) (s : Client) (e : PendingEntry) : Prop :=
  match s.calls e.owner with
  | .checkSize op cid | .touch op cid | .write op cid => cid = e.correlationId ∧ op.isOneway = false
  | .written op cid | .wait op cid _ =>
    cid = e.correlationId ∧ op.isOneway = false ∧ s.Sent e.owner (op.frame e.correlationId)
  | .close => s.control.Awaits e.owner
  | .returned op (.error error) =>
    op.isOneway = false ∧ (client cfg).Took (fun before a _ => GivesUp cfg e op error before a) run
  | _ => False

theorem accounted_cases {run : List Client} {e : PendingEntry} (accounted : s.Accounted cfg run e) :
    s.InProgress e ∨ s.Abandoned cfg run e := by
  unfold Accounted at accounted
  split at accounted
  case h_7 op error here => exact .inr ⟨op, error, here, accounted⟩
  case h_8 => exact accounted.elim
  case h_6 here => exact .inl (by rw [InProgress, here]; exact accounted)
  all_goals
    rename_i here
    exact .inl (by rw [InProgress, here]; exact accounted.1)

theorem accounted_frame {run : List Client} {e : PendingEntry} (accounted : s.Accounted cfg run e)
    (calls : s'.calls e.owner = s.calls e.owner) (sent : ∀ frame, s.Sent e.owner frame → s'.Sent e.owner frame)
    (awaits : s.control.Awaits e.owner → s'.control.Awaits e.owner) : s'.Accounted cfg (s' :: run) e := by
  unfold Accounted at accounted ⊢
  rw [calls]
  revert accounted
  split
  case h_4 | h_5 =>
    rintro ⟨cid, waits, written⟩
    exact ⟨cid, waits, sent _ written⟩
  case h_6 => exact awaits
  case h_7 => exact And.imp_right fun took => took.later s'
  all_goals exact id

theorem sent_step {a : Action} {n : Nat} {frame : Bytes} (run : step cfg s a = some s') (sent : s.Sent n frame) :
    s'.Sent n frame := by
  obtain ⟨w, member, source, same⟩ := sent
  obtain ⟨frames, _, grown⟩ := step_handover run
  exact ⟨w, by rw [grown]; exact List.mem_append_left _ member, source, same⟩

theorem callStep_accounted {past : List Client} {e : PendingEntry} (sound : s.dispatcher.Sound)
    (member : e ∈ s.dispatcher.pending) (accounted : s.Accounted cfg (s :: past) e)
    (run : callStep cfg s e.owner input = some s') : s'.Accounted cfg (s' :: s :: past) e := by
  obtain ⟨unset, whole⟩ := sound.unset member
  have moved : (client cfg).step s (.call e.owner input) = some s' := run
  unfold Accounted at accounted
  cases callStep_move run with
  | tooLarge here check =>
    rw [here] at accounted
    obtain ⟨rfl, waits⟩ := accounted
    simp only [Accounted, setCall, Function.update_self]
    exact ⟨waits, .now moved (.tooLarge here check) past⟩
  | fits here | touch here =>
    rw [here] at accounted
    simp only [Accounted, setCall, Function.update_self]
    exact accounted
  | writeFailed here =>
    rw [here] at accounted
    obtain ⟨rfl, waits⟩ := accounted
    simp only [Accounted, setCall, Function.update_self]
    exact ⟨waits, .now moved (.write here) past⟩
  | write here =>
    rw [here] at accounted
    obtain ⟨rfl, waits⟩ := accounted
    simp only [Accounted, setCall, Function.update_self, waits, Bool.false_eq_true, ↓reduceIte]
    exact ⟨trivial, trivial, _, List.mem_append_right _ List.mem_cons_self, rfl, rfl⟩
  | written here =>
    rw [here] at accounted
    simp only [Accounted, setCall, Function.update_self]
    exact accounted
  | timedOut here value _ late =>
    rw [here] at accounted
    obtain ⟨rfl, waits, sent⟩ := accounted
    simp only [Accounted, setCall, Function.update_self]
    exact ⟨waits, .now moved (.timedOut here sent value late rfl) past⟩
  | answered _ value | failed _ value => simp [unset] at value
  | threw _ _ broken => simp [whole] at broken
  | refused here | admitted here | rejected here | accepted here | allocate here | deadline here
  | register here | finish here =>
    -- Nothing was registered yet, or the promise was set.
    rw [here] at accounted
    exact accounted.elim

/-- A `close` keeps waiting until it has emptied the map. -/
theorem step_awaits {a : Action} {n : Nat} (run : step cfg s a = some s') (awaits : s.control.Awaits n) :
    s'.control.Awaits n ∨ s'.dispatcher.pending = [] := by
  rcases step_control run with same | idle | ⟨input, rfl⟩
  · rw [same]
    exact .inl awaits
  · rw [idle] at awaits
    exact awaits.elim
  · cases controlStep_move run with
    | closeFail => exact .inr (Dispatcher.pending_failAllTake _ _)
    | _ => exact .inl (by simp_all [ControlPc.Awaits])

theorem callStep_waits {n : Nat} (waits : (s.calls n).Waits) (run : callStep cfg s n input = some s') :
    (s'.calls n).Waits := by
  cases callStep_move run with
  | @accepted op =>
    simp only [setCall, Function.update_self]
    cases oneway : op.isOneway <;> simp [CallPc.Waits, oneway]
  | @write op =>
    simp only [setCall, Function.update_self]
    cases op.isOneway <;> trivial
  | allocate here | deadline here =>
    rw [here] at waits
    simp only [setCall, Function.update_self]
    exact waits
  | _ =>
    simp only [setCall, Function.update_self]
    trivial

structure Kept (s : Client) : Prop where
  untouched : s.Untouched
  waits : ∀ n, (s.calls n).Waits

theorem step_kept {a : Action} (kept : Kept s) (staged : s.control.Staged s) (run : step cfg s a = some s') :
    Kept s' where
  untouched := step_untouched kept.untouched staged run
  waits := by
    intro n
    rcases step_calls run n with same | ⟨_, ⟨op, begun, _⟩ | begun⟩ | ⟨input, rfl⟩
    · rw [same]
      exact kept.waits n
    · rw [begun]
      trivial
    · rw [begun]
      trivial
    · exact callStep_waits (kept.waits n) run

theorem step_accounted {a : Action} {past : List Client} {e : PendingEntry} (linked : Linked s)
    (accounted : s.Accounted cfg (s :: past) e) (run : step cfg s a = some s') (old : e ∈ s.dispatcher.pending)
    (member : e ∈ s'.dispatcher.pending) : s'.Accounted cfg (s' :: s :: past) e := by
  rcases step_calls run e.owner with same | ⟨idle, _⟩ | ⟨input, rfl⟩
  · refine accounted_frame accounted same (fun _ => sent_step run) fun awaits => ?_
    refine (step_awaits run awaits).resolve_right fun empty => ?_
    rw [empty] at member
    cases member
  · rw [Accounted, idle] at accounted
    exact accounted.elim
  · exact callStep_accounted linked.table old accounted run

theorem step_registered {a : Action} {run : List Client} {e : PendingEntry} (kept : Kept s) (linked : Linked s)
    (moved : step cfg s a = some s')
    (registers : (a = .call e.owner .none ∧ ∃ op, s.calls e.owner = .register op e.correlationId e.deadline) ∨
      (a = .control .none ∧ s.control = .closeRegister e.owner e.correlationId e.deadline)) :
    s'.Accounted cfg run e := by
  rcases registers with ⟨rfl, op, here⟩ | ⟨rfl, here⟩
  · have waits := kept.waits e.owner
    rw [here] at waits
    cases callStep_move moved <;> simp_all [Accounted, setCall, CallPc.Waits]
  · have mine := linked.control
    rw [here] at mine
    cases controlStep_move moved <;> simp_all [Accounted, ControlPc.Linked, ControlPc.Awaits]

end Client

variable {cfg : ConnectionConfig}

theorem reach_kept {allowed : Client → Action → Prop} {s : Client} (reach : (client cfg).Reach allowed s) :
    s.Kept := by
  refine reach.invariant Client.Kept ?_ ?_
  · rintro _ rfl
    exact ⟨fun _ => ⟨rfl, fun _ => trivial⟩, fun _ => trivial⟩
  · intro s a s' before kept _ run
    exact Client.step_kept kept (reach_staged before) run

theorem path_accounted {run : List Client} (path : (client cfg).Path Machine.anyStep run) :
    ∀ s ∈ run.head?, ∀ e ∈ s.dispatcher.pending, s.Accounted cfg run e := by
  induction path with
  | init first =>
    cases first
    rintro _ ⟨rfl⟩ e member
    cases member
  | @step s s' past a before _ moved ih =>
    rintro _ ⟨rfl⟩ e member
    have reach := before.reach List.mem_cons_self
    rcases Client.mapChange_mem (Client.step_mapChange moved) member with old | registers
    · exact Client.step_accounted (reach_linked reach) (ih s rfl e old) moved old member
    · exact Client.step_registered (reach_kept reach) (reach_linked reach) moved registers

/-- After every run the map holds entries of calls that have not returned and of calls that gave
up on them in this run, and no value has been set for any of them; a call puts its own entry in
and takes none out. -/
theorem pending_held_for_calls {s : Client} {past : List Client}
    (path : (client cfg).Path Machine.anyStep (s :: past)) :
    (∀ e ∈ s.dispatcher.pending, s.dispatcher.value e.owner = none ∧
      (s.InProgress e ∨ s.Abandoned cfg (s :: past) e)) ∧
      ∀ a s', (client cfg).step s a = some s' → s.MapChange a s'.dispatcher.pending := by
  constructor
  · intro e member
    have linked := reach_linked (path.reach List.mem_cons_self)
    exact ⟨(linked.table.unset member).1, Client.accounted_cases (path_accounted path s rfl e member)⟩
  · intro a s' run
    exact Client.step_mapChange run

def failedWrite : List Action :=
  .invoke 0 (.deleteStream (text "s") false) :: List.replicate 7 (.call 0 .none) ++
    [.call 0 (.sent (.error (sendFailed (text "Broken pipe"))))]

theorem pending_held_for_calls_failed : ∃ s past, (client {}).Path Machine.anyStep (s :: past) ∧
    ∃ e ∈ s.dispatcher.pending, s.dispatcher.value e.owner = none ∧
      (s.InProgress e ∨ s.Abandoned {} (s :: past) e) := by
  have ran : ((client {}).exec Machine.anyStep {}
      (opening (acceptingScript ⟨1048576, 0⟩) ++ failedWrite)).any
      (fun s => s.dispatcher.pending ≠ []) = true := by decide +kernel
  obtain ⟨s, final, holds⟩ := (Option.any_eq_true _ _).mp ran
  obtain ⟨past, path, _⟩ := Machine.Path.exec (.init rfl) final
  obtain ⟨e, member⟩ := List.exists_mem_of_ne_nil _ (of_decide_eq_true holds)
  exact ⟨s, past, path, e, member, (pending_held_for_calls path).1 e member⟩

/-- A call whose write failed has returned, and its entry is in the map. -/
theorem failed_call_leaves_entry : ∃ s, (client {}).Reach Machine.anyStep s ∧
    ∃ e ∈ s.dispatcher.pending, (∃ op error, s.calls e.owner = .returned op (.error error)) ∧
      ¬ s.InProgress e := by
  have ran : ((client {}).exec Machine.anyStep {}
      (opening (acceptingScript ⟨1048576, 0⟩) ++ failedWrite)).any
      (fun s => s.dispatcher.pending = [⟨0, 100, 10000⟩] ∧
        s.calls 0 = .returned (.deleteStream (text "s") false) (.error (sendFailed (text "Broken pipe")))) = true := by
    decide +kernel
  obtain ⟨s, reach, holds⟩ := Machine.reach_of_exec rfl ran
  obtain ⟨pending, returned⟩ := of_decide_eq_true holds
  refine ⟨s, reach, ⟨0, 100, 10000⟩, by simp [pending], ⟨_, _, returned⟩, ?_⟩
  rw [Client.InProgress, returned]
  exact id

end RmqStream
