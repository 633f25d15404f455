import RmqStream.Client.Answers
import RmqStream.Handshake.Limits

/-! The negotiated frame size against everything the client writes.

Requests and the open request are checked; a heartbeat always fits, because the open
request did. `store_offset` and `close` hand their frames to the socket unchecked, so
the limit is kept in the runs where these frames happen to fit. -/

set_option autoImplicit false

namespace RmqStream
open Library Commands

instance (limit : UInt32) (frame : Bytes) : Decidable (Within limit frame) := inferInstanceAs (Decidable (_ ∨ _))

namespace Client

/-- The frame that this step hands to the socket without a check. -/
def uncheckedFrame (s : Client) : Action → Option Bytes
  | .call n (.sent _) =>
    match s.calls n with
    | .write op cid => if op.isOneway then some (op.frame cid) else none
    | _ => none
  | .control (.sent _) =>
    match s.control with
    | .closeWrite _ cid => some (closeFrame cid)
    | _ => none
  | _ => none

def UncheckedFits (s : Client) (a : Action) : Prop :=
  ∀ frame ∈ s.uncheckedFrame a, Within s.negotiatedFrameMax frame

instance (s : Client) (a : Action) : Decidable (s.UncheckedFits a) :=
  inferInstanceAs (Decidable (∀ frame ∈ s.uncheckedFrame a, Within s.negotiatedFrameMax frame))

def frames (s : Client) : List Bytes := s.wire.map WireEntry.frame

end Client

def Op.Fits (limit : UInt32) (op : Op) : Prop := Within limit (op.frame 0)

def CloseFits (limit : UInt32) : Prop := Within limit (closeFrame 0)

theorem within_request {limit : UInt32} {key version : UInt16} {body : Bytes} (c d : UInt32)
    (within : Within limit (encodeRequestFrame key version c body)) :
    Within limit (encodeRequestFrame key version d body) := by
  refine within.imp_right fun small => ?_
  rw [encodeRequestFrame, declaredSize_sizePrefixed] at small ⊢
  exact small

theorem Op.within_iff_fits (limit : UInt32) (op : Op) (cid : UInt32) :
    Within limit (op.frame cid) ↔ op.Fits limit := by
  unfold Op.Fits Op.frame
  split
  · exact Iff.rfl
  · exact ⟨within_request _ _, within_request _ _⟩

theorem frameKey_op (op : Op) (cid : UInt32) : frameKey (op.frame cid) ≠ Key.tune := by
  have key : frameKey (op.frame cid) = op.key := by
    unfold Op.frame
    split
    · exact frameKey_oneway _ _ _
    · exact frameKey_request _ _ _ _
  rw [key]
  cases op <;> simp only [Op.key] <;> decide

def CallPc.Fits (limit : UInt32) : CallPc → Prop
  | .touch op _ => op.isOneway = false → op.Fits limit
  | .write op _ => op.isOneway = false → op.Fits limit
  | .written op _ => op.Fits limit
  | .wait op _ _ => op.Fits limit
  | .answered op _ _ => op.Fits limit
  | .returned op (.ok _) => op.Fits limit
  | _ => True

def ControlPc.Fits (limit : UInt32) : ControlPc → Prop
  | .closeWritten _ | .closeWait _ _ | .closeStop | .closeSocket | .closeJoinIo | .closeJoinHeartbeat
  | .closeFail | .closeFailing | .closeFinish => CloseFits limit
  | _ => True

structure Unsent (s : Client) : Prop where
  wire : s.wire = []
  state : s.state = .disconnected ∨ s.state = .connecting
  control : s.control ≠ .connectOpen ∧ ∀ e, s.control ≠ .connectAbort e
  outside : ∀ n, (s.calls n).Outside
  heartbeat : s.heartbeat = .notStarted
  returned : ∀ call, (call, .ok ()) ∉ s.returned

structure Failed (s : Client) : Prop where
  wire : Orderly s.frames
  handshake : ∀ w ∈ s.wire, w.source = .handshake
  state : s.state = .closed ∨ s.state = .connecting ∧ ∃ e, s.control = .connectAbort e
  outside : ∀ n, (s.calls n).Outside
  io : s.io = .notStarted
  heartbeat : s.heartbeat = .notStarted
  returned : ∀ call, (call, .ok ()) ∉ s.returned

structure Established (cfg : ConnectionConfig) (s : Client) : Prop where
  wire : Tuned s.negotiatedFrameMax s.frames
  openWithin : OpenWithin cfg s.negotiatedFrameMax
  state : s.state = .open ∨ s.state = .closing ∨ s.state = .closed ∨ s.control = .connectOpen
  calls : ∀ n, (s.calls n).Fits s.negotiatedFrameMax
  control : s.control.Fits s.negotiatedFrameMax
  callSource : ∀ w ∈ s.wire, ∀ n, w.source = .call n → ∃ op ∈ (s.calls n).op, op.Fits s.negotiatedFrameMax
  closeSource : ∀ w ∈ s.wire, w.source = .close → CloseFits s.negotiatedFrameMax
  closed : (.close, .ok ()) ∈ s.returned → CloseFits s.negotiatedFrameMax

/-- Every state is in one of the three phases. -/
def Limited (cfg : ConnectionConfig) (s : Client) : Prop := Unsent s ∨ Failed s ∨ Established cfg s

namespace Client
variable {cfg : ConnectionConfig} {s s' : Client} {input : Input}

/-! ## Lifecycle calls -/

theorem outside_all {n : Nat} (run : callStep cfg s n input = some s') (outside : ∀ m, (s.calls m).Outside)
    (shut : s.state ≠ .open) : ∀ m, (s'.calls m).Outside := by
  intro m
  by_cases same : m = n
  · rw [same]
    exact (callStep_outside run (outside n) shut).1
  · obtain ⟨_, _, _, _, rfl⟩ := callStep_writes run
    simp only [Function.update_of_ne same]
    exact outside m

theorem callStep_wire {n : Nat} (run : callStep cfg s n input = some s') :
    s'.wire = s.wire ∨ ∃ op cid result, s.calls n = .write op cid ∧ input = .sent result ∧
      s'.wire = s.wire ++ [⟨.call n, op.frame cid, s.state⟩] := by
  cases callStep_move run <;> simp_all [setCall, write]

/-- Who writes has checked its frame, or is a `store_offset`. -/
theorem write_fits {n : Nat} {op : Op} {cid : UInt32} {result : Result Unit} (here : s.calls n = .write op cid)
    (mine : (s.calls n).Fits s.negotiatedFrameMax) (guarded : s.UncheckedFits (.call n (.sent result))) :
    op.Fits s.negotiatedFrameMax := by
  cases oneway : op.isOneway with
  | true =>
    refine (op.within_iff_fits _ cid).mp (guarded _ ?_)
    simp [uncheckedFrame, here, oneway]
  | false =>
    rw [here] at mine
    exact mine oneway

theorem checked_fits {op : Op} {cid limit : UInt32}
    (passed : checkOutboundFrameSize ((op.frame cid).length - 4) limit = .ok ()) : op.Fits limit := by
  have fits := (checkOutboundFrameSize_ok_iff _ _).mp passed
  refine (op.within_iff_fits limit cid).mp ?_
  unfold Op.frame at fits ⊢
  split
  next oneway =>
    rw [if_pos oneway] at fits
    exact within_of_length fits
  next request =>
    rw [if_neg request] at fits
    exact within_of_length fits

theorem callStep_fits {n : Nat} (run : callStep cfg s n input = some s')
    (mine : (s.calls n).Fits s.negotiatedFrameMax) (guarded : s.UncheckedFits (.call n input)) :
    (s'.calls n).Fits s.negotiatedFrameMax := by
  cases callStep_move run with
  | @accepted op =>
    simp only [setCall, Function.update_self]
    cases oneway : op.isOneway <;> simp [CallPc.Fits, oneway]
  | fits _ passed =>
    simp only [setCall, Function.update_self]
    exact fun _ => checked_fits passed
  | @write op cid here =>
    have fits := write_fits here mine guarded
    simp only [setCall, Client.write, Function.update_self]
    cases oneway : op.isOneway <;> simpa [CallPc.Fits] using fits
  | @finish op cid frame here =>
    rw [here] at mine
    simp only [setCall, Function.update_self]
    cases op.finish frame with
    | error e => trivial
    | ok value => exact mine
  | _ =>
    simp only [setCall, Client.write, Function.update_self]
    simp_all [CallPc.Fits]

theorem Unsent.shut (unsent : Unsent s) : s.state ≠ .open := by
  rcases unsent.state with state | state <;> simp [state]

theorem Failed.shut (failed : Failed s) : s.state ≠ .open := by
  rcases failed.state with state | ⟨state, _⟩ <;> simp [state]

theorem established_write (established : Established cfg s) (w : WireEntry) (other : frameKey w.frame ≠ Key.tune)
    (within : Within s.negotiatedFrameMax w.frame)
    (callSource : ∀ n, w.source = .call n → ∃ op ∈ (s.calls n).op, op.Fits s.negotiatedFrameMax)
    (closeSource : w.source = .close → CloseFits s.negotiatedFrameMax) :
    Established cfg { s with wire := s.wire ++ [w] } := by
  refine { established with wire := ?_, callSource := ?_, closeSource := ?_ }
  · simp only [frames, List.map_append]
    exact established.wire.append other within
  · intro x member n source
    rcases List.mem_append.mp member with old | new
    · exact established.callSource x old n source
    · rw [List.mem_singleton.mp new] at source
      exact callSource n source
  · intro x member source
    rcases List.mem_append.mp member with old | new
    · exact established.closeSource x old source
    · rw [List.mem_singleton.mp new] at source
      exact closeSource source

theorem established_call {n : Nat} {pc : CallPc} (established : Established cfg s)
    (ops : ∀ m, (Function.update s.calls n pc m).op = (s.calls m).op) (fits : pc.Fits s.negotiatedFrameMax)
    (table : Dispatcher) (stamp : Int) :
    Established cfg { s with
      calls := Function.update s.calls n pc, dispatcher := table, lastOutbound := stamp } := by
  have calls : ∀ m, (Function.update s.calls n pc m).Fits s.negotiatedFrameMax := by
    intro m
    by_cases same : m = n
    · rw [same, Function.update_self]
      exact fits
    · rw [Function.update_of_ne same]
      exact established.calls m
  refine { established with calls := calls, callSource := ?_ }
  intro w member m source
  rw [ops]
  exact established.callSource w member m source

theorem callStep_established {n : Nat} (established : Established cfg s)
    (guarded : s.UncheckedFits (.call n input)) (run : callStep cfg s n input = some s') :
    Established cfg s' := by
  have ops := callStep_op run
  have wire := callStep_wire run
  have fits := callStep_fits run (established.calls n) guarded
  obtain ⟨pc, table, written, stamp, rfl⟩ := callStep_writes run
  simp only [Function.update_self] at fits
  rcases wire with rfl | ⟨op, cid, result, here, rfl, rfl⟩
  · exact established_call established ops fits table stamp
  · have small := write_fits here (established.calls n) guarded
    refine established_call (established_write established ⟨.call n, op.frame cid, s.state⟩ (frameKey_op op cid)
      ((op.within_iff_fits _ cid).mpr small) ?_ (by simp)) ops fits table stamp
    rintro m ⟨⟩
    exact ⟨op, by rw [here]; rfl, small⟩

theorem callStep_limited {n : Nat} (limited : Limited cfg s) (guarded : s.UncheckedFits (.call n input))
    (run : callStep cfg s n input = some s') : Limited cfg s' := by
  rcases limited with unsent | failed | established
  · have outside := outside_all run unsent.outside (Unsent.shut unsent)
    have kept := (callStep_outside run (unsent.outside n) (Unsent.shut unsent)).2
    obtain ⟨_, _, _, _, rfl⟩ := callStep_writes run
    exact .inl { unsent with wire := kept.trans unsent.wire, outside := outside }
  · have outside := outside_all run failed.outside (Failed.shut failed)
    have kept := (callStep_outside run (failed.outside n) (Failed.shut failed)).2
    obtain ⟨_, _, _, _, rfl⟩ := callStep_writes run
    cases kept
    exact .inr (.inl { failed with outside := outside })
  · exact .inr (.inr (callStep_established established guarded run))

theorem heartbeatStep_wire (run : heartbeatStep s input = some s') :
    s'.wire = s.wire ∨ s'.wire = s.wire ++ [⟨.heartbeat, heartbeatFrame, s.state⟩] := by
  cases heartbeatStep_move run <;> simp [write]

theorem heartbeat_within {limit : UInt32} (within : OpenWithin cfg limit) : Within limit heartbeatFrame :=
  within.least.imp_right fun least => Nat.le_trans (by decide) least

theorem heartbeatStep_limited (limited : Limited cfg s) (run : heartbeatStep s input = some s') :
    Limited cfg s' := by
  have started := (heartbeatStep_staged run).1
  rcases limited with unsent | failed | established
  · exact absurd unsent.heartbeat started
  · exact absurd failed.heartbeat started
  · have wire := heartbeatStep_wire run
    obtain ⟨_, written, _, rfl⟩ := heartbeatStep_writes run
    refine .inr (.inr ?_)
    rcases wire with rfl | rfl
    · exact { established with }
    · have key : frameKey heartbeatFrame ≠ Key.tune := by decide
      exact { established_write established ⟨.heartbeat, heartbeatFrame, s.state⟩ key
        (heartbeat_within established.openWithin) (by simp) (by simp) with }

theorem ioStep_limited (limited : Limited cfg s) (staged : s.control.Staged s)
    (run : ioStep s input = some s') : Limited cfg s' := by
  obtain ⟨before, _, state⟩ := ioStep_staged run
  obtain ⟨_, _, _, _, _, _, _, _, _, rfl⟩ := ioStep_writes run
  rcases limited with unsent | failed | established
  · -- It has not been started yet.
    rcases unsent.state with here | here <;> cases control : s.control <;> simp_all [ControlPc.Staged]
  · exact absurd failed.io before
  · refine .inr (.inr { established with state := ?_ })
    rcases state with same | ⟨_, closed⟩
    · exact same ▸ established.state
    · exact .inr (.inr (.inl closed))

/-! ## The control thread -/

theorem handshake_frames (state : ConnectionState) (trace : List Event) :
    (trace.filterMap (handshakeEntry state)).map WireEntry.frame = sentFrames trace := by
  rw [List.map_filterMap, sentFrames]
  congr 1
  funext event
  cases event <;> rfl

theorem outside_fits {pc : CallPc} (outside : pc.Outside) (limit : UInt32) : pc.Fits limit := by
  cases pc with
  | returned op result =>
    cases result with
    | error e => trivial
    | ok value => exact outside.elim
  | _ => trivial

theorem handshakeStep_limited {replies : List Reply} (unsent : Unsent s) (here : s.control = .connectHandshake)
    (staged : s.control.Staged s) : Limited cfg (handshakeStep cfg s replies) := by
  rw [here] at staged
  unfold handshakeStep
  rcases outcome : (runHandshake cfg).run ⟨replies, []⟩ with ⟨e | result, ch⟩
  · refine .inr (.inl ⟨?_, ?_, .inr ⟨staged.1, e, rfl⟩, unsent.outside, staged.2.1, unsent.heartbeat,
      unsent.returned⟩)
    · simp only [frames, unsent.wire, List.nil_append, handshake_frames]
      exact runHandshake_orderly outcome
    · simp only [unsent.wire, List.nil_append]
      exact fun w member => (handshake_entry member).1
  · obtain ⟨tuned, openWithin⟩ := runHandshake_tuned outcome
    refine .inr (.inr ⟨?_, openWithin, .inr (.inr (.inr rfl)), ?_, trivial, ?_, ?_, ?_⟩)
    · simp only [frames, unsent.wire, List.nil_append, handshake_frames]
      exact tuned
    · exact fun n => outside_fits (unsent.outside n) _
    · simp only [unsent.wire, List.nil_append]
      intro w member n source
      rw [(handshake_entry member).1] at source
      cases source
    · simp only [unsent.wire, List.nil_append]
      intro w member source
      rw [(handshake_entry member).1] at source
      cases source
    · exact fun ended => absurd ended (unsent.returned _)

theorem controlStep_unsent (unsent : Unsent s) (staged : s.control.Staged s)
    (run : controlStep cfg s input = some s') : Limited cfg s' := by
  obtain ⟨wire, state, ⟨notOpen, notAbort⟩, outside, heartbeat, returned⟩ := unsent
  cases controlStep_move run with
  | connectLock => exact .inl ⟨wire, .inr rfl, ⟨by simp, by simp⟩, outside, heartbeat, returned⟩
  | @tcpFailed e here =>
    rw [here] at staged
    exact .inr (.inl ⟨.inl (by simp [frames, wire, Untuned]), by simp [wire], .inr ⟨staged.1, e, rfl⟩, outside,
      staged.2.1, heartbeat, returned⟩)
  | handshake here =>
    exact handshakeStep_limited ⟨wire, state, ⟨notOpen, notAbort⟩, outside, heartbeat, returned⟩ here staged
  | tcp | closeRefused | destroyLock | destroyStop | destroyJoinIo | destroyJoinHeartbeat | destroySocket =>
    exact .inl ⟨wire, state, ⟨by simp [finish], by simp [finish]⟩, outside, heartbeat,
      by simpa [finish] using returned⟩
  | _ =>
    -- The other branches belong to a later stage.
    exfalso
    rcases state with state | state <;> simp_all [ControlPc.Staged]

theorem controlStep_failed (failed : Failed s) (staged : s.control.Staged s)
    (run : controlStep cfg s input = some s') : Limited cfg s' := by
  obtain ⟨wire, handshake, state, outside, io, heartbeat, returned⟩ := failed
  cases controlStep_move run with
  | connectRefused | closeRefused =>
    exact .inr (.inl ⟨wire, handshake, .inl (by simp_all [finish]), outside, io, heartbeat,
      by simpa [finish] using returned⟩)
  | connectAbort =>
    exact .inr (.inl ⟨wire, handshake, .inl rfl, outside, io, heartbeat, by simpa [finish] using returned⟩)
  | destroyLock | destroyStop | destroyJoinIo | destroyJoinHeartbeat | destroySocket =>
    exact .inr (.inl ⟨wire, handshake, by simp_all, outside, io, heartbeat, returned⟩)
  | _ =>
    exfalso
    simp_all [ControlPc.Staged]

theorem closeFrame_fits {limit cid : UInt32} (within : Within limit (closeFrame cid)) : CloseFits limit :=
  within_request _ _ within

theorem controlStep_established (established : Established cfg s) (staged : s.control.Staged s)
    (guarded : s.UncheckedFits (.control input)) (run : controlStep cfg s input = some s') :
    Established cfg s' := by
  have state := established.state
  have control := established.control
  have closed := established.closed
  cases controlStep_move run with
  | handshake =>
    exfalso
    simp_all [ControlPc.Staged]
  | @closeWrite n cid result here =>
    have fits : CloseFits s.negotiatedFrameMax :=
      closeFrame_fits (guarded (closeFrame cid) (by simp [uncheckedFrame, here]))
    rw [here] at staged
    have key : frameKey (closeFrame cid) ≠ Key.tune := by
      rw [closeFrame, requestFrame, frameKey_request]
      decide
    exact { established_write established ⟨.close, closeFrame cid, s.state⟩ key (within_request _ _ fits)
      (by simp) (fun _ => fits) with state := .inr (.inl staged.1), control := fits }
  | closeFailOne => exact { established with }
  | _ =>
    exact { established with
      state := by simp_all [ControlPc.Staged, finish]
      control := by simp_all [ControlPc.Fits, finish]
      closed := by simp_all [ControlPc.Fits, finish] }

theorem controlStep_limited (limited : Limited cfg s) (staged : s.control.Staged s)
    (guarded : s.UncheckedFits (.control input)) (run : controlStep cfg s input = some s') : Limited cfg s' := by
  rcases limited with unsent | failed | established
  · exact controlStep_unsent unsent staged run
  · exact controlStep_failed failed staged run
  · exact .inr (.inr (controlStep_established established staged guarded run))

/-! ## Every state reached -/

theorem limited_begin {n : Nat} (pc : CallPc) (limited : Limited cfg s) (idle : s.calls n = .idle)
    (outside : pc.Outside) : Limited cfg (s.setCall n pc) := by
  have all : (∀ m, (s.calls m).Outside) → ∀ m, (Function.update s.calls n pc m).Outside := by
    intro before m
    by_cases same : m = n
    · rw [same, Function.update_self]
      exact outside
    · rw [Function.update_of_ne same]
      exact before m
  rcases limited with unsent | failed | established
  · exact .inl { unsent with outside := all unsent.outside }
  · exact .inr (.inl { failed with outside := all failed.outside })
  · have fits : ∀ m, (Function.update s.calls n pc m).Fits s.negotiatedFrameMax := by
      intro m
      by_cases same : m = n
      · rw [same, Function.update_self]
        exact outside_fits outside _
      · rw [Function.update_of_ne same]
        exact established.calls m
    refine .inr (.inr { established with calls := fits, callSource := ?_ })
    intro w member m source
    obtain ⟨op, performs, small⟩ := established.callSource w member m source
    have other : m ≠ n := by
      rintro rfl
      rw [idle] at performs
      cases performs
    exact ⟨op, by simpa only [setCall, Function.update_of_ne other] using performs, small⟩

theorem limited_control (pc : ControlPc) (more : List (ControlCall × Result Unit)) (limited : Limited cfg s)
    (idle : s.control = .idle) (plain : pc ≠ .connectOpen ∧ ∀ e, pc ≠ .connectAbort e)
    (fits : ∀ limit, pc.Fits limit) (refused : ∀ call, (call, .ok ()) ∉ more) :
    Limited cfg { s with control := pc, returned := s.returned ++ more } := by
  have returned : ∀ call, (call, .ok ()) ∈ s.returned ++ more → (call, .ok ()) ∈ s.returned :=
    fun call member => (List.mem_append.mp member).resolve_right (refused call)
  rcases limited with unsent | failed | established
  · exact .inl { unsent with
      control := plain
      returned := fun call member => unsent.returned call (returned call member) }
  · refine .inr (.inl { failed with
      state := ?_, returned := fun call member => failed.returned call (returned call member) })
    rcases failed.state with closed | ⟨_, e, aborting⟩
    · exact .inl closed
    · rw [idle] at aborting
      cases aborting
  · refine .inr (.inr { established with
      state := ?_, control := fits _, closed := fun member => established.closed (returned _ member) })
    have state := established.state
    simp only [idle, reduceCtorEq, or_false] at state
    simp only [← or_assoc] at state ⊢
    exact .inl state

theorem step_limited {a : Action} (limited : Limited cfg s) (staged : s.control.Staged s)
    (guarded : s.UncheckedFits a) (run : step cfg s a = some s') : Limited cfg s' := by
  cases a with
  | tick | onUnexpectedClose =>
    cases run
    rcases limited with unsent | failed | established
    · exact .inl { unsent with }
    · exact .inr (.inl { failed with })
    · exact .inr (.inr { established with })
  | invoke n op =>
    obtain ⟨idle, rfl⟩ := step_invoke run
    exact limited_begin _ limited idle trivial
  | connect =>
    obtain ⟨idle, ⟨e, rfl⟩ | rfl⟩ := step_connect run
    · exact limited_control .idle _ limited idle ⟨by simp, by simp⟩ (fun _ => trivial) (by simp)
    · simpa using limited_control .connectLock [] limited idle ⟨by simp, by simp⟩ (fun _ => trivial) (by simp)
  | close n =>
    obtain ⟨idle, free, rfl⟩ := step_close run
    have begun := limited_begin .close limited free trivial
    simpa using limited_control (.closeLock n) [] begun idle ⟨by simp, by simp⟩ (fun _ => trivial) (by simp)
  | destroy =>
    obtain ⟨idle, rfl⟩ := step_destroy run
    simpa using limited_control .destroyLock [] limited idle ⟨by simp, by simp⟩ (fun _ => trivial) (by simp)
  | call n input => exact callStep_limited limited guarded run
  | control input => exact controlStep_limited limited staged guarded run
  | io input => exact ioStep_limited limited staged run
  | heartbeat input => exact heartbeatStep_limited limited run

end Client

theorem reach_limited {cfg : ConnectionConfig} {s : Client}
    (reach : (client cfg).Reach Client.UncheckedFits s) : Limited cfg s := by
  refine reach.invariant (Limited cfg) ?_ ?_
  · rintro _ rfl
    exact .inl ⟨rfl, .inl rfl, ⟨by simp, by simp⟩, fun _ => trivial, rfl, by simp⟩
  · intro s a s' before limited guarded run
    exact Client.step_limited limited (reach_staged before) guarded run

/-! ## The limit on the wire -/

/-- What a tune reply with a limit means for the frames after it and for the
operations: a frame above the limit is never written, and whoever wanted to write it
has got an error. -/
structure KeepsLimit (cfg : ConnectionConfig) (s : Client) (after : List WireEntry) (limit : Nat) : Prop where
  later : ∀ x ∈ after, declaredSize x.frame ≤ limit
  call : ∀ n op result cid, s.calls n = .returned op result → limit < declaredSize (op.frame cid) →
    (∃ e, result = .error e) ∧ ∀ w ∈ s.wire, w.source ≠ .call n
  close : ∀ result cid, (.close, result) ∈ s.returned → limit < declaredSize (closeFrame cid) →
    (∃ e, result = .error e) ∧ ∀ w ∈ s.wire, w.source ≠ .close
  connect : ∀ result cid, (.connect, result) ∈ s.returned →
    limit < declaredSize (requestFrame (⟨cfg.virtualHost⟩ : OpenRequest) cid) → ∃ e, result = .error e

theorem Failed.keepsLimit {cfg : ConnectionConfig} {s : Client} (failed : Failed s) {after : List WireEntry}
    {limit : Nat} (later : ∀ x ∈ after, declaredSize x.frame ≤ limit) : KeepsLimit cfg s after limit := by
  have refused : ∀ call result, (call, result) ∈ s.returned → ∃ e, result = .error e := by
    intro call result member
    cases result with
    | error e => exact ⟨e, rfl⟩
    | ok value => exact absurd member (failed.returned call)
  refine ⟨later, ?_, ?_, fun result _ member _ => refused _ result member⟩
  · intro n op result cid here _
    have outside := failed.outside n
    rw [here] at outside
    refine ⟨?_, fun w member source => ?_⟩
    · cases result with
      | error e => exact ⟨e, rfl⟩
      | ok value => exact outside.elim
    · rw [failed.handshake w member] at source
      cases source
  · intro result cid member _
    refine ⟨refused _ result member, fun w inside source => ?_⟩
    rw [failed.handshake w inside] at source
    cases source

theorem Established.keepsLimit {cfg : ConnectionConfig} {s : Client} (established : Established cfg s)
    {after : List WireEntry} (nonzero : s.negotiatedFrameMax ≠ 0)
    (later : ∀ x ∈ after, declaredSize x.frame ≤ s.negotiatedFrameMax.toNat) :
    KeepsLimit cfg s after s.negotiatedFrameMax.toNat := by
  have small : ∀ frame, Within s.negotiatedFrameMax frame → declaredSize frame ≤ s.negotiatedFrameMax.toNat :=
    fun frame within => within.resolve_left nonzero
  refine ⟨later, ?_, ?_, ?_⟩
  · intro n op result cid here large
    have tooLarge : ¬ op.Fits s.negotiatedFrameMax := fun fits =>
      absurd (small _ ((op.within_iff_fits _ cid).mpr fits)) (Nat.not_le.mpr large)
    have mine := established.calls n
    rw [here] at mine
    refine ⟨?_, fun w member source => ?_⟩
    · cases result with
      | error e => exact ⟨e, rfl⟩
      | ok value => exact absurd mine tooLarge
    · obtain ⟨other, performs, fits⟩ := established.callSource w member n source
      rw [here] at performs
      cases performs
      exact tooLarge fits
  · intro result cid member large
    have tooLarge : ¬ CloseFits s.negotiatedFrameMax := fun fits =>
      absurd (small (closeFrame cid) (within_request _ _ fits)) (Nat.not_le.mpr large)
    refine ⟨?_, fun w inside source => tooLarge (established.closeSource w inside source)⟩
    cases result with
    | error e => exact ⟨e, rfl⟩
    | ok value => exact absurd (established.closed member) tooLarge
  · -- The handshake has checked the Open request against the limit.
    intro result cid _ large
    have fits : Within s.negotiatedFrameMax (requestFrame (⟨cfg.virtualHost⟩ : OpenRequest) cid) := by
      have short := established.openWithin
      rw [OpenWithin, requestFrame_length, ← requestFrame_length _ cid] at short
      exact within_of_length short
    exact absurd (small _ fits) (Nat.not_le.mpr large)

theorem frame_max_bounds_outbound {cfg : ConnectionConfig} {s : Client}
    (reach : (client cfg).Reach Client.UncheckedFits s) {before after : List WireEntry} {w : WireEntry}
    {tune : Tune} (split : s.wire = before ++ w :: after) (reply : w.frame = onewayFrame tune)
    (limited : tune.frameMax ≠ 0) : KeepsLimit cfg s after tune.frameMax.toNat := by
  have frames : s.frames = before.map WireEntry.frame ++ onewayFrame tune :: after.map WireEntry.frame := by
    rw [Client.frames, split, List.map_append, List.map_cons, reply]
  have within : ∀ limit, Tuned limit s.frames →
      tune.frameMax = limit ∧ ∀ x ∈ after, declaredSize x.frame ≤ tune.frameMax.toNat := by
    intro limit tuned
    obtain ⟨rfl, small⟩ := tuned.within frames
    exact ⟨rfl, fun x member => (small _ (List.mem_map_of_mem member)).resolve_left limited⟩
  rcases reach_limited reach with unsent | failed | established
  · simp [unsent.wire] at split
  · rcases failed.wire with untuned | ⟨limit, tuned⟩
    · refine absurd (frameKey_oneway _ _ _) (untuned (onewayFrame tune) ?_)
      rw [frames]
      simp
    · exact failed.keepsLimit (within limit tuned).2
  · obtain ⟨same, small⟩ := within _ established.wire
    rw [same] at limited small ⊢
    exact established.keepsLimit limited small

def longName : Bytes := List.replicate 100 97

theorem wire_split {wire : List WireEntry} {i : Nat} {frame : Bytes}
    (here : wire[i]?.map WireEntry.frame = some frame) :
    ∃ w, wire = wire.take i ++ w :: wire.drop (i + 1) ∧ w.frame = frame := by
  obtain ⟨w, found, same⟩ := Option.map_eq_some_iff.mp here
  obtain ⟨inside, rfl⟩ := List.getElem?_eq_some_iff.mp found
  refine ⟨wire[i], ?_, same⟩
  rw [List.getElem_cons_drop, List.take_append_drop]

/-- With a limit of 64 bytes a `delete_stream` of a long name is refused, and a short
`store_offset` goes out. -/
theorem frame_max_bounds_delete : ∃ s, (client {}).Reach Client.UncheckedFits s ∧ s.wire.length = 6 ∧
    KeepsLimit {} s (s.wire.drop 4) 64 := by
  have ran : ((client {}).exec Client.UncheckedFits {} (opening (acceptingScript ⟨64, 60⟩) ++
      (.invoke 0 (.deleteStream longName false) :: List.replicate 6 (.call 0 .none)) ++
      (.invoke 1 (.storeOffset (text "r") (text "a") 7) :: List.replicate 3 (.call 1 .none)) ++
      [.call 1 (.sent (.ok ()))])).any (fun s =>
        s.wire[3]?.map WireEntry.frame = some (onewayFrame (⟨64, 60⟩ : Tune)) ∧ s.wire.length = 6) = true := by
    decide +kernel
  obtain ⟨s, reach, holds⟩ := Machine.reach_of_exec rfl ran
  obtain ⟨reply, length⟩ := of_decide_eq_true holds
  obtain ⟨w, split, same⟩ := wire_split reply
  exact ⟨s, reach, length, frame_max_bounds_outbound reach split same (by decide)⟩

/-- `store_offset` of a long name goes out above the limit. -/
theorem frame_max_exceeded_by_store_offset :
    ¬ ∀ (cfg : ConnectionConfig) (s : Client), (client cfg).Reach Machine.anyStep s →
      ∀ (before after : List WireEntry) (w : WireEntry) (tune : Tune), s.wire = before ++ w :: after →
        w.frame = onewayFrame tune → tune.frameMax ≠ 0 → KeepsLimit cfg s after tune.frameMax.toNat := by
  intro claimed
  have ran : ((client {}).exec Machine.anyStep {} (opening (acceptingScript ⟨64, 60⟩) ++
      (.invoke 0 (.storeOffset (text "r") longName 7) :: List.replicate 3 (.call 0 .none)) ++
      [.call 0 (.sent (.ok ()))])).any (fun s =>
        s.wire[3]?.map WireEntry.frame = some (onewayFrame (⟨64, 60⟩ : Tune)) ∧
          ∃ x ∈ s.wire.drop 4, 64 < declaredSize x.frame) = true := by
    decide +kernel
  obtain ⟨s, reach, holds⟩ := Machine.reach_of_exec rfl ran
  obtain ⟨reply, x, member, large⟩ := of_decide_eq_true holds
  obtain ⟨w, split, same⟩ := wire_split reply
  exact absurd ((claimed {} s reach _ _ w _ split same (by decide)).later x member) (Nat.not_le.mpr large)

end RmqStream
