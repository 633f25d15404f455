import Mathlib.Data.List.TakeWhile
import RmqStream.Client.Reception
import RmqStream.Framing

/-! Inbound frames beyond the agreed frame size.

The limit is stored in the client, and `read_frame` asks nobody for it: whatever the size
prefix declares is allocated, awaited and dispatched. Oversized frames are refused only in
the runs in which none is announced. -/

set_option autoImplicit false

namespace RmqStream
open Library

def IncomingFrame.size (frame : IncomingFrame) : Nat := frame.slices.length

theorem nextFrame_size {bytes tail : Bytes} {frame : IncomingFrame}
    (found : nextFrame bytes = some (frame, tail)) : frame.size = declaredSize bytes := by
  unfold nextFrame at found
  split at found
  · cases found
  next fits =>
    obtain ⟨parsed, payload, same⟩ := Option.map_eq_some_iff.mp found
    cases same
    rw [IncomingFrame.size, ← (payloadFrame_slices payload).1, List.length_take, List.length_drop]
    omega

namespace Reception

def Oversized (s : Reception) (size : Nat) : Prop :=
  s.client.negotiatedFrameMax ≠ 0 ∧ s.client.negotiatedFrameMax.toNat < size

instance (s : Reception) (size : Nat) : Decidable (s.Oversized size) := inferInstanceAs (Decidable (_ ∧ _))

/-- No `recv` completes a size prefix that is beyond the limit, apart from a size below four,
which is refused as such. -/
def AnnouncesWithin (s : Reception) : Occurrence → Prop
  | .recv outcome => ∀ size ∈ s.reader.announced outcome, 4 ≤ size → ¬ s.Oversized size
  | .client _ => True

instance (s : Reception) (o : Occurrence) : Decidable (s.AnnouncesWithin o) :=
  match o with
  | .recv _ => inferInstanceAs (Decidable (∀ _ ∈ _, _ → _))
  | .client _ => inferInstanceAs (Decidable True)

end Reception

/-- A frame beyond the limit ends the loop at its size prefix, and the frames before it arrive. -/
structure RefusesOversized (s : Reception) : Prop where
  refused : 4 ≤ (delivered s.call).length → s.Oversized (declaredSize (delivered s.call)) →
    (delivered s.call).length = 4 ∧ ∃ e, s.client.ended = some (.readError, e) ∧ e.kind = .protocolViolation
  unbuffered : ∀ declared ∈ s.reader.declared?, ¬ s.Oversized declared.toNat
  undispatched : ∀ frame ∈ s.client.io.frame, ¬ s.Oversized frame.size
  unanswered : ∀ x ∈ s.client.dispatcher.settled, ∀ index frame, x.cause = .response index frame →
    ¬ s.Oversized frame.size
  delivered : s.arrived = (frames s.received).takeWhile fun frame => ¬ s.Oversized frame.size

namespace Reception
variable {cfg : ConnectionConfig} {s s' : Reception}

/-- Nothing beyond the limit is in hand, has arrived, or was read further than its size. -/
structure Within (s : Reception) : Prop where
  reader : ∀ declared ∈ s.reader.declared?, ¬ s.Oversized declared.toNat
  arrived : ∀ frame ∈ s.arrived, ¬ s.Oversized frame.size
  call : 4 ≤ (delivered s.call).length → s.Oversized (declaredSize (delivered s.call)) →
    (delivered s.call).length = 4 ∧ s.client.ended = some (.readError, frameTooSmall)

theorem Within.left (within : s.Within) (looping : Looping s.client) (whole : 4 ≤ (delivered s.call).length)
    (oversized : s.Oversized (declaredSize (delivered s.call))) : s.client.io.left = true := by
  cases left : s.client.io.left with
  | true => rfl
  | false =>
    obtain ⟨_, ended⟩ := within.call whole oversized
    rw [looping.running left] at ended
    cases ended

theorem follow_within {a : Action} {client : Client} (within : s.Within) (tracked : s.Tracked)
    (looping : Looping s.client) (staged : s.client.control.Staged s.client)
    (run : s.client.step cfg a = some client) (own : ∀ reply, a ≠ .io (.read reply)) :
    (s.follow a client).Within := by
  rcases Client.step_agreed run with ⟨same, _⟩ | here
  · have limit (size : Nat) (oversized : (s.follow a client).Oversized size) : s.Oversized size := by
      unfold Oversized at oversized ⊢
      rwa [show (s.follow a client).client.negotiatedFrameMax = _ from same] at oversized
    refine ⟨fun declared sized => mt (limit _) (within.reader declared sized),
      fun frame member => mt (limit _) (within.arrived frame member), fun whole oversized => ?_⟩
    obtain ⟨four, ended⟩ := within.call whole (limit _ oversized)
    refine ⟨four, ?_⟩
    rcases Client.step_ended run own with still | ⟨waiting, _⟩
    · exact still.trans ended
    · have left := within.left looping whole (limit _ oversized)
      rw [waiting] at left
      cases left
  · -- Nothing has been read when the limit is agreed on.
    rw [here] at staged
    obtain ⟨_, call, arrived⟩ := tracked.fresh staged.2.1
    have start := tracked.idle (by simp [staged.2.1])
    constructor
    · simp [follow, start, ReaderPc.start, ReaderPc.declared?]
    · simp [follow, arrived]
    · simp [follow, call, delivered]

theorem step_within {o : Occurrence} (within : s.Within) (tracked : s.Tracked) (looping : Looping s.client)
    (staged : s.client.control.Staged s.client) (announces : s.AnnouncesWithin o)
    (run : step cfg s o = some s') : s'.Within := by
  cases step_move run with
  | client moved own => exact follow_within within tracked looping staged moved own
  | @more outcome reader here took =>
    have reading : ∀ declared ∈ reader.declared?, ¬ s.Oversized declared.toNat := by
      intro declared sized
      rcases ReaderPc.recv_sized took sized with before | ⟨came, least⟩
      · exact within.reader declared before
      · exact announces declared.toNat came (Nat.not_lt.mp fun small => least (UInt32.lt_iff_toNat_lt.mpr small))
    have grown : delivered (s.call ++ [outcome]) = reader.bytes := by
      rw [tracked.call_bytes here, ReaderPc.recv_more took]
    refine ⟨reading, within.arrived, fun whole oversized => ?_⟩
    simp only [grown] at whole oversized
    cases sized : reader.declared? with
    -- Four bytes are never left in hand without a declared size.
    | none => exact absurd whole (Nat.not_le.mpr (ReaderPc.bytes_unsized sized))
    | some declared =>
      have size := ReaderPc.declaredSize_bytes sized []
      rw [List.append_nil] at size
      rw [size] at oversized
      exact absurd oversized (reading declared sized)
  | @frame outcome frame here took =>
    refine ⟨by simp [ReaderPc.start, ReaderPc.declared?], fun other member => ?_, by simp [delivered]⟩
    rcases List.mem_append.mp member with before | new
    · exact within.arrived other before
    · -- The frame filled a body whose size had been let through.
      obtain ⟨declared, sized⟩ := ReaderPc.recv_frame_sized took
      have found := (readFrame_ok (call_returns tracked here took [])).1
      rw [List.append_nil, tracked.call_bytes here] at found
      rw [List.mem_singleton.mp new, nextFrame_size found, ReaderPc.declaredSize_bytes sized]
      exact within.reader declared sized
  | timeout => exact ⟨by simp [ReaderPc.start, ReaderPc.declared?], within.arrived, by simp [delivered]⟩
  | @failed outcome e here took =>
    refine ⟨by simp [ReaderPc.start, ReaderPc.declared?], within.arrived, fun whole oversized => ?_⟩
    simp only [tracked.call_bytes here] at whole oversized ⊢
    -- A whole size prefix with no body behind it is one below four.
    rcases ReaderPc.recv_failed_sized took whole with ⟨declared, sized⟩ | ⟨four, rfl⟩
    · rw [ReaderPc.declaredSize_bytes sized] at oversized
      exact absurd oversized (within.reader declared sized)
    · exact ⟨four, rfl⟩

end Reception

theorem reach_within {cfg : ConnectionConfig} {s : Reception}
    (reach : (reception cfg).Reach Reception.AnnouncesWithin s) : s.Within := by
  refine reach.invariant Reception.Within ?_ ?_
  · rintro _ rfl
    exact ⟨by simp [ReaderPc.start, ReaderPc.declared?], by simp, by simp [delivered]⟩
  · intro s o s' before within announces run
    have client := reach_client before
    exact Reception.step_within within (reach_tracked before) (reach_looping client) (reach_staged client)
      announces run

theorem reach_refuses {cfg : ConnectionConfig} {s : Reception}
    (reach : (reception cfg).Reach Reception.AnnouncesWithin s) : RefusesOversized s where
  refused whole oversized := by
    obtain ⟨four, ended⟩ := (reach_within reach).call whole oversized
    exact ⟨four, _, ended, rfl⟩
  unbuffered := (reach_within reach).reader
  undispatched frame member := (reach_within reach).arrived frame ((reach_dispatched reach).inHand frame member)
  unanswered x member index frame cause :=
    (reach_within reach).arrived frame ((reach_dispatched reach).answers x member index frame cause)
  delivered := by
    rw [(reach_tracked reach).frames, eq_comm, List.takeWhile_eq_self_iff]
    exact fun frame member => decide_eq_true ((reach_within reach).arrived frame member)

theorem oversized_body_opened {cfg : ConnectionConfig} {s s' : Reception} {outcome : RecvOutcome} {size : Nat}
    (announces : size ∈ s.reader.announced outcome) (least : 4 ≤ size)
    (run : (reception cfg).step s (.recv outcome) = some s') :
    ∃ declared ∈ s'.reader.declared?, declared.toNat = size ∧
      s'.client.negotiatedFrameMax = s.client.negotiatedFrameMax := by
  have moved : Reception.step cfg s (.recv outcome) = some s' := run
  cases Reception.step_move moved with
  | more _ took =>
    obtain ⟨reader, declared, same, sized, value⟩ := ReaderPc.recv_announced took announces least
    cases same
    exact ⟨declared, sized, value, rfl⟩
  | frame _ took | timeout _ took | failed _ took =>
    obtain ⟨_, _, same, _⟩ := ReaderPc.recv_announced took announces least
    cases same

/-- In every run in which no size beyond the limit is announced, oversized frames are refused
and the others arrive. From a state of such a run, no other step keeps that up. -/
theorem oversized_refused {cfg : ConnectionConfig} {s : Reception}
    (reach : (reception cfg).Reach Reception.AnnouncesWithin s) : RefusesOversized s ∧
      ∀ o s', (reception cfg).step s o = some s' → (RefusesOversized s' ↔ s.AnnouncesWithin o) := by
  refine ⟨reach_refuses reach, fun o s' run => ⟨fun refuses => ?_, fun announces => ?_⟩⟩
  · cases o with
    | client => trivial
    | recv outcome =>
      intro size announces least oversized
      obtain ⟨declared, sized, value, same⟩ := oversized_body_opened announces least run
      refine refuses.unbuffered declared sized ?_
      rw [Reception.Oversized, same, value]
      exact oversized
  · exact reach_refuses (reach.step announces run)

def dispatching : List Occurrence := List.replicate 5 (.client (.io .none))

/-- A server that agrees on frames of at most 64 bytes sends a heartbeat and then a size that
is too small. -/
theorem oversized_refused_small : ∃ s, (reception {}).Reach Reception.AnnouncesWithin s ∧
    s.client.negotiatedFrameMax = 64 ∧ s.arrived = [⟨Key.heartbeat, 1, [], none⟩] ∧
    s.client.ended = some (.readError, frameTooSmall) ∧ RefusesOversized s := by
  have ran : ((reception {}).exec Reception.AnnouncesWithin {} (listening ⟨64, 60⟩ ++
      [.recv (.data 0 [0, 0]), .recv (.data 4 []), .recv (.data 0 [0x17, 0, 1])] ++ dispatching ++
      List.replicate 2 (.client (.io .none)) ++ [.recv (.data 0 [0, 0, 3])])).any (fun s =>
        s.client.negotiatedFrameMax = 64 ∧ s.arrived = [⟨Key.heartbeat, 1, [], none⟩] ∧
        s.client.ended = some (.readError, frameTooSmall)) = true := by decide +kernel
  obtain ⟨s, reach, holds⟩ := Machine.reach_of_exec rfl ran
  obtain ⟨limit, arrived, ended⟩ := of_decide_eq_true holds
  exact ⟨s, reach, limit, arrived, ended, (oversized_refused reach).1⟩

/-- A frame of declared size 65 is dispatched under a limit of 64. -/
theorem oversized_frame_dispatched : ¬ ∀ (cfg : ConnectionConfig) (s : Reception),
    (reception cfg).Reach Machine.anyStep s → RefusesOversized s := by
  intro claimed
  have ran : ((reception {}).exec Machine.anyStep {} (listening ⟨64, 60⟩ ++
      [.recv (.data 0 [0, 0, 65]), .recv (.data 0 ([0x17, 0, 1] ++ List.replicate 61 0))] ++ dispatching)).any
      (fun s => s.client.io.frame.any (fun frame => s.Oversized frame.size)) = true := by decide +kernel
  obtain ⟨s, reach, holds⟩ := Machine.reach_of_exec rfl ran
  obtain ⟨frame, member, oversized⟩ := (Option.any_eq_true _ _).mp holds
  exact (claimed {} s reach).undispatched frame member (of_decide_eq_true oversized)

end RmqStream
