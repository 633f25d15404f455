import RmqStream.Client.Requests
import RmqStream.Client.Pending
import RmqStream.Framing

/-! What a peer makes of the frames that the client hands to the socket, one after the other.

Each of them is a request frame: a size prefix, a key with the response bit clear, and a
payload. As long as the size fits its field a parser of the stream gets back that key and
payload and stands at the next frame. The frames of the handshake come first. -/

set_option autoImplicit false

namespace RmqStream
open Library Commands

/-- A frame of the client. The correlation id of a request is the beginning of the payload. -/
def Framed (frame : Bytes) : Prop :=
  ∃ key version payload, Key.isResponse key = false ∧ frame = encodeOnewayFrame key version payload

/-- The size field counts what follows it. -/
def SizeFits (frame : Bytes) : Prop := frame.length < 2 ^ 32 + 4

instance (frame : Bytes) : Decidable (SizeFits frame) := inferInstanceAs (Decidable (_ < _))

def parsed (frame : Bytes) : Option IncomingFrame := payloadFrame (frame.drop 4)

theorem framed_request {key : UInt16} (version : UInt16) (cid : UInt32) (body : Bytes)
    (request : Key.isResponse key = false) : Framed (encodeRequestFrame key version cid body) := by
  refine ⟨key, version, writeU32 cid ++ body, request, ?_⟩
  rw [encodeRequestFrame, encodeOnewayFrame, ← List.append_assoc]

theorem framed_oneway {key : UInt16} (version : UInt16) (body : Bytes) (request : Key.isResponse key = false) :
    Framed (encodeOnewayFrame key version body) := ⟨key, version, body, request, rfl⟩

theorem Framed.payload {frame : Bytes} (framed : Framed frame) : ∃ inner found,
    frame = sizePrefixed inner ∧ frame.length = 4 + inner.length ∧ 4 ≤ inner.length ∧
      payloadFrame inner = some found := by
  obtain ⟨key, version, payload, request, rfl⟩ := framed
  have length := encodeOnewayFrame_length key version payload
  refine ⟨writeU16 key ++ writeU16 version ++ payload, _, rfl, ?_, ?_, payloadFrame_request request⟩ <;>
    simp only [length, List.length_append, writeU16, List.length_cons, List.length_nil] <;> omega

theorem parsed_sizePrefixed (inner : Bytes) : parsed (sizePrefixed inner) = payloadFrame inner := by
  rw [parsed, sizePrefixed_payload]

theorem Framed.nextFrame {frame : Bytes} (framed : Framed frame) (fits : SizeFits frame) (tail : Bytes) :
    ∃ found, parsed frame = some found ∧ nextFrame (frame ++ tail) = some (found, tail) := by
  obtain ⟨inner, found, rfl, length, least, parses⟩ := framed.payload
  have size : declaredSize (sizePrefixed inner) = inner.length := by
    rw [declaredSize_sizePrefixed, Nat.mod_eq_of_lt]
    unfold SizeFits at fits
    omega
  have complete : Whole (sizePrefixed inner) := ⟨by omega, by rw [length, size]⟩
  obtain ⟨declared, body⟩ := whole_at complete tail
  refine ⟨found, (parsed_sizePrefixed inner).trans parses, ?_⟩
  rw [RmqStream.nextFrame, declared, body, size, sizePrefixed_payload, parses, if_neg, ← length, List.drop_left]
  · rfl
  · rw [List.length_append, length]
    omega

/-- A parser does not find a frame in less than the whole of it. -/
theorem Framed.nextFrame_cut {frame : Bytes} (framed : Framed frame) (fits : SizeFits frame) {n : Nat}
    (short : n < frame.length) : RmqStream.nextFrame (frame.take n) = none := by
  obtain ⟨inner, found, same, length, _⟩ := framed.payload
  unfold RmqStream.nextFrame
  rw [if_pos]
  by_cases header : n < 4
  · exact .inl (by rw [List.length_take]; omega)
  · have size : declaredSize (frame.take n) = inner.length := by
      rw [declaredSize, take_take_short _ (by omega), ← declaredSize, same, declaredSize_sizePrefixed,
        Nat.mod_eq_of_lt]
      unfold SizeFits at fits
      omega
    rw [size, List.length_take]
    omega

theorem frames_flatten {whole : List Bytes} {rest : Bytes} (framed : ∀ frame ∈ whole, Framed frame)
    (fits : ∀ frame ∈ whole, SizeFits frame) :
    frames (whole.flatten ++ rest) = whole.filterMap parsed ++ frames rest := by
  induction whole with
  | nil => rfl
  | cons frame whole ih =>
    rw [List.forall_mem_cons] at framed fits
    obtain ⟨found, parses, next⟩ := framed.1.nextFrame fits.1 (whole.flatten ++ rest)
    rw [List.flatten_cons, List.append_assoc, frames_some next, ih framed.2 fits.2,
      List.filterMap_cons_some parses, List.cons_append]

def AllFramed (frames : List Bytes) : Prop := ∀ frame ∈ frames, Framed frame

theorem AllFramed.append {frames : List Bytes} {frame : Bytes} (all : AllFramed frames) (framed : Framed frame) :
    AllFramed (frames ++ [frame]) := by
  intro other member
  rcases List.mem_append.mp member with old | new
  · exact all other old
  · rwa [List.mem_singleton.mp new]

abbrev SendsFramed {α : Type} (m : Handshake α) : Prop := Sends m AllFramed (fun _ => AllFramed) AllFramed

theorem framed_exchange {α γ : Type} [Command α] (β : Type) [Command β] (cmd : α) (cid limit : UInt32)
    (verdict : β → Result γ) (request : Key.isResponse (Command.kKey α) = false) :
    SendsFramed (do
      sendRequest cmd cid limit
      let resp ← recvResponse β cid
      Fallible.ofExcept (verdict resp)) := by
  have sends : SendsFramed (sendRequest cmd cid limit) :=
    sends_sendRequest cmd cid limit (fun _ all _ => all.append (framed_request _ _ _ request)) fun _ => id
  refine sends.bind fun _ => ?_
  refine (sends_recvResponse cid fun _ => id).bind fun resp => ?_
  exact sends_ofExcept (fun _ _ _ all => all) fun _ => id

theorem framed_saslAuthenticateLoop (cfg : ConnectionConfig) (rounds : Nat) (cid : UInt32) :
    SendsFramed (saslAuthenticateLoop cfg rounds cid) := by
  induction rounds generalizing cid with
  | zero => exact .fail fun _ => id
  | succ rounds ih =>
    refine (framed_exchange SaslAuthenticateResponse (plainRequest cfg) cid 0 saslAuthenticateVerdict
      (by decide)).bind fun accepted => ?_
    split
    · exact .pure fun _ => id
    · exact ih (cid + 1)

theorem framed_tuneStep (cfg : ConnectionConfig) : SendsFramed (tuneStep cfg) := by
  refine (sends_recvOneway fun _ => id).bind fun tune => ?_
  have reply : SendsFramed (sendOneway (negotiate cfg tune) 0) :=
    (sends_ofExcept (fun _ _ _ all => all) fun _ => id).bind fun _ =>
      sends_write fun _ all => all.append (framed_oneway _ _ (by decide))
  exact reply.bind fun _ => .pure fun _ => id

theorem framed_runHandshake (cfg : ConnectionConfig) : SendsFramed (runHandshake cfg) := by
  refine (framed_exchange PeerPropertiesResponse (peerProperties cfg) 1 0 peerPropertiesVerdict
    (by decide)).bind fun serverProperties => ?_
  refine (framed_exchange SaslHandshakeResponse (⟨⟩ : SaslHandshakeRequest) 2 0 saslHandshakeVerdict
    (by decide)).bind fun _ => ?_
  have authenticate : SendsFramed (saslAuthenticateStep cfg 3) :=
    fun ch start => framed_saslAuthenticateLoop cfg (ch.script.length + 1) 3 ch start
  refine authenticate.bind fun cid => ?_
  refine (framed_tuneStep cfg).bind fun tune => ?_
  refine (framed_exchange OpenResponse (⟨cfg.virtualHost⟩ : OpenRequest) cid tune.frameMax (openVerdict cfg)
    (by decide)).bind fun connectionProperties => ?_
  exact .pure fun _ => id

theorem runHandshake_framed (cfg : ConnectionConfig) (script : List Reply) :
    AllFramed (sentFrames ((runHandshake cfg).run ⟨script, []⟩).2.trace) := by
  have done := framed_runHandshake cfg ⟨script, []⟩ fun _ member => absurd member List.not_mem_nil
  rcases outcome : (runHandshake cfg).run ⟨script, []⟩ with ⟨e | result, ch⟩ <;> rw [outcome] at done <;> exact done

/-! ## The frames of the client -/

theorem framed_op (op : Op) (cid : UInt32) : Framed (op.frame cid) := by
  unfold Op.frame
  split
  · exact framed_oneway _ _ op.request_key
  · exact framed_request _ _ _ op.request_key

theorem framed_close (cid : UInt32) : Framed (closeFrame cid) := framed_request _ _ _ (by decide)

theorem framed_heartbeat : Framed heartbeatFrame := framed_oneway _ _ (by decide)

namespace Client

def unsent (s : Client) : Prop :=
  s.state = .disconnected ∨ s.control = .connectTcp ∨ s.control = .connectHandshake

/-- The entries of the handshake, and those of all others. -/
def greeting (s : Client) : List WireEntry := s.wire.filter fun w => w.source = .handshake
def handed (s : Client) : List WireEntry := s.wire.filter fun w => w.source ≠ .handshake

/-- Everything on the wire is a request frame, and the handshake had it to itself before. -/
structure WellFormed (s : Client) : Prop where
  framed : ∀ w ∈ s.wire, Framed w.frame
  silent : s.unsent → s.wire = []
  ordered : s.wire = s.greeting ++ s.handed

variable {cfg : ConnectionConfig} {s s' : Client}

theorem handed_grow {w : WireEntry} (late : w.source ≠ .handshake) (grown : s'.wire = s.wire ++ [w]) :
    s'.greeting = s.greeting ∧ s'.handed = s.handed ++ [w] := by
  simp [greeting, handed, grown, late]

theorem greeting_grow {more : List WireEntry} (early : ∀ w ∈ more, w.source = .handshake)
    (grown : s'.wire = s.wire ++ more) : s'.greeting = s.greeting ++ more ∧ s'.handed = s.handed := by
  have all : more.filter (fun w => w.source = .handshake) = more :=
    List.filter_eq_self.mpr fun w member => decide_eq_true (early w member)
  have none : more.filter (fun w => w.source ≠ .handshake) = [] :=
    List.filter_eq_nil_iff.mpr fun w member => by simp [early w member]
  unfold greeting handed
  rw [grown, List.filter_append, List.filter_append, all, none, List.append_nil]
  exact ⟨rfl, rfl⟩

theorem handover_framed {a : Action} {more : List WireEntry} (handover : Handover cfg s a more) :
    ∀ w ∈ more, Framed w.frame := by
  intro w member
  cases handover with
  | nothing => cases member
  | @handshake replies here =>
    have sent : w.frame ∈ List.map WireEntry.frame _ := List.mem_map_of_mem member
    rw [handshake_frames] at sent
    exact runHandshake_framed cfg replies _ sent
  | call here =>
    rw [List.mem_singleton.mp member]
    exact framed_op _ _
  | close here =>
    rw [List.mem_singleton.mp member]
    exact framed_close _
  | heartbeat here =>
    rw [List.mem_singleton.mp member]
    exact framed_heartbeat

theorem unsent_early (staged : s.control.Staged s) (unsent : s.unsent) :
    s.state.rank < 2 ∧ s.heartbeat = .notStarted := by
  rcases unsent with first | here | here
  · cases at_ : s.control <;> simp_all [ControlPc.Staged, ConnectionState.rank]
  · rw [here] at staged
    simp [staged.1, staged.2.2, ConnectionState.rank]
  · rw [here] at staged
    simp [staged.1, staged.2.2, ConnectionState.rank]

theorem step_unsent {a : Action} (staged : s.control.Staged s) (run : step cfg s a = some s') (unsent : s'.unsent) :
    s.unsent ∧ ∀ replies, a ≠ .control (.script replies) := by
  have kept : s'.control = s.control → s.unsent := by
    intro same
    rcases unsent with first | here
    · rcases step_state staged run with still | edge
      · exact .inl (still.symm.trans first)
      · have less := ConnectionState.rank_lt_of_next edge
        rw [first] at less
        exact absurd less (Nat.not_lt_zero _)
    · rw [same] at here
      exact .inr here
  have begun : s'.control ≠ .connectTcp → s'.control ≠ .connectHandshake → s'.state = s.state → s.unsent :=
    fun noTcp noHandshake same => .inl (same ▸ unsent.resolve_right fun here => here.elim noTcp noHandshake)
  cases a with
  | tick | onUnexpectedClose =>
    cases run
    exact ⟨kept rfl, by simp⟩
  | invoke n op =>
    obtain ⟨_, rfl⟩ := step_invoke run
    exact ⟨kept rfl, by simp⟩
  | connect =>
    obtain ⟨_, ⟨e, rfl⟩ | rfl⟩ := step_connect run <;>
      exact ⟨begun (by simp [finish]) (by simp [finish]) rfl, by simp⟩
  | close n =>
    obtain ⟨_, _, rfl⟩ := step_close run
    exact ⟨begun (by simp) (by simp) rfl, by simp⟩
  | destroy =>
    obtain ⟨_, rfl⟩ := step_destroy run
    exact ⟨begun (by simp) (by simp) rfl, by simp⟩
  | call n input =>
    obtain ⟨_, _, _, _, rfl⟩ := callStep_writes run
    exact ⟨kept rfl, by simp⟩
  | io input =>
    obtain ⟨_, _, _, _, _, _, _, _, _, rfl⟩ := ioStep_writes run
    exact ⟨kept rfl, by simp⟩
  | heartbeat input =>
    obtain ⟨_, _, _, rfl⟩ := heartbeatStep_writes run
    exact ⟨kept rfl, by simp⟩
  | control input =>
    cases controlStep_move run with
    | connectLock here state => exact ⟨.inl state, by simp⟩
    | tcp here => exact ⟨.inr (.inl here), by simp⟩
    | @handshake replies here =>
      rw [here] at staged
      rcases handshakeStep_control cfg s replies with opened | ⟨e, failed⟩ <;>
        simp_all [Client.unsent, ControlPc.Staged]
    | _ => simp_all [Client.unsent, ControlPc.Staged, finish, write]

theorem handover_unsent {a : Action} {more : List WireEntry} (untouched : s.Untouched) (staged : s.control.Staged s)
    (unsent : s.unsent) (handover : Handover cfg s a more) : more = [] ∨ ∃ replies, a = .control (.script replies) := by
  obtain ⟨early, heartbeat⟩ := unsent_early staged unsent
  cases handover with
  | nothing => exact .inl rfl
  | handshake here => exact .inr ⟨_, rfl⟩
  | @call n op cid _ here =>
    have outside := (untouched early).2 n
    rw [here] at outside
    exact outside.elim
  | close here =>
    rw [here] at staged
    simp [staged.1, ConnectionState.rank] at early
  | heartbeat here =>
    rw [here] at heartbeat
    cases heartbeat

theorem step_wellFormed {a : Action} (formed : s.WellFormed) (untouched : s.Untouched) (staged : s.control.Staged s)
    (run : step cfg s a = some s') : s'.WellFormed := by
  obtain ⟨framed, silent, ordered⟩ := formed
  obtain ⟨more, handover, grown⟩ := step_handover run
  constructor
  · intro w member
    rw [grown] at member
    exact (List.mem_append.mp member).elim (framed w) (handover_framed handover w)
  · intro unsent
    obtain ⟨before, other⟩ := step_unsent staged run unsent
    rw [grown, silent before, List.nil_append]
    exact (handover_unsent untouched staged before handover).resolve_right fun ⟨replies, same⟩ => other replies same
  · -- What the handshake writes comes first because nothing is there yet.
    have late : ∀ w : WireEntry, w.source ≠ .handshake → s'.wire = s.wire ++ [w] →
        s'.wire = s'.greeting ++ s'.handed := by
      intro w late grown
      obtain ⟨greeting, handed⟩ := handed_grow late grown
      rw [grown, greeting, handed, ← List.append_assoc, ← ordered]
    cases handover with
    | nothing =>
      rw [List.append_nil] at grown
      rwa [greeting, handed, grown]
    | handshake here =>
      obtain ⟨greeting, handed⟩ := greeting_grow (fun w member => (handshake_entry member).1) grown
      have nothing := silent (.inr (.inr here))
      rw [grown, greeting, handed, Client.greeting, Client.handed, nothing]
      simp
    | call | close | heartbeat => exact late _ (by simp) grown

end Client

theorem reach_wellFormed {cfg : ConnectionConfig} {allowed : Client → Action → Prop} {s : Client}
    (reach : (client cfg).Reach allowed s) : s.WellFormed := by
  refine reach.invariant Client.WellFormed ?_ ?_
  · rintro _ rfl
    exact ⟨by simp, fun _ => rfl, rfl⟩
  · intro s a s' before formed _ run
    exact Client.step_wellFormed formed (reach_kept before).untouched (reach_staged before) run

end RmqStream
