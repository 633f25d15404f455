import RmqStream.Handshake.Limits

/-! The tune negotiation: what the two proposals are meant to give, and what the
handshake makes of them.

`lowerFrameMax` and `lowerHeartbeat` state the purpose. A client that asks for heartbeat
zero gets the server's interval instead; everything else is as meant. -/

set_option autoImplicit false

namespace RmqStream
open Library Commands

/-- The lower limit, where zero on either side is no limit. -/
def lowerFrameMax (server client : UInt32) : UInt32 :=
  if server = 0 then client else if client = 0 then server else min server client

/-- The lower interval, where zero on either side switches heartbeats off. -/
def lowerHeartbeat (server client : UInt32) : UInt32 :=
  if server = 0 ∨ client = 0 then 0 else min server client

def agreed (cfg : ConnectionConfig) (proposal : Tune) : Tune where
  frameMax := lowerFrameMax proposal.frameMax cfg.requestedFrameMaxBytes
  heartbeat := lowerHeartbeat proposal.heartbeat cfg.requestedHeartbeatSeconds

theorem negotiate_frameMax (cfg : ConnectionConfig) (proposal : Tune) :
    (negotiate cfg proposal).frameMax = (agreed cfg proposal).frameMax := by
  simp only [negotiate, agreed, lowerFrameMax]
  split_ifs <;> simp_all

theorem negotiate_heartbeat_iff (cfg : ConnectionConfig) (proposal : Tune) :
    (negotiate cfg proposal).heartbeat = (agreed cfg proposal).heartbeat ↔
      cfg.requestedHeartbeatSeconds ≠ 0 ∨ proposal.heartbeat = 0 := by
  simp only [negotiate, agreed, lowerHeartbeat]
  by_cases asked : cfg.requestedHeartbeatSeconds = 0
  · simp [asked]
  · by_cases offered : proposal.heartbeat = 0
    · have least : min 0 cfg.requestedHeartbeatSeconds = 0 := if_pos UInt32.zero_le
      simp [offered, least]
    · simp [asked, offered]

theorem negotiate_eq_agreed_iff (cfg : ConnectionConfig) (proposal : Tune) :
    negotiate cfg proposal = agreed cfg proposal ↔
      cfg.requestedHeartbeatSeconds ≠ 0 ∨ proposal.heartbeat = 0 := by
  rw [← negotiate_heartbeat_iff]
  constructor
  · intro same
    rw [same]
  · intro same
    exact congrArg₂ Tune.mk (negotiate_frameMax cfg proposal) same

/-! ## What the handshake makes of it -/

/-- On this script the handshake passes authentication and then reads this proposal. -/
def ServerProposes (cfg : ConnectionConfig) (script : List Reply) (proposal : Tune) : Prop :=
  ∃ begun middle after, (authenticated cfg).run ⟨script, []⟩ = (.ok begun, middle) ∧
    (recvOneway Tune).run middle = (.ok proposal, after)

/-- The reply, the result and the limit of the open request are these values. -/
structure Negotiates (cfg : ConnectionConfig) (outcome : Result HandshakeResult × Channel) (values : Tune) :
    Prop where
  reply : (sentFrames outcome.2.trace).filter (fun frame => frameKey frame == Key.tune) = [onewayFrame values]
  stored : ∀ result, outcome.1 = .ok result →
    result.negotiatedFrameMax = values.frameMax ∧ result.negotiatedHeartbeat = values.heartbeat
  limit : (∃ frame ∈ sentFrames outcome.2.trace, frameKey frame = Key.open) ↔ OpenWithin cfg values.frameMax

instance (cfg : ConnectionConfig) (limit : UInt32) : Decidable (OpenWithin cfg limit) :=
  inferInstanceAs (Decidable (_ ∨ _))

theorem openWithin_iff (cfg : ConnectionConfig) (cid limit : UInt32) : OpenWithin cfg limit ↔
    limit = 0 ∨ (requestFrame (⟨cfg.virtualHost⟩ : OpenRequest) cid).length - 4 ≤ limit.toNat := by
  rw [OpenWithin, requestFrame_length, requestFrame_length]

theorem Sends.unchanged {α : Type} {m : Handshake α} {frames : List Bytes}
    (reads : Sends m (· = frames) (fun _ => (· = frames)) (· = frames)) (ch : Channel)
    (start : sentFrames ch.trace = frames) : sentFrames (m.run ch).2.trace = frames := by
  have done := reads ch start
  rcases run : m.run ch with ⟨e | value, after⟩ <;> rw [run] at done <;> exact done

theorem openStep_frames (cfg : ConnectionConfig) (cid limit : UInt32) (ch : Channel) :
    sentFrames ((openStep cfg cid limit).run ch).2.trace = sentFrames ch.trace ++
      if OpenWithin cfg limit then [requestFrame (⟨cfg.virtualHost⟩ : OpenRequest) cid] else [] := by
  unfold openStep
  by_cases within : OpenWithin cfg limit
  · rw [if_pos within, Fallible.bind_ok (sendRequest_fits _ _ _ ch ((openWithin_iff cfg cid limit).mp within))]
    apply Sends.unchanged
    · exact (sends_recvResponse cid fun _ => id).bind fun resp => sends_ofExcept (fun _ _ _ => id) fun _ => id
    · rw [sentFrames_append, sentFrames_sent]
  · obtain ⟨e, large⟩ := sendRequest_large (⟨cfg.virtualHost⟩ : OpenRequest) cid limit ch
      (fun fits => within ((openWithin_iff cfg cid limit).mpr fits))
    rw [if_neg within, Fallible.bind_error large, List.append_nil]

section Frames
variable {frames sent : List Bytes} {reply request : Bytes} {within : Prop} [Decidable within]

theorem filter_tune (early : Bootstrap frames) (isTune : frameKey reply = Key.tune)
    (isOpen : frameKey request = Key.open) (here : sent = frames ++ [reply] ++ if within then [request] else []) :
    sent.filter (fun frame => frameKey frame == Key.tune) = [reply] := by
  have none_before : frames.filter (fun frame => frameKey frame == Key.tune) = [] := by
    rw [List.filter_eq_nil_iff]
    intro frame member
    simpa using early.untuned frame member
  have none_after : (if within then [request] else []).filter (fun frame => frameKey frame == Key.tune) = [] := by
    split
    · rw [List.filter_singleton, isOpen]
      rfl
    · rfl
  rw [here, List.filter_append, List.filter_append, none_before, none_after, List.filter_singleton, isTune]
  rfl

theorem open_iff (early : Bootstrap frames) (isTune : frameKey reply = Key.tune)
    (isOpen : frameKey request = Key.open) (here : sent = frames ++ [reply] ++ if within then [request] else []) :
    (∃ frame ∈ sent, frameKey frame = Key.open) ↔ within := by
  constructor
  · rintro ⟨frame, member, key⟩
    rw [here] at member
    simp only [List.mem_append, List.mem_singleton] at member
    rcases member with (before | rfl) | after
    · have listed := early frame before
      rw [key] at listed
      simp [Key.open, Key.peerProperties, Key.saslHandshake, Key.saslAuthenticate] at listed
    · rw [isTune] at key
      simp [Key.tune, Key.open] at key
    · by_contra outside
      simp [outside] at after
  · intro inside
    refine ⟨request, ?_, isOpen⟩
    rw [here, if_pos inside]
    exact List.mem_append_right _ (List.mem_singleton_self _)

end Frames

theorem runHandshake_negotiates {cfg : ConnectionConfig} {script : List Reply} {proposal : Tune}
    (proposes : ServerProposes cfg script proposal) :
    Negotiates cfg ((runHandshake cfg).run ⟨script, []⟩) (negotiate cfg proposal) := by
  obtain ⟨begun, middle, after, first, second⟩ := proposes
  -- Nothing sent before the proposal is a Tune or an Open.
  have early : Bootstrap (sentFrames middle.trace) := by
    have done := sends_authenticated cfg ⟨script, []⟩ (by simp [Bootstrap, sentFrames])
    rw [first] at done
    exact done
  have read : sentFrames after.trace = sentFrames middle.trace := by
    have done := Sends.unchanged (sends_recvOneway (α := Tune) fun _ => id) middle rfl
    rw [second] at done
    exact done
  have replied : (tuneStep cfg).run middle = (.ok (negotiate cfg proposal),
      ⟨after.script, after.trace ++ [.sent (onewayFrame (negotiate cfg proposal))]⟩) := by
    rw [tuneStep, Fallible.bind_ok second]
    rfl
  have frames := openStep_frames cfg begun.2 (negotiate cfg proposal).frameMax
    ⟨after.script, after.trace ++ [.sent (onewayFrame (negotiate cfg proposal))]⟩
  rw [sentFrames_append, sentFrames_sent, read] at frames
  have isTune : frameKey (onewayFrame (negotiate cfg proposal)) = Key.tune := frameKey_oneway _ _ _
  have isOpen : frameKey (requestFrame (⟨cfg.virtualHost⟩ : OpenRequest) begun.2) = Key.open :=
    frameKey_request _ _ _ _
  rw [runHandshake_eq, Fallible.bind_ok first, Fallible.bind_ok replied]
  rcases opened : (openStep cfg begun.2 (negotiate cfg proposal).frameMax).run
    ⟨after.script, after.trace ++ [.sent (onewayFrame (negotiate cfg proposal))]⟩ with ⟨e | properties, final⟩
  · rw [opened] at frames
    rw [Fallible.bind_error opened]
    exact ⟨filter_tune early isTune isOpen frames, by simp, open_iff early isTune isOpen frames⟩
  · rw [opened] at frames
    rw [Fallible.bind_ok opened]
    refine ⟨filter_tune early isTune isOpen frames, ?_, open_iff early isTune isOpen frames⟩
    intro result ok
    cases ok
    exact ⟨rfl, rfl⟩

theorem recvOneway_tune {ch : Channel} {frame : IncomingFrame} {rest : List Reply} {proposal : Tune}
    (script : ch.script = .ok frame :: rest) (key : frame.key = Command.kKey Tune)
    (decoded : decodeFrom Command.decodeBody frame.body = .ok proposal) :
    (recvOneway Tune).run ch = (.ok proposal, ⟨rest, ch.trace ++ [.received (.ok frame)]⟩) := by
  have read : nextReply.run ch = (.ok frame, ⟨rest, ch.trace ++ [.received (.ok frame)]⟩) := by
    simp only [nextReply, script]
  rw [recvOneway, Fallible.bind_ok read, if_neg (not_not.mpr key), decoded]
  rfl

theorem acceptingScript_proposes (cfg : ConnectionConfig) (proposal : Tune) :
    ServerProposes cfg (acceptingScript proposal) proposal :=
  ⟨_, _, _, rfl, recvOneway_tune rfl rfl (decodeFrom_tune proposal)⟩

end RmqStream
