import RmqStream.Handshake.Protocol

/-! The frame size across the handshake, whatever the server sends and however many
rounds authentication takes: at most one tune reply, and after it only frames within
the limit it announces. -/

set_option autoImplicit false

namespace RmqStream
open Library Commands

def frameKey (frame : Bytes) : UInt16 := keyOf (frame.drop 4)

theorem frameKey_request (key version : UInt16) (cid : UInt32) (body : Bytes) :
    frameKey (encodeRequestFrame key version cid body) = key := by
  rw [frameKey, encodeRequestFrame, sizePrefixed_payload, List.append_assoc, List.append_assoc, keyOf_payload]

theorem frameKey_oneway (key version : UInt16) (body : Bytes) :
    frameKey (encodeOnewayFrame key version body) = key := by
  rw [frameKey, encodeOnewayFrame, sizePrefixed_payload, List.append_assoc, keyOf_payload]

theorem onewayFrame_tune_injective {t u : Tune} (same : onewayFrame t = onewayFrame u) : t = u := by
  have bodies : Command.encodeBody t = Command.encodeBody u := congrArg (List.drop 8) same
  have first := decodeFrom_tune t
  have second := decodeFrom_tune u
  rw [← bodies, first] at second
  exact Except.ok.inj second

/-- Zero is no limit. -/
def Within (limit : UInt32) (frame : Bytes) : Prop := limit = 0 ∨ declaredSize frame ≤ limit.toNat

def Untuned (frames : List Bytes) : Prop := ∀ frame ∈ frames, frameKey frame ≠ Key.tune

/-- Among the frames is one tune reply, with this limit, and what follows is within it. -/
def Tuned (limit : UInt32) (frames : List Bytes) : Prop :=
  ∃ (before : List Bytes) (tune : Tune) (after : List Bytes), frames = before ++ onewayFrame tune :: after ∧
    tune.frameMax = limit ∧ Untuned before ∧ Untuned after ∧ ∀ frame ∈ after, Within limit frame

/-- The check looks at the real length, which is never below the size field. -/
theorem within_of_length {limit : UInt32} {inner : Bytes}
    (fits : limit = 0 ∨ (sizePrefixed inner).length - 4 ≤ limit.toNat) : Within limit (sizePrefixed inner) := by
  refine fits.imp_right fun small => Nat.le_trans ?_ small
  rw [declaredSize_sizePrefixed]
  exact Nat.mod_le _ _

section Frames
variable {limit : UInt32} {frames : List Bytes} {frame : Bytes}

theorem Untuned.append (untuned : Untuned frames) (other : frameKey frame ≠ Key.tune) :
    Untuned (frames ++ [frame]) := by
  intro f member
  rcases List.mem_append.mp member with old | new
  · exact untuned f old
  · rw [List.mem_singleton.mp new]
    exact other

theorem Untuned.tune (untuned : Untuned frames) (tune : Tune) :
    Tuned tune.frameMax (frames ++ [onewayFrame tune]) :=
  ⟨frames, tune, [], rfl, rfl, untuned, nofun, nofun⟩

theorem Tuned.append (tuned : Tuned limit frames) (other : frameKey frame ≠ Key.tune)
    (within : Within limit frame) : Tuned limit (frames ++ [frame]) := by
  obtain ⟨before, tune, after, rfl, same, first, second, small⟩ := tuned
  refine ⟨before, tune, after ++ [frame], by simp, same, first, second.append other, ?_⟩
  intro f member
  rcases List.mem_append.mp member with old | new
  · exact small f old
  · rw [List.mem_singleton.mp new]
    exact within

theorem Tuned.within (tuned : Tuned limit frames) {before after : List Bytes} {tune : Tune}
    (here : frames = before ++ onewayFrame tune :: after) :
    tune.frameMax = limit ∧ ∀ frame ∈ after, Within limit frame := by
  obtain ⟨before', tune', after', split, same, first, second, small⟩ := tuned
  have isTune : frameKey (onewayFrame tune) = Key.tune := frameKey_oneway _ _ _
  rw [split] at here
  -- The two splits are at the same frame: neither can lie inside the other's ends.
  rcases List.append_eq_append_iff.mp here with ⟨gap, rfl, tail⟩ | ⟨gap, rfl, tail⟩
  · cases gap with
    | nil =>
      obtain ⟨frame, rfl⟩ := List.cons.inj tail
      obtain rfl := onewayFrame_tune_injective frame
      exact ⟨same, small⟩
    | cons x gap =>
      obtain ⟨_, rfl⟩ := List.cons.inj tail
      exact absurd isTune (second _ (List.mem_append_right _ List.mem_cons_self))
  · cases gap with
    | nil =>
      obtain ⟨frame, rfl⟩ := List.cons.inj tail
      obtain rfl := onewayFrame_tune_injective frame
      exact ⟨same, small⟩
    | cons x gap =>
      obtain ⟨rfl, _⟩ := List.cons.inj tail
      exact absurd isTune (first _ (List.mem_append_right _ List.mem_cons_self))

end Frames

def Sends {α : Type} (m : Handshake α) (before : List Bytes → Prop) (ok : α → List Bytes → Prop)
    (error : List Bytes → Prop) : Prop :=
  m.Ensures (fun ch => before (sentFrames ch.trace)) (fun value ch => ok value (sentFrames ch.trace))
    (fun ch => error (sentFrames ch.trace))

def Orderly (frames : List Bytes) : Prop := Untuned frames ∨ ∃ limit, Tuned limit frames

theorem Sends.bind {α β : Type} {m : Handshake α} {next : α → Handshake β} {before error : List Bytes → Prop}
    {middle : α → List Bytes → Prop} {ok : β → List Bytes → Prop} (first : Sends m before middle error)
    (second : ∀ value, Sends (next value) (middle value) ok error) : Sends (m >>= next) before ok error :=
  Fallible.Ensures.bind first second

theorem Sends.mono {α : Type} {m : Handshake α} {before error worse : List Bytes → Prop}
    {ok good : α → List Bytes → Prop} (sends : Sends m before ok error)
    (weaken : ∀ value frames, ok value frames → good value frames)
    (worsen : ∀ frames, error frames → worse frames) : Sends m before good worse :=
  Fallible.Ensures.mono sends (fun _ _ => weaken _ _) fun _ => worsen _

section Steps
variable {α : Type} [Command α] {before error : List Bytes → Prop}

theorem sends_write {frame : Bytes} {ok : List Bytes → Prop}
    (next : ∀ frames, before frames → ok (frames ++ [frame])) :
    Sends (writeFrame frame) before (fun _ => ok) error := by
  intro ch start
  show ok (sentFrames (ch.trace ++ [.sent frame]))
  rw [sentFrames_append]
  exact next _ start

theorem sends_ofExcept {β : Type} {result : Result β} {ok : β → List Bytes → Prop}
    (good : ∀ value frames, result = .ok value → before frames → ok value frames)
    (bad : ∀ frames, before frames → error frames) : Sends (Fallible.ofExcept result) before ok error := by
  intro ch start
  cases result with
  | error e => exact bad _ start
  | ok value => exact good value _ rfl start

theorem sends_nextReply (bad : ∀ frames, before frames → error frames) :
    Sends nextReply before (fun _ => before) error := by
  rintro ⟨script, trace⟩ start
  cases script with
  | nil => exact bad _ start
  | cons reply script =>
    cases reply with
    | error e =>
      show error (sentFrames (trace ++ [.received (.error e)]))
      rw [sentFrames_append, sentFrames_received, List.append_nil]
      exact bad _ start
    | ok frame =>
      show before (sentFrames (trace ++ [.received (.ok frame)]))
      rw [sentFrames_append, sentFrames_received, List.append_nil]
      exact start

theorem sends_recvResponse (cid : UInt32) (bad : ∀ frames, before frames → error frames) :
    Sends (recvResponse α cid) before (fun _ => before) error := by
  refine (sends_nextReply bad).bind fun frame => ?_
  split
  · exact .fail fun _ => bad _
  · split
    · exact .fail fun _ => bad _
    · exact sends_ofExcept (fun _ _ _ start => start) bad

theorem sends_recvOneway (bad : ∀ frames, before frames → error frames) :
    Sends (recvOneway α) before (fun _ => before) error := by
  refine (sends_nextReply bad).bind fun frame => ?_
  split
  · exact .fail fun _ => bad _
  · exact sends_ofExcept (fun _ _ _ start => start) bad

theorem sends_sendRequest {ok : List Bytes → Prop} (cmd : α) (cid limit : UInt32)
    (next : ∀ frames, before frames → limit = 0 ∨ (requestFrame cmd cid).length - 4 ≤ limit.toNat →
      ok (frames ++ [requestFrame cmd cid]))
    (bad : ∀ frames, before frames → error frames) :
    Sends (sendRequest cmd cid limit) before (fun _ => ok) error := by
  have checked : Sends
      (Fallible.ofExcept (checkOutboundFrameSize ((requestFrame cmd cid).length - 4) limit)) before
      (fun _ frames => before frames ∧ (limit = 0 ∨ (requestFrame cmd cid).length - 4 ≤ limit.toNat)) error :=
    sends_ofExcept (fun _ _ passed start => ⟨start, (checkOutboundFrameSize_ok_iff _ _).mp passed⟩) bad
  exact checked.bind fun _ => sends_write fun frames ⟨start, fits⟩ => next frames start fits

end Steps

def Bootstrap (frames : List Bytes) : Prop :=
  ∀ frame ∈ frames, frameKey frame ∈ [Key.peerProperties, Key.saslHandshake, Key.saslAuthenticate]

theorem Bootstrap.untuned {frames : List Bytes} (bootstrap : Bootstrap frames) : Untuned frames := by
  intro frame member key
  have listed := bootstrap frame member
  rw [key] at listed
  simp [Key.tune, Key.peerProperties, Key.saslHandshake, Key.saslAuthenticate] at listed

theorem sends_exchange {α γ : Type} [Command α] (β : Type) [Command β] (cmd : α) (cid : UInt32)
    (verdict : β → Result γ)
    (early : Command.kKey α ∈ [Key.peerProperties, Key.saslHandshake, Key.saslAuthenticate]) :
    Sends (do
      sendRequest cmd cid 0
      let resp ← recvResponse β cid
      Fallible.ofExcept (verdict resp)) Bootstrap (fun _ => Bootstrap) Bootstrap := by
  have request : Sends (sendRequest cmd cid 0) Bootstrap (fun _ => Bootstrap) Bootstrap := by
    refine sends_sendRequest cmd cid 0 (fun frames bootstrap _ => ?_) fun _ => id
    intro frame member
    rcases List.mem_append.mp member with old | new
    · exact bootstrap frame old
    · rw [List.mem_singleton.mp new, requestFrame, frameKey_request]
      exact early
  refine request.bind fun _ => ?_
  refine (sends_recvResponse cid fun _ => id).bind fun resp => ?_
  exact sends_ofExcept (fun _ _ _ bootstrap => bootstrap) fun _ => id

theorem sends_saslAuthenticateLoop (cfg : ConnectionConfig) (rounds : Nat) (cid : UInt32) :
    Sends (saslAuthenticateLoop cfg rounds cid) Bootstrap (fun _ => Bootstrap) Bootstrap := by
  induction rounds generalizing cid with
  | zero => exact .fail fun _ => id
  | succ rounds ih =>
    refine (sends_exchange SaslAuthenticateResponse (plainRequest cfg) cid saslAuthenticateVerdict
      (by decide)).bind fun accepted => ?_
    split
    · exact .pure fun _ => id
    · exact ih (cid + 1)

/-- The first three steps of the handshake: the server's properties, and the id that the
open request will use. -/
def authenticated (cfg : ConnectionConfig) : Handshake (List KeyValue × UInt32) := do
  let serverProperties ← peerPropertiesStep cfg 1
  saslHandshakeStep 2
  let cid ← saslAuthenticateStep cfg 3
  pure (serverProperties, cid)

theorem runHandshake_eq (cfg : ConnectionConfig) :
    runHandshake cfg = authenticated cfg >>= fun begun => tuneStep cfg >>= fun tune =>
      openStep cfg begun.2 tune.frameMax >>= fun connectionProperties =>
        pure ⟨tune.frameMax, tune.heartbeat, begun.1, connectionProperties⟩ := by
  simp only [authenticated, Fallible.bind_assoc]
  rfl

theorem sends_authenticated (cfg : ConnectionConfig) :
    Sends (authenticated cfg) Bootstrap (fun _ => Bootstrap) Bootstrap := by
  refine (sends_exchange PeerPropertiesResponse (peerProperties cfg) 1 peerPropertiesVerdict
    (by decide)).bind fun serverProperties => ?_
  refine (sends_exchange SaslHandshakeResponse (⟨⟩ : SaslHandshakeRequest) 2 saslHandshakeVerdict
    (by decide)).bind fun _ => ?_
  have authenticate : Sends (saslAuthenticateStep cfg 3) Bootstrap (fun _ => Bootstrap) Bootstrap :=
    fun ch start => sends_saslAuthenticateLoop cfg (ch.script.length + 1) 3 ch start
  exact authenticate.bind fun cid => .pure fun _ => id

/-- The tune reply goes out unchecked. -/
theorem sends_tuneStep (cfg : ConnectionConfig) :
    Sends (tuneStep cfg) Untuned (fun tune => Tuned tune.frameMax) Orderly := by
  refine (sends_recvOneway fun _ => .inl).bind fun tune => ?_
  have reply : Sends (sendOneway (negotiate cfg tune) 0) Untuned
      (fun _ => Tuned (negotiate cfg tune).frameMax) Orderly :=
    (sends_ofExcept (fun _ _ _ untuned => untuned) fun _ => .inl).bind fun _ =>
      sends_write fun frames untuned => untuned.tune _
  exact reply.bind fun _ => .pure fun _ => id

def OpenWithin (cfg : ConnectionConfig) (limit : UInt32) : Prop :=
  limit = 0 ∨ (requestFrame (⟨cfg.virtualHost⟩ : OpenRequest) 0).length - 4 ≤ limit.toNat

theorem requestFrame_length {α : Type} [Command α] (cmd : α) (cid : UInt32) :
    (requestFrame cmd cid).length = 12 + (Command.encodeBody cmd).length := by
  simp only [requestFrame, encodeRequestFrame, sizePrefixed, List.length_append, writeU32, writeU16,
    List.length_cons, List.length_nil]
  omega

/-- A limit that lets the open request through leaves room for the smallest frame. -/
theorem OpenWithin.least {cfg : ConnectionConfig} {limit : UInt32} (within : OpenWithin cfg limit) :
    limit = 0 ∨ 4 ≤ limit.toNat := by
  refine within.imp_right fun small => Nat.le_trans ?_ small
  rw [requestFrame_length]
  omega

theorem sends_openStep (cfg : ConnectionConfig) (cid limit : UInt32) :
    Sends (openStep cfg cid limit) (Tuned limit)
      (fun _ frames => Tuned limit frames ∧ OpenWithin cfg limit) Orderly := by
  have request : Sends (sendRequest (⟨cfg.virtualHost⟩ : OpenRequest) cid limit) (Tuned limit)
      (fun _ frames => Tuned limit frames ∧ OpenWithin cfg limit) Orderly := by
    refine sends_sendRequest _ cid limit (fun frames tuned fits => ⟨?_, ?_⟩) fun _ tuned => .inr ⟨limit, tuned⟩
    · refine tuned.append ?_ (within_of_length fits)
      rw [requestFrame, frameKey_request]
      decide
    · rw [requestFrame_length] at fits
      rwa [OpenWithin, requestFrame_length]
  refine request.bind fun _ => ?_
  refine (sends_recvResponse cid fun _ kept => .inr ⟨limit, kept.1⟩).bind fun resp => ?_
  exact sends_ofExcept (fun _ _ _ kept => kept) fun _ kept => .inr ⟨limit, kept.1⟩

theorem sends_runHandshake (cfg : ConnectionConfig) :
    Sends (runHandshake cfg) Bootstrap (fun result frames => Tuned result.negotiatedFrameMax frames ∧
      OpenWithin cfg result.negotiatedFrameMax) Orderly := by
  rw [runHandshake_eq]
  have begun : Sends (authenticated cfg) Bootstrap (fun _ => Untuned) Orderly :=
    (sends_authenticated cfg).mono (fun _ _ => Bootstrap.untuned) fun _ bootstrap => .inl bootstrap.untuned
  refine begun.bind fun begun => ?_
  refine (sends_tuneStep cfg).bind fun tune => ?_
  refine (sends_openStep cfg begun.2 tune.frameMax).bind fun connectionProperties => ?_
  exact .pure fun _ => id

theorem runHandshake_tuned {cfg : ConnectionConfig} {script : List Reply} {result : HandshakeResult} {ch : Channel}
    (run : (runHandshake cfg).run ⟨script, []⟩ = (.ok result, ch)) :
    Tuned result.negotiatedFrameMax (sentFrames ch.trace) ∧ OpenWithin cfg result.negotiatedFrameMax := by
  have done := sends_runHandshake cfg ⟨script, []⟩ nofun
  rw [run] at done
  exact done

theorem runHandshake_orderly {cfg : ConnectionConfig} {script : List Reply} {e : StreamError} {ch : Channel}
    (run : (runHandshake cfg).run ⟨script, []⟩ = (.error e, ch)) : Orderly (sentFrames ch.trace) := by
  have done := sends_runHandshake cfg ⟨script, []⟩ nofun
  rw [run] at done
  exact done

end RmqStream
