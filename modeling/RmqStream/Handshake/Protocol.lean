import RmqStream.Handshake.Run

/-! The connection bootstrap as a protocol, and `run_handshake` against it.

`Expected` is the server's side: what the reply at each position of the script has
to be. `clientSequence` is the client's side. The client sends the first frames of
its sequence, each only once the replies before it were the expected ones, and the
handshake succeeds on exactly the scripts that are expected to the end, provided
the open request fits the frame size just negotiated. -/

set_option autoImplicit false

namespace RmqStream
open Library Commands

def sentFrames (trace : List Event) : List Bytes := trace.filterMap fun
  | .sent frame => some frame
  | .received _ => none

def receivedReplies (trace : List Event) : List Reply := trace.filterMap fun
  | .sent _ => none
  | .received reply => some reply

@[simp] theorem sentFrames_append (front back : List Event) :
    sentFrames (front ++ back) = sentFrames front ++ sentFrames back := List.filterMap_append

@[simp] theorem receivedReplies_append (front back : List Event) :
    receivedReplies (front ++ back) = receivedReplies front ++ receivedReplies back := List.filterMap_append

@[simp] theorem sentFrames_sent (frame : Bytes) : sentFrames [.sent frame] = [frame] := rfl
@[simp] theorem sentFrames_received (reply : Reply) : sentFrames [.received reply] = [] := rfl
@[simp] theorem receivedReplies_sent (frame : Bytes) : receivedReplies [.sent frame] = [] := rfl
@[simp] theorem receivedReplies_received (reply : Reply) : receivedReplies [.received reply] = [reply] := rfl

def cidAt (n : Nat) : UInt32 := UInt32.ofNat n

def Answers {α : Type} [Command α] (cid : UInt32) (reply : Reply) (value : α) : Prop :=
  ∃ frame, reply = .ok frame ∧ frame.key = Command.kKey α ∧ frame.correlationId = some cid ∧
    decodeFrom Command.decodeBody frame.body = .ok value

def Announces (reply : Reply) (tune : Tune) : Prop :=
  ∃ frame, reply = .ok frame ∧ frame.key = Key.tune ∧ decodeFrom Command.decodeBody frame.body = .ok tune

def Identifies (reply : Reply) : Prop :=
  ∃ v : PeerPropertiesResponse, Answers 1 reply v ∧ v.responseCode = ResponseCode.ok

def OffersPlain (reply : Reply) : Prop :=
  ∃ v : SaslHandshakeResponse, Answers 2 reply v ∧ v.responseCode = ResponseCode.ok ∧
    text "PLAIN" ∈ v.mechanisms

def Authenticates (cid : UInt32) (code : UInt16) (reply : Reply) : Prop :=
  ∃ v : SaslAuthenticateResponse, Answers cid reply v ∧ v.responseCode = code

def Opens (cid : UInt32) (reply : Reply) : Prop :=
  ∃ v : OpenResponse, Answers cid reply v ∧ v.responseCode = ResponseCode.ok

/-- What the reply at a position of the script has to be, for a server that accepts
the credentials in the given round and announces `tune`. -/
def Expected (rounds : Nat) (tune : Tune) : Nat → Reply → Prop
  | 0, reply => Identifies reply
  | 1, reply => OffersPlain reply
  | i + 2, reply =>
    if i + 1 < rounds then Authenticates (cidAt (3 + i)) ResponseCode.saslChallenge reply
    else if i + 1 = rounds then Authenticates (cidAt (3 + i)) ResponseCode.ok reply
    else if i = rounds then Announces reply tune
    else i = rounds + 1 ∧ Opens (cidAt (3 + rounds)) reply

structure ServerScript (rounds : Nat) (tune : Tune) (script : List Reply) : Prop where
  positive : 1 ≤ rounds
  length : rounds + 4 ≤ script.length
  expected : ∀ i < rounds + 4, ∀ reply, script[i]? = some reply → Expected rounds tune i reply

def clientSequence (cfg : ConnectionConfig) (rounds : Nat) (tune : Tune) : List Bytes :=
  [requestFrame (peerProperties cfg) 1, requestFrame (⟨⟩ : SaslHandshakeRequest) 2] ++
    (List.range rounds).map (fun i => requestFrame (plainRequest cfg) (cidAt (3 + i))) ++
    [onewayFrame (negotiate cfg tune),
      requestFrame (⟨cfg.virtualHost⟩ : OpenRequest) (cidAt (3 + rounds))]

/-- How many replies are known when the frame at a position is sent: one for every
earlier request, and the server's own tune frame. -/
def repliesBefore (rounds position : Nat) : Nat := if position < 2 + rounds then position else rounds + 3

/-- The frames sent are the first ones of the client's sequence, and each was sent
only after every reply before it had come and was the expected one. -/
structure ClientTrace (cfg : ConnectionConfig) (rounds : Nat) (tune : Tune) (trace : List Event) : Prop where
  positive : 1 ≤ rounds
  order : sentFrames trace <+: clientSequence cfg rounds tune
  accepted : ∀ before frame, before ++ [.sent frame] <+: trace →
    (receivedReplies before).length = repliesBefore rounds (sentFrames before).length ∧
    ∀ i reply, (receivedReplies before)[i]? = some reply → Expected rounds tune i reply

def OpenFits (cfg : ConnectionConfig) (rounds : Nat) (tune : Tune) : Prop :=
  (negotiate cfg tune).frameMax = 0 ∨
    (requestFrame (⟨cfg.virtualHost⟩ : OpenRequest) (cidAt (3 + rounds))).length - 4 ≤
      (negotiate cfg tune).frameMax.toNat

def isAuthenticate (frame : Bytes) : Bool := keyOf (frame.drop 4) == Key.saslAuthenticate

def saslRounds (trace : List Event) : Nat := (sentFrames trace).countP isAuthenticate

/-! ## Facts about the two sides -/

theorem cidAt_succ (n : Nat) : cidAt n + 1 = cidAt (n + 1) := by
  simp [cidAt, UInt32.ofNat_add]

theorem cidAt_ne_zero {n : Nat} (positive : 0 < n) (small : n < 2 ^ 32) : cidAt n ≠ 0 := by
  rw [cidAt, ne_eq, ← UInt32.toNat_inj, UInt32.toNat_ofNat_of_lt' small]
  show n ≠ 0
  omega

theorem answers_unique {α : Type} [Command α] {cid : UInt32} {reply : Reply} {v w : α}
    (first : Answers cid reply v) (second : Answers cid reply w) : v = w := by
  obtain ⟨frame, rfl, _, _, decoded⟩ := first
  obtain ⟨_, ⟨⟩, _, _, again⟩ := second
  rw [decoded] at again
  exact Except.ok.inj again

theorem announces_unique {reply : Reply} {t u : Tune} (first : Announces reply t)
    (second : Announces reply u) : t = u := by
  obtain ⟨frame, rfl, _, decoded⟩ := first
  obtain ⟨_, ⟨⟩, _, again⟩ := second
  rw [decoded] at again
  exact Except.ok.inj again

theorem authenticates_unique {cid : UInt32} {code code' : UInt16} {reply : Reply}
    (first : Authenticates cid code reply) (second : Authenticates cid code' reply) : code = code' := by
  obtain ⟨v, answers, rfl⟩ := first
  obtain ⟨w, again, rfl⟩ := second
  rw [answers_unique answers again]

section Expected
variable {rounds : Nat} {tune : Tune} {reply : Reply}

theorem expected_challenge {i : Nat} (early : i + 1 < rounds) :
    Expected rounds tune (i + 2) reply ↔
      Authenticates (cidAt (3 + i)) ResponseCode.saslChallenge reply := by
  simp [Expected, early]

theorem expected_authenticated {i : Nat} (last : i + 1 = rounds) :
    Expected rounds tune (i + 2) reply ↔ Authenticates (cidAt (3 + i)) ResponseCode.ok reply := by
  simp [Expected, last]

theorem expected_tune : Expected rounds tune (rounds + 2) reply ↔ Announces reply tune := by
  simp [Expected]

theorem expected_open :
    Expected rounds tune (rounds + 3) reply ↔ Opens (cidAt (3 + rounds)) reply := by
  have later : ¬ rounds + 1 + 1 < rounds := by omega
  have other : ¬ rounds + 1 + 1 = rounds := by omega
  simp [Expected, later, other]

/-- Before the last round is known, the number of rounds and the limits are open. -/
theorem Expected.change {rounds' : Nat} {tune' : Tune} {i : Nat} (early : i < 1 + rounds) (early' : i < 1 + rounds')
    (expected : Expected rounds tune i reply) : Expected rounds' tune' i reply := by
  match i with
  | 0 => exact expected
  | 1 => exact expected
  | i + 2 => exact (expected_challenge (by omega)).mpr ((expected_challenge (by omega)).mp expected)

end Expected

section Sequence
variable (cfg : ConnectionConfig) (rounds : Nat) (tune : Tune)

theorem clientSequence_authenticate {i : Nat} (less : i < rounds) :
    (clientSequence cfg rounds tune)[2 + i]? =
      some (requestFrame (plainRequest cfg) (cidAt (3 + i))) := by
  simp [clientSequence, Nat.add_comm 2 i, List.getElem?_append, less]

theorem clientSequence_tune :
    (clientSequence cfg rounds tune)[2 + rounds]? = some (onewayFrame (negotiate cfg tune)) := by
  simp [clientSequence, Nat.add_comm 2 rounds]

theorem clientSequence_open :
    (clientSequence cfg rounds tune)[3 + rounds]? =
      some (requestFrame (⟨cfg.virtualHost⟩ : OpenRequest) (cidAt (3 + rounds))) := by
  simp [clientSequence, Nat.add_comm 3 rounds]

theorem clientSequence_take {n : Nat} (le : n ≤ rounds) :
    (clientSequence cfg rounds tune).take (2 + n) =
      [requestFrame (peerProperties cfg) 1, requestFrame (⟨⟩ : SaslHandshakeRequest) 2] ++
        (List.range n).map fun i => requestFrame (plainRequest cfg) (cidAt (3 + i)) := by
  simp [clientSequence, Nat.add_comm 2 n, List.take_append, ← List.map_take, List.take_range, le]

end Sequence

theorem isAuthenticate_plain (cfg : ConnectionConfig) (cid : UInt32) :
    isAuthenticate (requestFrame (plainRequest cfg) cid) = true := by
  rw [isAuthenticate, requestFrame, encodeRequestFrame, sizePrefixed_payload, List.append_assoc,
    List.append_assoc, keyOf_payload]
  rfl

theorem saslRounds_mono {front whole : List Event} (initial : front <+: whole) :
    saslRounds front ≤ saslRounds whole := by
  obtain ⟨back, rfl⟩ := initial
  simp [saslRounds]

/-! ## How far a run has come -/

/-- The channel after `sends` frames of the client's sequence and `replies` expected
replies of the script. -/
structure Reached (cfg : ConnectionConfig) (script : List Reply) (rounds : Nat) (tune : Tune)
    (sends replies : Nat) (ch : Channel) : Prop where
  positive : 1 ≤ rounds
  sent : sentFrames ch.trace = (clientSequence cfg rounds tune).take sends
  within : replies ≤ script.length
  received : receivedReplies ch.trace = script.take replies
  left : ch.script = script.drop replies
  expected : ∀ i < replies, ∀ reply, script[i]? = some reply → Expected rounds tune i reply
  orderly : ∀ before frame, before ++ [.sent frame] <+: ch.trace →
    (receivedReplies before).length = repliesBefore rounds (sentFrames before).length

section Reached
variable {cfg : ConnectionConfig} {script : List Reply} {rounds : Nat} {tune : Tune}
  {sends replies : Nat} {ch : Channel}

theorem Reached.start (cfg : ConnectionConfig) (script : List Reply) (tune : Tune) :
    Reached cfg script 1 tune 0 0 ⟨script, []⟩ where
  positive := Nat.le_refl 1
  sent := rfl
  within := Nat.zero_le _
  received := rfl
  left := rfl
  expected := by intro i impossible; omega
  orderly := by
    intro before frame initial
    simp at initial

theorem Reached.send (reached : Reached cfg script rounds tune sends replies ch) {frame : Bytes}
    (next : (clientSequence cfg rounds tune)[sends]? = some frame) (known : replies = repliesBefore rounds sends) :
    Reached cfg script rounds tune (sends + 1) replies ⟨ch.script, ch.trace ++ [.sent frame]⟩ where
  positive := reached.positive
  sent := by
    rw [sentFrames_append, sentFrames_sent, reached.sent, List.take_add_one, next]
    rfl
  within := reached.within
  received := by rw [receivedReplies_append, receivedReplies_sent, List.append_nil, reached.received]
  left := reached.left
  expected := reached.expected
  orderly := by
    intro before other initial
    rcases List.prefix_concat_iff.mp initial with whole | earlier
    · obtain ⟨rfl, -⟩ := List.append_inj' whole rfl
      have inside := (List.getElem?_eq_some_iff.mp next).1
      rw [reached.received, reached.sent, List.length_take, List.length_take,
        Nat.min_eq_left reached.within, Nat.min_eq_left (Nat.le_of_lt inside)]
      exact known
    · exact reached.orderly before other earlier

theorem Reached.receive (reached : Reached cfg script rounds tune sends replies ch) {reply : Reply}
    (here : script[replies]? = some reply) (expected : Expected rounds tune replies reply) :
    Reached cfg script rounds tune sends (replies + 1)
      ⟨script.drop (replies + 1), ch.trace ++ [.received reply]⟩ where
  positive := reached.positive
  sent := by rw [sentFrames_append, sentFrames_received, List.append_nil, reached.sent]
  within := (List.getElem?_eq_some_iff.mp here).1
  received := by
    rw [receivedReplies_append, receivedReplies_received, reached.received, List.take_add_one, here]
    rfl
  left := rfl
  expected := by
    intro i less other found
    rcases Nat.lt_succ_iff_lt_or_eq.mp less with earlier | rfl
    · exact reached.expected i earlier other found
    · rw [here] at found
      cases found
      exact expected
  orderly := by
    intro before frame initial
    rcases List.prefix_concat_iff.mp initial with whole | earlier
    · have last := (List.append_inj' whole rfl).2
      simp at last
    · exact reached.orderly before frame earlier

/-- While authentication is going on, the rounds still to come are not fixed, and
neither are the limits. -/
theorem Reached.change (reached : Reached cfg script rounds tune sends replies ch) {rounds' : Nat} (tune' : Tune)
    (positive : 1 ≤ rounds') (few : sends ≤ 2 + rounds) (few' : sends ≤ 2 + rounds')
    (expected : ∀ i < replies, ∀ reply, Expected rounds tune i reply → Expected rounds' tune' i reply) :
    Reached cfg script rounds' tune' sends replies ch where
  positive := positive
  sent := by
    rw [reached.sent]
    rcases Nat.lt_or_ge sends 2 with small | large
    · interval_cases sends <;> rfl
    · obtain ⟨n, rfl⟩ := Nat.exists_eq_add_of_le large
      rw [clientSequence_take cfg rounds tune (by omega), clientSequence_take cfg rounds' tune' (by omega)]
  within := reached.within
  received := reached.received
  left := reached.left
  expected := fun i less reply here => expected i less reply (reached.expected i less reply here)
  orderly := by
    intro before frame initial
    have count : (sentFrames before).length < sends := by
      have shorter : sentFrames (before ++ [.sent frame]) <+: sentFrames ch.trace := by
        obtain ⟨tail, same⟩ := initial
        rw [← same, sentFrames_append _ tail]
        exact List.prefix_append _ _
      have lengths := shorter.length_le
      rw [reached.sent, sentFrames_append, List.length_append, List.length_take] at lengths
      simp only [sentFrames_sent, List.length_singleton] at lengths
      omega
    rw [reached.orderly before frame initial, repliesBefore, repliesBefore, if_pos (by omega), if_pos (by omega)]

theorem Reached.clientTrace (reached : Reached cfg script rounds tune sends replies ch) :
    ClientTrace cfg rounds tune ch.trace where
  positive := reached.positive
  order := by rw [reached.sent]; exact List.take_prefix _ _
  accepted := by
    intro before frame initial
    refine ⟨reached.orderly before frame initial, ?_⟩
    intro i reply here
    have known : receivedReplies before <+: script.take replies := by
      obtain ⟨tail, same⟩ := initial
      rw [← reached.received, ← same, receivedReplies_append _ tail, receivedReplies_append before]
      rw [List.append_assoc]
      exact List.prefix_append _ _
    have found : (script.take replies)[i]? = some reply := by
      obtain ⟨tail, same⟩ := known
      rw [← same, List.getElem?_append_left (List.getElem?_eq_some_iff.mp here).1, here]
    rw [List.getElem?_take] at found
    split at found
    next less => exact reached.expected i less reply found
    · simp at found

theorem ClientTrace.received {trace : List Event} (client : ClientTrace cfg rounds tune trace) (reply : Reply) :
    ClientTrace cfg rounds tune (trace ++ [.received reply]) where
  positive := client.positive
  order := by simpa using client.order
  accepted := by
    intro before frame initial
    rcases List.prefix_concat_iff.mp initial with whole | earlier
    · have last := (List.append_inj' whole rfl).2
      simp at last
    · exact client.accepted before frame earlier

/-! ## One exchange -/

theorem nextReply_some (reached : Reached cfg script rounds tune sends replies ch) {reply : Reply}
    (here : script[replies]? = some reply) :
    nextReply.run ch = (reply, ⟨script.drop (replies + 1), ch.trace ++ [.received reply]⟩) := by
  obtain ⟨inside, value⟩ := List.getElem?_eq_some_iff.mp here
  have front : ch.script = reply :: script.drop (replies + 1) := by
    rw [reached.left, List.drop_eq_getElem_cons inside, value]
  simp only [nextReply, front]

theorem nextReply_none (reached : Reached cfg script rounds tune sends replies ch)
    (here : script[replies]? = none) : nextReply.run ch = (.error peerClosed, ch) := by
  have front : ch.script = [] := by
    rw [reached.left, List.drop_eq_nil_iff]
    exact List.getElem?_eq_none_iff.mp here
  simp only [nextReply, front]

theorem sendRequest_fits {α : Type} [Command α] (cmd : α) (cid frameMax : UInt32) (ch : Channel)
    (fits : frameMax = 0 ∨ (requestFrame cmd cid).length - 4 ≤ frameMax.toNat) :
    (sendRequest cmd cid frameMax).run ch = (.ok (), ⟨ch.script, ch.trace ++ [.sent (requestFrame cmd cid)]⟩) := by
  rw [sendRequest, (checkOutboundFrameSize_ok_iff _ _).mpr fits]
  rfl

theorem sendRequest_large {α : Type} [Command α] (cmd : α) (cid frameMax : UInt32) (ch : Channel)
    (large : ¬ (frameMax = 0 ∨ (requestFrame cmd cid).length - 4 ≤ frameMax.toNat)) :
    ∃ e, (sendRequest cmd cid frameMax).run ch = (.error e, ch) := by
  rw [sendRequest]
  cases checked : checkOutboundFrameSize ((requestFrame cmd cid).length - 4) frameMax with
  | ok _ => exact absurd ((checkOutboundFrameSize_ok_iff _ _).mp checked) large
  | error e => exact ⟨e, rfl⟩

theorem sendRequest_unlimited {α : Type} [Command α] (cmd : α) (cid : UInt32) (ch : Channel) :
    (sendRequest cmd cid 0).run ch = (.ok (), ⟨ch.script, ch.trace ++ [.sent (requestFrame cmd cid)]⟩) :=
  sendRequest_fits cmd cid 0 ch (.inl rfl)

/-- A receive is one reply and a judgement of its frame. It either fails, and then the
script has no good frame here, or it returns the value of the frame that is here. -/
theorem read_cases {α : Type} (next : IncomingFrame → Handshake α) (good : IncomingFrame → α → Prop)
    (judged : ∀ frame ch, (∃ e, (next frame).run ch = (.error e, ch) ∧ ∀ v, ¬ good frame v) ∨
      ∃ v, (next frame).run ch = (.ok v, ch) ∧ good frame v)
    (reached : Reached cfg script rounds tune sends replies ch) :
    (∃ e after, (nextReply >>= next).run ch = (.error e, after) ∧ ClientTrace cfg rounds tune after.trace ∧
      ∀ reply v, script[replies]? = some reply → ¬ ∃ frame, reply = .ok frame ∧ good frame v) ∨
    ∃ reply v, script[replies]? = some reply ∧ (∃ frame, reply = .ok frame ∧ good frame v) ∧
      (nextReply >>= next).run ch = (.ok v, ⟨script.drop (replies + 1), ch.trace ++ [.received reply]⟩) := by
  have client := reached.clientTrace
  cases here : script[replies]? with
  | none =>
    rw [Fallible.bind_error (nextReply_none reached here)]
    exact .inl ⟨_, _, rfl, client, by simp⟩
  | some reply =>
    cases reply with
    | error e =>
      rw [Fallible.bind_error (nextReply_some reached here)]
      refine .inl ⟨_, _, rfl, client.received _, ?_⟩
      rintro _ v ⟨rfl⟩ ⟨frame, wrong, _⟩
      cases wrong
    | ok frame =>
      rw [Fallible.bind_ok (nextReply_some reached here)]
      rcases judged frame _ with ⟨e, run, bad⟩ | ⟨v, run, fine⟩
      · refine .inl ⟨e, _, run, client.received _, ?_⟩
        rintro _ v ⟨rfl⟩ ⟨_, ⟨rfl⟩, fine⟩
        exact bad v fine
      · exact .inr ⟨_, v, rfl, ⟨frame, rfl, fine⟩, run⟩

theorem recvResponse_cases (α : Type) [Command α] {cid : UInt32} (nonzero : cid ≠ 0)
    (reached : Reached cfg script rounds tune sends replies ch) :
    (∃ e after, (recvResponse α cid).run ch = (.error e, after) ∧ ClientTrace cfg rounds tune after.trace ∧
      ∀ reply (v : α), script[replies]? = some reply → ¬ Answers cid reply v) ∨
    ∃ reply, ∃ v : α, script[replies]? = some reply ∧ Answers cid reply v ∧ (recvResponse α cid).run ch =
      (.ok v, ⟨script.drop (replies + 1), ch.trace ++ [.received reply]⟩) := by
  refine read_cases _ (fun frame (v : α) => frame.key = Command.kKey α ∧ frame.correlationId = some cid ∧
    decodeFrom Command.decodeBody frame.body = .ok v) ?_ reached
  intro frame ch
  by_cases key : frame.key = Command.kKey α
  · by_cases same : frame.correlationId = some cid
    · rw [if_neg (not_not.mpr key), if_neg (fun apart => apart.2 same)]
      cases decoded : decodeFrom (Command.decodeBody : Decode α) frame.body with
      | error e => exact .inl ⟨e, rfl, by simp⟩
      | ok v => exact .inr ⟨v, rfl, key, same, rfl⟩
    · rw [if_neg (not_not.mpr key), if_pos ⟨nonzero, same⟩]
      exact .inl ⟨_, rfl, fun v fine => same fine.2.1⟩
  · rw [if_pos key]
    exact .inl ⟨_, rfl, fun v fine => key fine.1⟩

theorem receive_cases {α β : Type} [Command α] (verdict : α → Result β) {cid : UInt32} (nonzero : cid ≠ 0)
    (reached : Reached cfg script rounds tune sends replies ch) :
    (∃ e after, (recvResponse α cid >>= fun v => Fallible.ofExcept (verdict v)).run ch = (.error e, after) ∧
      ClientTrace cfg rounds tune after.trace ∧
      ∀ reply v b, script[replies]? = some reply → Answers cid reply v → verdict v ≠ .ok b) ∨
    ∃ reply v b, script[replies]? = some reply ∧ Answers cid reply v ∧ verdict v = .ok b ∧
      (recvResponse α cid >>= fun v => Fallible.ofExcept (verdict v)).run ch =
        (.ok b, ⟨script.drop (replies + 1), ch.trace ++ [.received reply]⟩) := by
  rcases recvResponse_cases α nonzero reached with
    ⟨e, after, run, client, none_answers⟩ | ⟨reply, v, here, answers, run⟩
  · rw [Fallible.bind_error run]
    exact .inl ⟨e, after, rfl, client, fun reply v b here answers => absurd answers (none_answers reply v here)⟩
  rw [Fallible.bind_ok run]
  cases judged : verdict v with
  | ok b => exact .inr ⟨reply, v, b, here, answers, judged, rfl⟩
  | error e =>
    refine .inl ⟨e, _, rfl, reached.clientTrace.received _, ?_⟩
    intro other w b there again
    rw [here] at there
    cases there
    rw [← answers_unique answers again, judged]
    simp

theorem recvTune_cases (reached : Reached cfg script rounds tune sends replies ch) :
    (∃ e after, (recvOneway Tune).run ch = (.error e, after) ∧ ClientTrace cfg rounds tune after.trace ∧
      ∀ reply v, script[replies]? = some reply → ¬ Announces reply v) ∨
    ∃ reply v, script[replies]? = some reply ∧ Announces reply v ∧ (recvOneway Tune).run ch =
      (.ok v, ⟨script.drop (replies + 1), ch.trace ++ [.received reply]⟩) := by
  refine read_cases _ (fun frame (v : Tune) => frame.key = Key.tune ∧
    decodeFrom Command.decodeBody frame.body = .ok v) ?_ reached
  intro frame ch
  by_cases key : frame.key = Command.kKey Tune
  · rw [if_neg (not_not.mpr key)]
    cases decoded : decodeFrom (Command.decodeBody : Decode Tune) frame.body with
    | error e => exact .inl ⟨e, rfl, by simp⟩
    | ok v => exact .inr ⟨v, rfl, key, rfl⟩
  · rw [if_pos key]
    exact .inl ⟨_, rfl, fun v fine => key fine.1⟩

/-! ## The steps -/

/-- A run that failed: its frames are in order, and the script was not one that
should have been accepted. -/
def Stopped (cfg : ConnectionConfig) (script : List Reply) (trace : List Event) : Prop :=
  (∃ rounds tune, ClientTrace cfg rounds tune trace) ∧
    ∀ rounds tune, ServerScript rounds tune script → ¬ OpenFits cfg rounds tune

theorem ServerScript.reply {rounds : Nat} {tune : Tune} (server : ServerScript rounds tune script) {i : Nat}
    (less : i < rounds + 4) : ∃ reply, script[i]? = some reply ∧ Expected rounds tune i reply := by
  have inside : i < script.length := by have := server.length; omega
  exact ⟨script[i], List.getElem?_eq_getElem inside, server.expected i less _ (List.getElem?_eq_getElem inside)⟩

theorem ServerScript.rounds_ge {r n : Nat} {t : Tune} (server : ServerScript r t script)
    (reached : Reached cfg script (n + 1) tune sends (2 + n) ch) : n + 1 ≤ r := by
  by_contra fewer
  obtain ⟨m, rfl⟩ := Nat.exists_eq_add_of_le' server.positive
  obtain ⟨reply, here, expected⟩ := server.reply (show m + 2 < m + 1 + 4 by omega)
  have accepted := (expected_authenticated rfl).mp expected
  have challenge := (expected_challenge (by omega)).mp (reached.expected (m + 2) (by omega) reply here)
  exact absurd (authenticates_unique accepted challenge) (by decide)

theorem ServerScript.rounds_eq {r n : Nat} {t : Tune} (server : ServerScript r t script)
    (reached : Reached cfg script (n + 1) tune sends replies ch) (enough : 3 + n ≤ replies) : r = n + 1 := by
  obtain ⟨m, rfl⟩ := Nat.exists_eq_add_of_le' server.positive
  have clash : ∀ a b u v reply, Expected (a + 1) u (a + 2) reply → Expected (b + 1) v (a + 2) reply → ¬ a < b := by
    intro a b u v reply accepted challenge less
    have accepted := (expected_authenticated rfl).mp accepted
    have challenge := (expected_challenge (by omega)).mp challenge
    exact absurd (authenticates_unique accepted challenge) (by decide)
  rcases Nat.lt_trichotomy m n with less | same | more
  · obtain ⟨reply, here, expected⟩ := server.reply (show m + 2 < m + 1 + 4 by omega)
    exact absurd less (clash m n t tune reply expected (reached.expected (m + 2) (by omega) reply here))
  · rw [same]
  · obtain ⟨reply, here, expected⟩ := server.reply (show n + 2 < m + 1 + 4 by omega)
    exact absurd more (clash n m tune t reply (reached.expected (n + 2) (by omega) reply here) expected)

theorem stopped_of_unexpected {trace : List Event} (client : ClientTrace cfg rounds tune trace)
    (unexpected : ∀ r t, ServerScript r t script →
      ∃ i < r + 4, ∀ reply, script[i]? = some reply → ¬ Expected r t i reply) : Stopped cfg script trace := by
  refine ⟨⟨rounds, tune, client⟩, fun r t server => ?_⟩
  obtain ⟨i, less, none_expected⟩ := unexpected r t server
  obtain ⟨reply, here, expected⟩ := server.reply less
  exact absurd expected (none_expected reply here)

theorem peerPropertiesVerdict_ok (v : PeerPropertiesResponse) :
    (∃ b, peerPropertiesVerdict v = .ok b) ↔ v.responseCode = ResponseCode.ok := by
  by_cases code : v.responseCode = ResponseCode.ok <;> simp [peerPropertiesVerdict, code]

theorem saslHandshakeVerdict_ok (v : SaslHandshakeResponse) :
    (∃ b, saslHandshakeVerdict v = .ok b) ↔ v.responseCode = ResponseCode.ok ∧ text "PLAIN" ∈ v.mechanisms := by
  by_cases code : v.responseCode = ResponseCode.ok <;>
    by_cases offered : text "PLAIN" ∈ v.mechanisms <;> simp [saslHandshakeVerdict, code, offered]

theorem openVerdict_ok (cfg : ConnectionConfig) (v : OpenResponse) :
    (∃ b, openVerdict cfg v = .ok b) ↔ v.responseCode = ResponseCode.ok := by
  by_cases code : v.responseCode = ResponseCode.ok <;> simp [openVerdict, code]

theorem peerPropertiesStep_cases (cfg : ConnectionConfig) (script : List Reply) (tune : Tune) :
    (∃ e after, (peerPropertiesStep cfg 1).run ⟨script, []⟩ = (.error e, after) ∧ Stopped cfg script after.trace) ∨
    ∃ v after, (peerPropertiesStep cfg 1).run ⟨script, []⟩ = (.ok v, after) ∧
      Reached cfg script 1 tune 1 1 after := by
  have sent := (Reached.start cfg script tune).send rfl rfl
  unfold peerPropertiesStep
  rw [Fallible.bind_ok (sendRequest_unlimited _ _ _)]
  rcases receive_cases peerPropertiesVerdict (show (1 : UInt32) ≠ 0 by decide) sent with
    ⟨e, after, run, client, refused⟩ | ⟨reply, v, b, here, answers, judged, run⟩
  · refine .inl ⟨e, after, run, stopped_of_unexpected client fun r t _ => ⟨0, by omega, ?_⟩⟩
    rintro reply here ⟨v, answers, ok⟩
    obtain ⟨b, judged⟩ := (peerPropertiesVerdict_ok v).mpr ok
    exact refused reply v b here answers judged
  · exact .inr ⟨b, _, run, sent.receive here ⟨v, answers, (peerPropertiesVerdict_ok v).mp ⟨b, judged⟩⟩⟩

theorem saslHandshakeStep_cases (reached : Reached cfg script 1 tune 1 1 ch) :
    (∃ e after, (saslHandshakeStep 2).run ch = (.error e, after) ∧ Stopped cfg script after.trace) ∨
    ∃ after, (saslHandshakeStep 2).run ch = (.ok (), after) ∧ Reached cfg script 1 tune 2 2 after := by
  have sent := reached.send rfl rfl
  unfold saslHandshakeStep
  rw [Fallible.bind_ok (sendRequest_unlimited _ _ _)]
  rcases receive_cases saslHandshakeVerdict (show (2 : UInt32) ≠ 0 by decide) sent with
    ⟨e, after, run, client, refused⟩ | ⟨reply, v, b, here, answers, judged, run⟩
  · refine .inl ⟨e, after, run, stopped_of_unexpected client fun r t _ => ⟨1, by omega, ?_⟩⟩
    rintro reply here ⟨v, answers, ok⟩
    obtain ⟨b, judged⟩ := (saslHandshakeVerdict_ok v).mpr ok
    exact refused reply v b here answers judged
  · exact .inr ⟨_, run, sent.receive here ⟨v, answers, (saslHandshakeVerdict_ok v).mp ⟨b, judged⟩⟩⟩

/-- With the frame of this round the trace counts one round more than there were
challenges. -/
theorem saslRounds_of_reached {n : Nat} (reached : Reached cfg script (n + 1) tune (3 + n) replies ch) :
    n + 1 ≤ saslRounds ch.trace := by
  have sent := reached.sent
  rw [show 3 + n = 2 + (n + 1) by omega, clientSequence_take cfg (n + 1) tune (Nat.le_refl _)] at sent
  have all : ((List.range (n + 1)).map fun i => requestFrame (plainRequest cfg) (cidAt (3 + i))).countP
      isAuthenticate = n + 1 := by
    rw [List.countP_eq_length.mpr]
    · simp
    · intro frame member
      obtain ⟨i, _, rfl⟩ := List.mem_map.mp member
      exact isAuthenticate_plain cfg _
  rw [saslRounds, sent, List.countP_append, all]
  exact Nat.le_add_left _ _

theorem saslAuthenticateVerdict_true (v : SaslAuthenticateResponse) :
    saslAuthenticateVerdict v = .ok true ↔ v.responseCode = ResponseCode.ok := by
  unfold saslAuthenticateVerdict
  split_ifs with accepted challenged
  · simp [accepted]
  · simp [accepted]
  · simp [accepted]

theorem saslAuthenticateVerdict_false (v : SaslAuthenticateResponse) :
    saslAuthenticateVerdict v = .ok false ↔ v.responseCode = ResponseCode.saslChallenge := by
  unfold saslAuthenticateVerdict
  split_ifs with accepted challenged
  · simp [accepted, ResponseCode.ok, ResponseCode.saslChallenge]
  · simp [challenged]
  · simp [challenged]

theorem saslAuthenticateRound_cases {n : Nat} (reached : Reached cfg script (n + 1) tune (2 + n) (2 + n) ch)
    (small : n < 2 ^ 32 - 5) :
    (∃ e after, (saslAuthenticateRound cfg (cidAt (3 + n))).run ch = (.error e, after) ∧
      Stopped cfg script after.trace) ∨
    (∃ after, (saslAuthenticateRound cfg (cidAt (3 + n))).run ch = (.ok true, after) ∧
      Reached cfg script (n + 1) tune (3 + n) (3 + n) after) ∨
    ∃ after, (saslAuthenticateRound cfg (cidAt (3 + n))).run ch = (.ok false, after) ∧
      Reached cfg script (n + 2) tune (3 + n) (3 + n) after := by
  have next := clientSequence_authenticate cfg (n + 1) tune (Nat.lt_succ_self n)
  have sent := reached.send next (by rw [repliesBefore, if_pos (by omega)])
  have same : 2 + n = n + 2 := Nat.add_comm 2 n
  have later : 2 + n + 1 = 3 + n := by omega
  unfold saslAuthenticateRound
  rw [Fallible.bind_ok (sendRequest_unlimited _ _ _)]
  rcases receive_cases saslAuthenticateVerdict
      (show cidAt (3 + n) ≠ 0 from cidAt_ne_zero (by omega) (by omega)) sent with
    ⟨e, after, run, client, refused⟩ | ⟨reply, v, b, here, answers, judged, run⟩
  · refine .inl ⟨e, after, run, stopped_of_unexpected client fun r t server => ?_⟩
    -- The server's rounds go at least this far, and neither verdict fits the reply.
    have far := server.rounds_ge reached
    refine ⟨n + 2, by omega, fun reply here expected => ?_⟩
    rw [← same] at here
    rcases Nat.lt_or_eq_of_le far with more | last
    · obtain ⟨v, answers, code⟩ := (expected_challenge more).mp expected
      exact refused reply v false here answers ((saslAuthenticateVerdict_false v).mpr code)
    · obtain ⟨v, answers, code⟩ := (expected_authenticated last).mp expected
      exact refused reply v true here answers ((saslAuthenticateVerdict_true v).mpr code)
  · cases b with
    | true =>
      have code := (saslAuthenticateVerdict_true v).mp judged
      have expected : Expected (n + 1) tune (2 + n) reply := by
        rw [same]
        exact (expected_authenticated rfl).mpr ⟨v, answers, code⟩
      have done := sent.receive here expected
      rw [later] at done run
      exact .inr (.inl ⟨_, run, done⟩)
    | false =>
      have code := (saslAuthenticateVerdict_false v).mp judged
      have expected : Expected (n + 2) tune (2 + n) reply := by
        rw [same]
        exact (expected_challenge (by omega)).mpr ⟨v, answers, code⟩
      have longer := sent.change tune (show 1 ≤ n + 2 by omega) (by omega) (by omega)
        fun i less reply => Expected.change (by omega) (by omega)
      have done := longer.receive here expected
      rw [later] at done run
      exact .inr (.inr ⟨_, run, done⟩)

/-- The challenge loop, by induction on the replies left. The correlation id is
compared in every round because it has not wrapped to zero. -/
theorem saslAuthenticateLoop_cases (fuel n : Nat) (reached : Reached cfg script (n + 1) tune (2 + n) (2 + n) ch)
    (enough : ch.script.length < fuel)
    (bound : saslRounds ((saslAuthenticateLoop cfg fuel (cidAt (3 + n))).run ch).2.trace < 2 ^ 32 - 4) :
    (∃ e after, (saslAuthenticateLoop cfg fuel (cidAt (3 + n))).run ch = (.error e, after) ∧
      Stopped cfg script after.trace) ∨
    ∃ m after, (saslAuthenticateLoop cfg fuel (cidAt (3 + n))).run ch = (.ok (cidAt (4 + m)), after) ∧
      m < 2 ^ 32 - 5 ∧ Reached cfg script (m + 1) tune (3 + m) (3 + m) after := by
  induction fuel generalizing n ch with
  | zero => omega
  | succ fuel ih =>
    -- This round counts towards the bound, so its id has not wrapped.
    have small : n < 2 ^ 32 - 5 := by
      have next := clientSequence_authenticate cfg (n + 1) tune (Nat.lt_succ_self n)
      have sent := reached.send next (by rw [repliesBefore, if_pos (by omega)])
      rw [show 2 + n + 1 = 3 + n by omega] at sent
      have counted := saslRounds_of_reached sent
      have round : ch.trace ++ [.sent (requestFrame (plainRequest cfg) (cidAt (3 + n)))] <+:
          ((saslAuthenticateRound cfg (cidAt (3 + n))).run ch).2.trace :=
        Extends.first_trace (sendRequest (plainRequest cfg) (cidAt (3 + n)) 0)
          (fun _ => (Extends.recvResponse _).bind fun _ => .unchanged _) ch
      have loop : ((saslAuthenticateRound cfg (cidAt (3 + n))).run ch).2.trace <+:
          ((saslAuthenticateLoop cfg (fuel + 1) (cidAt (3 + n))).run ch).2.trace :=
        Extends.first_trace _ (fun _ => .ite (.pure _) (.saslAuthenticateLoop _ _ _)) ch
      have total := saslRounds_mono (round.trans loop)
      have here : n + 1 < 2 ^ 32 - 4 := Nat.lt_of_le_of_lt counted (Nat.lt_of_le_of_lt total bound)
      omega
    rcases saslAuthenticateRound_cases reached small with
      ⟨e, after, run, stopped⟩ | ⟨after, run, done⟩ | ⟨after, run, again⟩
    · exact .inl ⟨e, after, by rw [saslAuthenticateLoop, Fallible.bind_error run], stopped⟩
    · refine .inr ⟨n, after, ?_, small, done⟩
      rw [saslAuthenticateLoop, Fallible.bind_ok run, if_pos rfl, cidAt_succ, Nat.add_comm 3 n, Nat.add_comm 4 n]
      rfl
    · have step : (saslAuthenticateLoop cfg (fuel + 1) (cidAt (3 + n))).run ch =
          (saslAuthenticateLoop cfg fuel (cidAt (3 + (n + 1)))).run after := by
        rw [saslAuthenticateLoop, Fallible.bind_ok run, if_neg (by decide), cidAt_succ, Nat.add_assoc]
      rw [step] at bound ⊢
      have later : 3 + n = 2 + (n + 1) := by omega
      rw [later] at again
      refine ih (n + 1) again ?_ bound
      have shorter := congrArg List.length again.left
      have longer := congrArg List.length reached.left
      rw [List.length_drop] at shorter longer
      have within := again.within
      omega

theorem tuneStep_cases {n : Nat} (reached : Reached cfg script (n + 1) tune (3 + n) (3 + n) ch) :
    (∃ e after, (tuneStep cfg).run ch = (.error e, after) ∧ Stopped cfg script after.trace) ∨
    ∃ announced after, (tuneStep cfg).run ch = (.ok (negotiate cfg announced), after) ∧
      Reached cfg script (n + 1) announced (4 + n) (4 + n) after := by
  have position : 3 + n = n + 1 + 2 := by omega
  unfold tuneStep
  rcases recvTune_cases reached with ⟨e, after, run, client, refused⟩ | ⟨reply, v, here, announces, run⟩
  · refine .inl ⟨e, after, Fallible.bind_error run, stopped_of_unexpected client fun r t server => ?_⟩
    obtain rfl := server.rounds_eq reached (Nat.le_refl _)
    refine ⟨n + 1 + 2, by omega, fun reply here expected => ?_⟩
    rw [← position] at here
    exact refused reply t here (expected_tune.mp expected)
  · have tuned := (reached.change v reached.positive (by omega) (by omega) ?_).receive here
      (by rw [position]; exact expected_tune.mpr announces)
    · have next : (clientSequence cfg (n + 1) v)[3 + n]? = some (onewayFrame (negotiate cfg v)) := by
        rw [show 3 + n = 2 + (n + 1) by omega]
        exact clientSequence_tune cfg (n + 1) v
      have replied := tuned.send next (by rw [repliesBefore, if_neg (by omega)]; omega)
      rw [show 3 + n + 1 = 4 + n by omega] at replied run
      exact .inr ⟨v, _, Fallible.bind_ok run, replied⟩
    · intro i less reply expected
      rcases Nat.lt_or_ge i (n + 2) with early | last
      · exact expected.change (by omega) (by omega)
      · obtain rfl : i = n + 2 := by omega
        exact (expected_authenticated rfl).mpr ((expected_authenticated rfl).mp expected)

theorem openStep_cases {n : Nat} (reached : Reached cfg script (n + 1) tune (4 + n) (4 + n) ch)
    (small : n < 2 ^ 32 - 5) :
    (∃ e after, (openStep cfg (cidAt (4 + n)) (negotiate cfg tune).frameMax).run ch = (.error e, after) ∧
      Stopped cfg script after.trace) ∨
    ∃ v after, (openStep cfg (cidAt (4 + n)) (negotiate cfg tune).frameMax).run ch = (.ok v, after) ∧
      ClientTrace cfg (n + 1) tune after.trace ∧ ServerScript (n + 1) tune script ∧
      OpenFits cfg (n + 1) tune := by
  have cid : cidAt (4 + n) = cidAt (3 + (n + 1)) := by rw [show 4 + n = 3 + (n + 1) by omega]
  have position : 4 + n = n + 1 + 3 := by omega
  -- Rounds and limits of an accepting server are the ones already seen.
  have same : ∀ r t, ServerScript r t script → r = n + 1 ∧ t = tune := by
    intro r t server
    obtain rfl := server.rounds_eq reached (by omega)
    obtain ⟨reply, here, expected⟩ := server.reply (show n + 1 + 2 < n + 1 + 4 by omega)
    have mine := expected_tune.mp (reached.expected (n + 1 + 2) (by omega) reply here)
    exact ⟨rfl, announces_unique (expected_tune.mp expected) mine⟩
  unfold openStep
  rw [cid]
  by_cases fits : OpenFits cfg (n + 1) tune
  · have next : (clientSequence cfg (n + 1) tune)[4 + n]? =
        some (requestFrame (⟨cfg.virtualHost⟩ : OpenRequest) (cidAt (3 + (n + 1)))) := by
      rw [show 4 + n = 3 + (n + 1) by omega]
      exact clientSequence_open cfg (n + 1) tune
    have sent := reached.send next (by rw [repliesBefore, if_neg (by omega)]; omega)
    rw [Fallible.bind_ok (sendRequest_fits _ _ _ ch fits)]
    rcases receive_cases (openVerdict cfg)
      (show cidAt (3 + (n + 1)) ≠ 0 from cidAt_ne_zero (by omega) (by omega)) sent with
      ⟨e, after, run, client, refused⟩ | ⟨reply, v, b, here, answers, judged, run⟩
    · refine .inl ⟨e, after, run, stopped_of_unexpected client fun r t server => ?_⟩
      obtain ⟨rfl, rfl⟩ := same r t server
      refine ⟨n + 1 + 3, by omega, fun reply here expected => ?_⟩
      rw [← position] at here
      obtain ⟨v, answers, ok⟩ := expected_open.mp expected
      obtain ⟨b, judged⟩ := (openVerdict_ok cfg v).mpr ok
      exact refused reply v b here answers judged
    · have opened := sent.receive here
        (by rw [position]; exact expected_open.mpr ⟨v, answers, (openVerdict_ok cfg v).mp ⟨b, judged⟩⟩)
      refine .inr ⟨b, _, run, opened.clientTrace, ⟨opened.positive, ?_, ?_⟩, fits⟩
      · have := opened.within
        omega
      · intro i less
        exact opened.expected i (by omega)
  · obtain ⟨e, refused⟩ := sendRequest_large _ _ _ ch fits
    rw [Fallible.bind_error refused]
    refine .inl ⟨e, ch, rfl, ⟨_, _, reached.clientTrace⟩, fun r t server => ?_⟩
    obtain ⟨rfl, rfl⟩ := same r t server
    exact fits

end Reached

/-! ## The whole handshake -/

/-- An outcome with its frames in order that is a success exactly when it should be. -/
def Conforms (cfg : ConnectionConfig) (script : List Reply) (outcome : Result HandshakeResult × Channel) : Prop :=
  (∃ rounds tune, ClientTrace cfg rounds tune outcome.2.trace) ∧
    ((∃ result, outcome.1 = .ok result) ↔
      ∃ rounds tune, ServerScript rounds tune script ∧ OpenFits cfg rounds tune)

theorem Stopped.conforms {cfg : ConnectionConfig} {script : List Reply} {after : Channel}
    (stopped : Stopped cfg script after.trace) (e : StreamError) : Conforms cfg script (.error e, after) := by
  refine ⟨stopped.1, iff_of_false (by simp) ?_⟩
  rintro ⟨rounds, tune, server, fits⟩
  exact stopped.2 rounds tune server fits

/-- `run_handshake` sends the client's sequence in order, each frame only after the
expected replies, and succeeds exactly on the scripts of an accepting server for
which the open request is within the negotiated frame size. -/
theorem runHandshake_protocol (cfg : ConnectionConfig) (script : List Reply)
    (bound : saslRounds ((runHandshake cfg).run ⟨script, []⟩).2.trace < 2 ^ 32 - 4) :
    (∃ rounds tune, ClientTrace cfg rounds tune ((runHandshake cfg).run ⟨script, []⟩).2.trace) ∧
    ((∃ result, ((runHandshake cfg).run ⟨script, []⟩).1 = .ok result) ↔
      ∃ rounds tune, ServerScript rounds tune script ∧ OpenFits cfg rounds tune) := by
  change Conforms cfg script ((runHandshake cfg).run ⟨script, []⟩)
  unfold runHandshake at bound ⊢
  rcases peerPropertiesStep_cases cfg script ⟨0, 0⟩ with ⟨e, after, run, stopped⟩ | ⟨props, one, run, reached⟩
  · rw [Fallible.bind_error run]
    exact stopped.conforms e
  rw [Fallible.bind_ok run] at bound ⊢
  rcases saslHandshakeStep_cases reached with ⟨e, after, run, stopped⟩ | ⟨two, run, reached⟩
  · rw [Fallible.bind_error run]
    exact stopped.conforms e
  rw [Fallible.bind_ok run] at bound ⊢
  -- Later steps only add to the trace, so the bound also holds where the loop ends.
  have loopBound : saslRounds ((saslAuthenticateStep cfg 3).run two).2.trace < 2 ^ 32 - 4 := by
    refine Nat.lt_of_le_of_lt (saslRounds_mono (Extends.first_trace _ ?_ two)) bound
    exact fun _ => (Extends.tuneStep cfg).bind fun _ => (Extends.openStep cfg _ _).bind fun _ => .pure _
  rcases saslAuthenticateLoop_cases (two.script.length + 1) 0 reached (Nat.lt_succ_self _) loopBound with
    ⟨e, after, run, stopped⟩ | ⟨n, three, run, small, reached⟩
  · rw [Fallible.bind_error (show (saslAuthenticateStep cfg 3).run two = _ from run)]
    exact stopped.conforms e
  rw [Fallible.bind_ok (show (saslAuthenticateStep cfg 3).run two = _ from run)]
  rcases tuneStep_cases reached with ⟨e, after, run, stopped⟩ | ⟨tune, four, run, reached⟩
  · rw [Fallible.bind_error run]
    exact stopped.conforms e
  rw [Fallible.bind_ok run]
  rcases openStep_cases reached small with ⟨e, after, run, stopped⟩ | ⟨v, after, run, client, server, fits⟩
  · rw [Fallible.bind_error run]
    exact stopped.conforms e
  rw [Fallible.bind_ok run]
  exact ⟨⟨_, _, client⟩, iff_of_true ⟨_, rfl⟩ ⟨_, _, server, fits⟩⟩

theorem acceptingScript_server (tune : Tune) : ServerScript 1 tune (acceptingScript tune) where
  positive := Nat.le_refl 1
  length := Nat.le_refl 5
  expected := by
    intro i less reply here
    match i, less with
    | 0, _ =>
      cases here
      exact ⟨⟨ResponseCode.ok, []⟩, ⟨_, rfl, rfl, rfl, by decide⟩, rfl⟩
    | 1, _ =>
      cases here
      exact ⟨⟨ResponseCode.ok, [text "PLAIN"]⟩, ⟨_, rfl, rfl, rfl, by decide⟩, rfl, List.mem_singleton_self _⟩
    | 2, _ =>
      cases here
      exact ⟨⟨ResponseCode.ok, none⟩, ⟨_, rfl, rfl, rfl, by decide⟩, rfl⟩
    | 3, _ =>
      cases here
      exact ⟨_, rfl, rfl, decodeFrom_tune tune⟩
    | 4, _ =>
      cases here
      exact ⟨rfl, ⟨ResponseCode.ok, []⟩, ⟨_, rfl, rfl, rfl, by decide⟩, rfl⟩

theorem runHandshake_accepts :
    ∃ result, ((runHandshake {}).run ⟨acceptingScript ⟨1048576, 60⟩, []⟩).1 = .ok result :=
  (runHandshake_protocol {} (acceptingScript ⟨1048576, 60⟩) (by decide +kernel)).2.mpr
    ⟨1, ⟨1048576, 60⟩, acceptingScript_server _, .inr (by decide +kernel)⟩

/-- A server that announces a frame size of one byte is answered with an error
although every one of its replies is the expected one. -/
theorem runHandshake_open_too_large :
    ¬ ∀ (cfg : ConnectionConfig) (script : List Reply),
      saslRounds ((runHandshake cfg).run ⟨script, []⟩).2.trace < 2 ^ 32 - 4 →
      ((∃ result, ((runHandshake cfg).run ⟨script, []⟩).1 = .ok result) ↔
        ∃ rounds tune, ServerScript rounds tune script) := by
  intro claimed
  have accepted := (claimed {} (acceptingScript ⟨1, 60⟩) (by decide +kernel)).mpr
    ⟨1, ⟨1, 60⟩, acceptingScript_server _⟩
  have rejected : ((runHandshake {}).run ⟨acceptingScript ⟨1, 60⟩, []⟩).1.toOption = none := by decide +kernel
  obtain ⟨result, ok⟩ := accepted
  rw [ok] at rejected
  simp [Except.toOption] at rejected

end RmqStream
