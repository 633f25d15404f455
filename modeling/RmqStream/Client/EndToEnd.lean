import RmqStream.Client.Stream
import RmqStream.Client.Answers
import RmqStream.Client.References
import RmqStream.Client.Requests

/-! What success of a call means on the two streams.

A call that returns without an error has had a `write_all` of its own that sent all of its
request, and what `send_and_wait` gave it is a frame of its own among those received. Both are
counted: two calls never rest on the same request or on the same response. -/

set_option autoImplicit false

namespace RmqStream
open Library Commands

/-! ## The request -/

/-- The operation of a call whose `write_all` has returned without an error. -/
def CallPc.sent : CallPc → Option Op
  | .written op _ | .wait op _ _ | .answered op _ _ | .returned op (.ok _) => some op
  | _ => none

namespace Client

/-- The correlation id of a call. One-way calls have none. -/
def requestId (s : Client) (n : Nat) : UInt32 := ((s.dispatcher.ticket n).index.map appCid).getD 0

def requestFrame (s : Client) (n : Nat) : Option Bytes :=
  (s.calls n).sent.map fun op => op.frame (s.requestId n)

def requestRead (s : Client) (n : Nat) : Option IncomingFrame := (s.requestFrame n).bind parsed

end Client

def Dispatcher.answeredBy (d : Dispatcher) (owner : Nat) : Option Nat :=
  (d.settled.find? fun x => x.entry.owner == owner).bind fun x => x.cause.index

namespace Client
variable {cfg : ConnectionConfig} {s s' : Client} {n : Nat}

theorem frame_oneway {op : Op} (oneway : op.isOneway = true) (cid cid' : UInt32) : op.frame cid = op.frame cid' := by
  simp [Op.frame, oneway]

theorem write_frame {op : Op} {cid : UInt32} (linked : Linked s) (here : s.calls n = .write op cid) :
    op.frame (s.requestId n) = op.frame cid := by
  cases oneway : op.isOneway with
  | true => exact frame_oneway oneway _ _
  | false =>
    have mine := linked.calls n
    rw [here] at mine
    obtain ⟨k, ticket, rfl⟩ := mine oneway
    rw [requestId, ticket]
    rfl

theorem step_requestFrame {a : Action} {frame : Bytes} (linked : Linked s) (run : step cfg s a = some s')
    (sent : s'.requestFrame n = some frame) : s.requestFrame n = some frame ∨
      a = .call n (.sent (.ok ())) ∧ s.Writes (.call n) frame := by
  obtain ⟨op, performs, rfl⟩ := Option.map_eq_some_iff.mp sent
  by_cases own : ∃ input, a = .call n input
  · obtain ⟨input, rfl⟩ := own
    have ticket : s'.requestId n = s.requestId n := by
      obtain ⟨pc, moved, _, ⟨same, _⟩ | ⟨_, _, rfl, _⟩ | ⟨_, _, _, _, rfl, _⟩⟩ := callStep_table run
      · rw [requestId, same, requestId]
      · simp [moved, CallPc.sent] at performs
      · simp [moved, CallPc.sent] at performs
    rw [ticket]
    have kept : (s.calls n).sent = some op → s.requestFrame n = some (op.frame (s.requestId n)) := by
      intro before
      rw [requestFrame, before]
      rfl
    cases callStep_move run with
    | @write op' cid here =>
      have same : op' = op := by
        simp only [setCall, Function.update_self] at performs
        split at performs <;> exact Option.some.inj performs
      subst same
      rw [write_frame linked here]
      exact .inr ⟨rfl, .call here⟩
    | accepted =>
      simp only [setCall, Function.update_self] at performs
      split at performs <;> cases performs
    | written here | answered here =>
      simp only [setCall, Function.update_self] at performs
      exact .inl (kept (by rw [here]; exact performs))
    | @finish op' cid reply here =>
      simp only [setCall, Function.update_self] at performs
      refine .inl (kept ?_)
      rw [here]
      cases outcome : op'.finish reply with
      | ok value => rwa [outcome] at performs
      | error e => simp [outcome, CallPc.sent] at performs
    | _ => simp [setCall, CallPc.sent] at performs
  · have other : ∀ input, a ≠ .call n input := fun input same => own ⟨input, same⟩
    have calls : s'.calls n = s.calls n := by
      rcases step_calls run n with same | ⟨_, ⟨op', begun, _⟩ | begun⟩ | ⟨input, mine⟩
      · exact same
      · simp [begun, CallPc.sent] at performs
      · simp [begun, CallPc.sent] at performs
      · exact absurd mine (other input)
    rw [calls] at performs
    have ticket := (step_others linked run (by rintro idle; simp [idle, CallPc.sent] at performs)
      (by rintro close; simp [close, CallPc.sent] at performs) other).2
    left
    rw [requestFrame, performs, requestId, requestId, ticket]
    rfl

end Client

namespace Transport
variable {cfg : ConnectionConfig} {s s' : Transport}

/-- Whoever has sent its request did so through a call of `write_all` of its own. -/
structure SentThrough (s : Transport) (via : Nat → Nat) : Prop where
  whole : ∀ n frame, s.client.requestFrame n = some frame →
    ∃ part, s.writer.calls (via n) = .returned part (.ok ()) ∧ part.whole = frame
  apart : ∀ n m, (s.client.requestFrame n).isSome → (s.client.requestFrame m).isSome → via n = via m → n = m

theorem SentThrough.keep {via : Nat → Nat} (through : s.SentThrough via)
    (sent : ∀ n frame, s'.client.requestFrame n = some frame → s.client.requestFrame n = some frame)
    (calls : ∀ k part, s.writer.calls k = .returned part (.ok ()) → s'.writer.calls k = s.writer.calls k) :
    s'.SentThrough via := by
  have before : ∀ n, (s'.client.requestFrame n).isSome → (s.client.requestFrame n).isSome := by
    intro n some
    obtain ⟨frame, found⟩ := Option.isSome_iff_exists.mp some
    rw [sent n frame found]
    rfl
  refine ⟨fun n frame found => ?_, fun n m first second => through.apart n m (before n first) (before m second)⟩
  obtain ⟨part, returned, whole⟩ := through.whole n frame (sent n frame found)
  exact ⟨part, (calls _ part returned).trans returned, whole⟩

theorem Wired.unreturned (wired : s.Wired) {t : WritingThread} {k j : Nat} (inside : s.inside t = some k)
    {part : Fragment UInt8} {result : Result Unit} (returned : s.writer.calls j = .returned part result) : j ≠ k := by
  rintro rfl
  obtain ⟨frame, _, carries⟩ := wired.mine t j inside
  rw [returned] at carries
  exact carries

theorem step_returned {a : Traffic} {k : Nat} {part : Fragment UInt8} {result : Result Unit} (wired : s.Wired)
    (run : step cfg s a = some s') (returned : s.writer.calls k = .returned part result) :
    s'.writer.calls k = s.writer.calls k := by
  cases step_move run with
  | other => rfl
  | write outside here moved =>
    cases SocketWriter.step_move moved with
    | call idle =>
      refine Function.update_of_ne ?_ _ _
      rintro rfl
      rw [idle] at returned
      cases returned
  | onward inside moved | returned inside moved =>
    exact SocketWriter.step_others (wired.unreturned inside returned) moved

/-- What the client does in a step. When `write_all` returns it has sent the frame if there is no
error. -/
inductive ClientMove (cfg : ConnectionConfig) (s s' : Transport) : Prop where
  | still (same : s'.client = s.client)
  | own {a : Action} (moved : s.client.step cfg a = some s'.client) (silent : a.isReturn = false)
  | returned {t : WritingThread} {k : Nat} {frame : Bytes} {part : Fragment UInt8} {result : Result Unit}
      (moved : s.client.step cfg (t.returns result) = some s'.client) (inside : s.inside t = some k)
      (writes : s.client.Writes t frame)
      (fresh : ∀ j part result, s.writer.calls j = .returned part result → j ≠ k)
      (done : s'.writer.calls k = .returned part result) (whole : part.whole = frame)

theorem step_clientMove {a : Traffic} (wired : s.Wired) (locked : s.writer.Locked) (run : step cfg s a = some s') :
    ClientMove cfg s s' := by
  cases step_move run with
  | other own moved =>
    obtain ⟨b, moved, silent, _⟩ := Reception.step_unreturned own moved
    exact .own moved silent
  | write | onward => exact .still rfl
  | @returned t event k w part result r inside moved done back =>
    obtain ⟨_, after, clientMoved, same⟩ := Reception.step_client back
    have client : r.client = after := by rw [same]; rfl
    rw [← client] at clientMoved
    obtain ⟨frame, writes, carries⟩ := wired.mine t k inside
    refine .returned clientMoved inside writes (fun j part result => wired.unreturned inside) done ?_
    cases SocketWriter.step_advances locked carries moved with
    | lock _ _ _ carries | going _ _ carries =>
      rw [done] at carries
      exact carries.elim
    | returned _ _ found whole =>
      rw [done] at found
      cases found
      exact whole

theorem step_sentThrough {a : Traffic} {via : Nat → Nat} (through : s.SentThrough via) (wired : s.Wired)
    (locked : s.writer.Locked) (linked : Linked s.client) (run : step cfg s a = some s') :
    ∃ via, s'.SentThrough via := by
  have calls : ∀ k part, s.writer.calls k = .returned part (.ok ()) → s'.writer.calls k = s.writer.calls k :=
    fun k part => step_returned wired run
  cases step_clientMove wired locked run with
  | still same => exact ⟨via, through.keep (by rw [same]; exact fun _ _ => id) calls⟩
  | own moved silent =>
    refine ⟨via, through.keep (fun n frame found => ?_) calls⟩
    rcases Client.step_requestFrame linked moved found with before | ⟨rfl, _⟩
    · exact before
    · cases silent
  | @returned t k frame part result moved _ writes fresh done whole =>
    by_cases mine : ∃ n, t = .call n ∧ result = .ok ()
    · obtain ⟨n, rfl, rfl⟩ := mine
      -- It has not sent anything before, and no one else has used this call.
      have before : ∀ m frame', m ≠ n → s'.client.requestFrame m = some frame' →
          s.client.requestFrame m = some frame' := by
        intro m frame' other found
        rcases Client.step_requestFrame linked moved found with before | ⟨same, _⟩
        · exact before
        · cases same
          exact absurd rfl other
      have earlier : ∀ m, m ≠ n → (s'.client.requestFrame m).isSome → (s.client.requestFrame m).isSome ∧ via m ≠ k := by
        intro m other some
        obtain ⟨frame', found⟩ := Option.isSome_iff_exists.mp some
        have old := before m frame' other found
        obtain ⟨_, returned, _⟩ := through.whole m frame' old
        exact ⟨by rw [old]; rfl, fresh _ _ _ returned⟩
      refine ⟨Function.update via n k, ⟨fun m frame' found => ?_, fun m m' first second same => ?_⟩⟩
      · by_cases own : m = n
        · subst own
          refine ⟨part, by rw [Function.update_self]; exact done, whole.trans ?_⟩
          rcases Client.step_requestFrame linked moved found with old | ⟨_, writes'⟩
          · cases writes with
            | call here => simp [Client.requestFrame, here, CallPc.sent] at old
          · exact Client.writes_call writes writes'
        · obtain ⟨part', returned, whole'⟩ := through.whole m frame' (before m frame' own found)
          rw [Function.update_of_ne own]
          exact ⟨part', (calls _ _ returned).trans returned, whole'⟩
      · by_cases left : m = n <;> by_cases right : m' = n
        · rw [left, right]
        · rw [left, Function.update_self, Function.update_of_ne right] at same
          exact absurd same.symm (earlier m' right second).2
        · rw [right, Function.update_self, Function.update_of_ne left] at same
          exact absurd same (earlier m left first).2
        · rw [Function.update_of_ne left, Function.update_of_ne right] at same
          exact through.apart m m' (earlier m left first).1 (earlier m' right second).1 same
    · refine ⟨via, through.keep (fun n frame' found => ?_) calls⟩
      rcases Client.step_requestFrame linked moved found with before | ⟨same, _⟩
      · exact before
      · refine absurd ⟨n, ?_⟩ mine
        cases t <;> cases same
        exact ⟨rfl, rfl⟩

end Transport

theorem reach_sentThrough {cfg : ConnectionConfig} {allowed : Transport → Traffic → Prop} {s : Transport}
    (reach : (transport cfg).Reach allowed s) : ∃ via, s.SentThrough via := by
  refine reach.invariant (fun s => ∃ via, s.SentThrough via) ?_ ?_
  · rintro _ rfl
    have nothing : ∀ n, Client.requestFrame {} n = none := fun _ => rfl
    exact ⟨id, by simp [Transport.client, nothing], by simp [Transport.client, nothing]⟩
  · rintro s a s' before ⟨via, through⟩ _ run
    exact Transport.step_sentThrough through (reach_wired before) (reach_writer_locked before)
      (reach_linked (reach_client (reach_reception before))) run

/-- What distinct members stand for are distinct parts of a list, when each has a place of its
own in it. -/
theorem filterMap_subperm {α β γ : Type} {f : α → Option β} {g : γ → Option β} {via : α → γ} {l : List α} {all : List γ}
    (distinct : l.Nodup) (place : ∀ a b, f a = some b → via a ∈ all ∧ g (via a) = some b)
    (apart : ∀ a a', (f a).isSome → (f a').isSome → via a = via a' → a = a') :
    (l.filterMap f).Subperm (all.filterMap g) := by
  have places : ((l.filter fun a => (f a).isSome).map via).Subperm all := by
    refine List.subperm_of_subset ((distinct.filter _).map_on ?_) ?_
    · intro a first a' second same
      exact apart a a' (List.mem_filter.mp first).2 (List.mem_filter.mp second).2 same
    · intro c member
      obtain ⟨a, found, rfl⟩ := List.mem_map.mp member
      obtain ⟨b, some⟩ := Option.isSome_iff_exists.mp (List.mem_filter.mp found).2
      exact (place a b some).1
  have same : l.filterMap f = ((l.filter fun a => (f a).isSome).map via).filterMap g := by
    rw [List.filterMap_map, List.filterMap_filter]
    refine List.filterMap_congr fun a _ => ?_
    cases some : f a with
    | none => rfl
    | some b => exact (place a b some).2.symm
  obtain ⟨part, perm, sublist⟩ := places
  rw [same]
  exact ⟨part.filterMap g, perm.filterMap g, sublist.filterMap g⟩

namespace Transport
variable {s : Transport}

def wholeFrame (w : SocketWriter) (k : Nat) : Option Bytes :=
  ((w.calls k).part.filter fun x => x.Done).map Fragment.whole

theorem complete_fragments (w : SocketWriter) : Fragment.complete w.fragments = w.order.filterMap (wholeFrame w) := by
  rw [Fragment.complete, SocketWriter.fragments, List.filter_filterMap, List.map_filterMap]
  exact List.filterMap_congr fun k _ => rfl

theorem SentThrough.subperm {via : Nat → Nat} (through : s.SentThrough via) (locked : s.writer.Locked)
    {calls : List Nat} (distinct : calls.Nodup) : (calls.filterMap s.client.requestFrame).Subperm s.gone := by
  have written : (calls.filterMap s.client.requestFrame).Subperm (s.writer.order.filterMap (wholeFrame s.writer)) := by
    refine filterMap_subperm distinct (fun n frame found => ?_) through.apart
    obtain ⟨part, returned, rfl⟩ := through.whole n frame found
    have done := locked.ok _ _ returned
    exact ⟨(locked.entered _).mpr (by rw [returned]; rfl), by simp [wholeFrame, returned, WriteCall.part, done]⟩
  rw [← complete_fragments] at written
  exact written.trans (List.sublist_append_right _ _).subperm

end Transport

def IoPc.counted : IoPc → Option (Nat × IncomingFrame)
  | .arrived index frame | .stamped index frame | .reap _ (.dispatch index frame)
  | .reaping _ (.dispatch index frame) | .dispatch index frame | .dispatching index frame => some (index, frame)
  | _ => none

theorem Client.step_counted {cfg : ConnectionConfig} {s s' : Client} {a : Action} (run : step cfg s a = some s')
    (own : ∀ reply, a ≠ .io (.read reply)) :
    s'.inbound = s.inbound ∧ ∀ x ∈ s'.io.counted, x ∈ s.io.counted := by
  rcases step_sides run with ⟨_, _, _, _, _, _, _, _, _, rfl⟩ | ⟨input, rfl, run⟩ | ⟨input, rfl, run⟩
  · exact ⟨rfl, fun _ => id⟩
  · obtain ⟨_, _, _, _, _, _, _, _, _, _, _, _, _, _, _, same⟩ := controlStep_writes run
    refine ⟨by rw [same], ?_⟩
    cases controlStep_move run with
    | handshake => simp
    | startIo => simp [IoPc.counted]
    | _ => exact fun _ => id
  · cases ioStep_move run with
    | frame | timeout | readError => exact absurd rfl (own _)
    | expire | answer | failOne => exact ⟨rfl, fun _ => id⟩
    | @reap _ next here | @reaped _ next here => cases next <;> simp [here, afterReap, IoPc.counted]
    | top | readClosing =>
      refine ⟨rfl, ?_⟩
      simp only
      split <;> simp [IoPc.counted]
    | _ => simp_all [IoPc.counted]

namespace Reception
variable {cfg : ConnectionConfig} {s s' : Reception}

structure Indexed (s : Reception) : Prop where
  count : s.client.inbound = s.arrived.length
  inHand : ∀ index frame, (index, frame) ∈ s.client.io.counted → s.arrived[index]? = some frame
  answers : ∀ x ∈ s.client.dispatcher.settled, ∀ index frame, x.cause = .response index frame →
    s.arrived[index]? = some frame

theorem step_indexed {o : Occurrence} (indexed : s.Indexed) (run : step cfg s o = some s') : s'.Indexed := by
  obtain ⟨count, inHand, answers⟩ := indexed
  cases step_move run with
  | @client a client moved own =>
    obtain ⟨inbound, hand⟩ := Client.step_counted moved own
    refine ⟨inbound.trans count, fun index frame member => inHand index frame (hand _ member), ?_⟩
    rcases Client.step_settles moved with same | ⟨x, grown, settles⟩
    · intro y member
      rw [show (s.follow a client).client.dispatcher.settled = _ from same] at member
      exact answers y member
    · intro y member index frame cause
      rw [show (s.follow a client).client.dispatcher.settled = _ from grown] at member
      rcases List.mem_append.mp member with old | new
      · exact answers y old index frame cause
      · rw [List.mem_singleton.mp new] at cause
        cases settles with
        | answered here =>
          cases cause
          exact inHand index frame (by rw [here]; rfl)
        | _ => cases cause
  | more => exact ⟨count, inHand, answers⟩
  | @frame _ frame =>
    -- The new frame is the one behind all those that have a number.
    have later : ∀ (index : Nat) other, s.arrived[index]? = some other →
        (s.arrived ++ [frame])[index]? = some other := by
      intro index other found
      rwa [List.getElem?_append_left (List.getElem?_eq_some_iff.mp found).1]
    refine ⟨?_, fun index other member => ?_, fun x member index other cause => ?_⟩
    · simp [count]
    · cases member
      rw [count]
      exact List.getElem?_concat_length
    · exact later index other (answers x member index other cause)
  | timeout | failed => exact ⟨count, by simp [IoPc.counted], answers⟩

end Reception

theorem reach_indexed {cfg : ConnectionConfig} {allowed : Reception → Occurrence → Prop} {s : Reception}
    (reach : (reception cfg).Reach allowed s) : s.Indexed := by
  refine reach.invariant Reception.Indexed ?_ ?_
  · rintro _ rfl
    exact ⟨rfl, by simp [IoPc.counted], by simp⟩
  · intro s o s' _ indexed _ run
    exact Reception.step_indexed indexed run

/-! ## Success -/

/-- What the calls that have returned without an error rest on. Each has sent one frame, which
went out whole and is read as its own command under its own id, with its arguments if these can be
carried; no two stand for the same place in the stream, nor in what the peer reads of it; and each
two-way call has read a response with its id that no other call has read. -/
structure EndToEnd (s : Transport) : Prop where
  stream : s.gone.flatten <+: s.stream
  sent : ∀ n op value, s.client.calls n = .returned op (.ok value) →
    ∃ frame ∈ s.gone, s.client.requestFrame n = some frame ∧
      parsed frame = some ⟨op.key, op.version,
        (if op.isOneway then [] else writeU32 (s.client.requestId n)) ++ op.body, none⟩ ∧
      (op.Recovered (s.client.requestId n) frame ↔ op.Carried)
  apart : ∀ calls : List Nat, calls.Nodup → (calls.filterMap s.client.requestFrame).Subperm s.gone
  requests : (∀ frame ∈ s.offered, SizeFits frame) → ∀ calls : List Nat, calls.Nodup →
    (calls.filterMap s.client.requestRead).Subperm (frames s.stream)
  response : ∀ n op value, s.client.calls n = .returned op (.ok value) → op.isOneway = false →
    ∃ index frame, s.client.dispatcher.answeredBy n = some index ∧
      (frames s.reception.received)[index]? = some frame ∧ Key.isResponse frame.key = true ∧
      frame.correlationId = some (s.client.requestId n) ∧ op.finish frame = .ok value
  oneCall : ∀ n m index, s.client.dispatcher.answeredBy n = some index →
    s.client.dispatcher.answeredBy m = some index → n = m

theorem parsed_op (op : Op) (cid : UInt32) : parsed (op.frame cid) =
    some ⟨op.key, op.version, (if op.isOneway then [] else writeU32 cid) ++ op.body, none⟩ := by
  unfold Op.frame
  split
  · rw [encodeOnewayFrame, parsed_sizePrefixed, payloadFrame_request op.request_key]
    rfl
  · rw [encodeRequestFrame, parsed_sizePrefixed, List.append_assoc (writeU16 op.key ++ writeU16 op.version),
      payloadFrame_request op.request_key]

theorem answeredBy_of_value {s : Reception} {n : Nat} {frame : IncomingFrame} (indexed : s.Indexed)
    (linked : Linked s.client) (set : s.client.dispatcher.value n = some (.ok frame)) :
    ∃ index, s.client.dispatcher.answeredBy n = some index ∧ s.arrived[index]? = some frame ∧
      Key.isResponse frame.key = true ∧ frame.correlationId = some (s.client.requestId n) := by
  obtain ⟨x, first, result⟩ := Option.map_eq_some_iff.mp set
  have member := List.mem_of_find?_eq_some first
  have owner : x.entry.owner = n := by simpa using List.find?_some first
  have valid := linked.table.valid x member
  obtain ⟨k, ticket, cid⟩ := linked.table.owned x.entry (Dispatcher.mem_entries_settled member)
  cases cause : x.cause with
  | response index other =>
    rw [cause] at result valid
    cases result
    refine ⟨index, ?_, indexed.answers x member index frame cause, valid.1, ?_⟩
    · rw [Dispatcher.answeredBy, first, Option.bind_some, cause]
      rfl
    · rw [valid.2, cid, Client.requestId, ← owner, ticket]
      rfl
  | expired now =>
    rw [cause] at result
    cases result
  | failed e =>
    rw [cause] at result
    cases result

/-- That holds, as for the stream, in the runs in which the peer accepts no byte after a frame was
cut; what the peer reads is known where the size of each frame offered fits its size field. -/
theorem success_end_to_end {cfg : ConnectionConfig} {s : Transport}
    (reach : (transport cfg).Reach Transport.SendsBehindWhole s) : EndToEnd s := by
  have received := reach_reception reach
  have linked : Linked s.client := reach_linked (reach_client received)
  have locked := reach_writer_locked reach
  obtain ⟨via, through⟩ := reach_sentThrough reach
  have apart : ∀ calls : List Nat, calls.Nodup → (calls.filterMap s.client.requestFrame).Subperm s.gone :=
    fun calls distinct => through.subperm locked distinct
  constructor
  case stream =>
    obtain ⟨rest, whole, _⟩ := stream_gone reach
    exact ⟨rest, whole.symm⟩
  case sent =>
    intro n op value here
    have found : s.client.requestFrame n = some (op.frame (s.client.requestId n)) := by
      rw [Client.requestFrame, here]
      rfl
    have alone := apart [n] (List.nodup_singleton n)
    refine ⟨_, alone.subset ?_, found, parsed_op op _, op.recovered_iff_carried _⟩
    simp [found]
  case apart => exact apart
  case requests =>
    intro fits calls distinct
    obtain ⟨part, perm, sublist⟩ := apart calls distinct
    have read : calls.filterMap s.client.requestRead = (calls.filterMap s.client.requestFrame).filterMap parsed :=
      List.filterMap_filterMap.symm
    rw [read, stream_frames reach fits]
    exact ⟨part.filterMap parsed, perm.filterMap parsed, sublist.filterMap parsed⟩
  case response =>
    intro n op value here twoway
    obtain ⟨frame, set, finish⟩ := (reach_received (reach_client received)).returned n op value here twoway
    obtain ⟨index, answered, arrived, response, cid⟩ := answeredBy_of_value (reach_indexed received) linked set
    refine ⟨index, frame, answered, ?_, response, cid, finish⟩
    rw [(reach_tracked received).frames]
    exact arrived
  case oneCall =>
    intro n m index first second
    obtain ⟨x, found, left⟩ := Option.bind_eq_some_iff.mp first
    obtain ⟨y, found', right⟩ := Option.bind_eq_some_iff.mp second
    have owner : x.entry.owner = n := by simpa using List.find?_some found
    have owner' : y.entry.owner = m := by simpa using List.find?_some found'
    have same := (reach_numbered (reach_client received)).same (List.mem_of_find?_eq_some found)
      (List.mem_of_find?_eq_some found') left right
    rw [← owner, ← owner', same]

def sending (n : Nat) (op : Op) (steps bytes : Nat) : List Traffic :=
  (.invoke n op :: List.replicate steps (.call n .none)).map (fun a => .other (.client a)) ++
    [.write (.call n), .progress (.call n) .lock, .progress (.call n) (.send (.accepted bytes)),
      .progress (.call n) .finish]

def deleteAnswered : List Occurrence :=
  [.client (.call 1 .none), .recv (.data 0 [0, 0, 10]), .recv (.data 0x80 [0x0e, 0, 1, 0, 0, 0, 100, 0, 1])] ++
    List.replicate 5 (.client (.io .none)) ++
    [.client (.io (.pick 0)), .client (.call 1 .none), .client (.call 1 .none)]

def storedAndDeleted : List Traffic :=
  (listening ⟨1048576, 0⟩).map .other ++ sending 0 (.storeOffset (text "r") (text "s") 7) 3 22 ++
    sending 1 (.deleteStream (text "s") false) 7 15 ++ deleteAnswered.map .other

theorem success_end_to_end_two : ∃ s, (transport {}).Reach Transport.SendsBehindWhole s ∧
    s.client.calls 0 = .returned (.storeOffset (text "r") (text "s") 7) (.ok .done) ∧
    s.client.calls 1 = .returned (.deleteStream (text "s") false) (.ok .done) ∧
    (∀ frame ∈ s.offered, SizeFits frame) ∧ EndToEnd s := by
  have ran : ((transport {}).exec Transport.SendsBehindWhole {} storedAndDeleted).any (fun s =>
      s.client.calls 0 = .returned (.storeOffset (text "r") (text "s") 7) (.ok .done) ∧
      s.client.calls 1 = .returned (.deleteStream (text "s") false) (.ok .done) ∧
      ∀ frame ∈ s.offered, SizeFits frame) = true := by decide +kernel
  obtain ⟨s, reach, holds⟩ := Machine.reach_of_exec rfl ran
  obtain ⟨stored, deleted, fits⟩ := of_decide_eq_true holds
  exact ⟨s, reach, stored, deleted, fits, success_end_to_end reach⟩

end RmqStream
