import RmqStream.Client.Transport

/-! The stream that goes out is made of the frames that the client hands over, in order.

The client puts a frame on its wire when `write_all` has returned; the writer takes it up when
its call gets the lock. The two orders are the same because the lock is held until the return.
Two threads are never inside with the same call, and a thread that is inside stands at its
write until it comes back. -/

set_option autoImplicit false

namespace RmqStream
open Library Commands

/-! ## A call of `write_all` in the writer -/

def WriteCall.Carries (frame : Bytes) : WriteCall → Prop
  | .waiting mine => mine = frame
  | .sending part => part.whole = frame
  | _ => False

def WriteCall.hasFailed : WriteCall → Bool
  | .returned _ (.error _) => true
  | _ => false

namespace SocketWriter

/-- The frames in the order in which their calls got the lock. -/
def begun (s : SocketWriter) : List Bytes := s.fragments.map Fragment.whole

def current (s : SocketWriter) : Option Bytes := s.mu.bind fun k => (s.calls k).part.map Fragment.whole

def failed (s : SocketWriter) : Bool := s.order.any fun n => (s.calls n).hasFailed

variable {s w : SocketWriter}

inductive Advances (s : SocketWriter) (k : Nat) (frame : Bytes) (w : SocketWriter) : Prop where
  | lock (free : s.mu = none) (mu : w.mu = some k) (begun : w.begun = s.begun ++ [frame])
      (carries : (w.calls k).Carries frame) (current : w.current = some frame)
  | going (mu : w.mu = s.mu) (begun : w.begun = s.begun) (carries : (w.calls k).Carries frame)
      (current : w.current = s.current)
  | returned {part : Fragment UInt8} {result : Result Unit} (mu : w.mu = none) (begun : w.begun = s.begun)
      (done : w.calls k = .returned part result) (whole : part.whole = frame) (current : s.current = some frame)

theorem begun_wait {n : Nat} {frame : Bytes} (absent : n ∉ s.order) :
    (s.setCall n (.waiting frame)).begun = s.begun := by
  simp only [begun, fragments, setCall, filterMap_update absent]

theorem begun_hold {n : Nat} {part next : Fragment UInt8} {c : WriteCall} {mu : Option Nat} {wire : Bytes}
    (locked : s.Locked) (here : s.calls n = .sending part) (after : c.part = some next)
    (whole : next.whole = part.whole) :
    begun { s with calls := Function.update s.calls n c, mu := mu, wire := wire } = s.begun := by
  obtain ⟨before, order, absent, split⟩ := locked.split here
  rw [begun, begun, split]
  simp only [fragments, order, List.filterMap_append, filterMap_update absent, List.map_append]
  simp [after, whole]

theorem current_holder {n : Nat} {part : Fragment UInt8} (locked : s.Locked) (here : s.calls n = .sending part) :
    s.current = some part.whole := by
  simp [current, locked.holder n part here, here, WriteCall.part]

theorem ret_advances {n : Nat} {part : Fragment UInt8} {result : Result Unit} (locked : s.Locked)
    (here : s.calls n = .sending part) : Advances s n part.whole (s.ret n part result) :=
  .returned rfl (begun_hold locked here rfl rfl) (Function.update_self n _ _) rfl (current_holder locked here)

theorem step_advances {event : WriteEvent} {k : Nat} {frame : Bytes} (locked : s.Locked)
    (carries : (s.calls k).Carries frame) (run : s.step (event.of k) = some w) : Advances s k frame w := by
  have carried : ∀ {part}, s.calls k = .sending part → part.whole = frame := by
    intro part here
    rwa [here] at carries
  cases event with
  | lock =>
    cases step_move run with
    | lock here free =>
      rw [here] at carries
      cases carries
      refine .lock free rfl ?_ ?_ ?_
      · rw [begun, fragments_lock (locked.absent (by rw [here]; rfl)), List.map_append]
        rfl
      · simp only [setCall, Function.update_self]
        rfl
      · simp [current, setCall, WriteCall.part, Fragment.start]
  | send outcome =>
    cases step_move run with
    | @accepted _ count part here _ fits =>
      refine .going rfl (begun_hold locked here rfl rfl) ?_ ?_
      · simp only [setCall, Function.update_self]
        exact (carried here : part.whole = frame)
      · rw [current_holder locked here]
        simp [current, setCall, locked.holder k part here, WriteCall.part, Fragment.advance]
    | interrupted here => exact .going rfl rfl carries rfl
    | failed here =>
      rw [← carried here]
      exact ret_advances locked here
  | finish =>
    cases step_move run with
    | finish here =>
      rw [← carried here]
      exact ret_advances locked here

theorem step_others {event : WriteEvent} {k m : Nat} (other : m ≠ k) (run : s.step (event.of k) = some w) :
    w.calls m = s.calls m := by
  cases event with
  | lock =>
    cases step_move run
    exact Function.update_of_ne other _ _
  | send outcome =>
    cases step_move run with
    | interrupted => rfl
    | accepted | failed => exact Function.update_of_ne other _ _
  | finish =>
    cases step_move run
    exact Function.update_of_ne other _ _

theorem step_wire {a : WriteAction} (run : s.step a = some w) :
    w.wire = s.wire ++ w.wire.drop s.wire.length := by
  have grown : ∃ more, w.wire = s.wire ++ more := by
    cases step_move run with
    | accepted => exact ⟨_, rfl⟩
    | _ => exact ⟨[], (List.append_nil _).symm⟩
  obtain ⟨more, same⟩ := grown
  rw [same, List.drop_left]

end SocketWriter

/-! ## A thread that writes -/

namespace Client
variable {cfg : ConnectionConfig} {s s' : Client} {t : WritingThread} {frame : Bytes}

/-- Where a thread stands when it has a frame to hand over. -/
inductive Writes (s : Client) : WritingThread → Bytes → Prop where
  | call {n : Nat} {op : Op} {cid : UInt32} (here : s.calls n = .write op cid) : Writes s (.call n) (op.frame cid)
  | close {n : Nat} {cid : UInt32} (here : s.control = .closeWrite n cid) : Writes s .close (closeFrame cid)
  | heartbeat {now : Int} (here : s.heartbeat = .write now) : Writes s .heartbeat heartbeatFrame

theorem writes_call {n : Nat} {frame frame' : Bytes} (first : s.Writes (.call n) frame)
    (second : s.Writes (.call n) frame') : frame = frame' := by
  cases first with
  | call here =>
    cases second with
    | call here' =>
      rw [here] at here'
      cases here'
      rfl

theorem toWrite_iff : s.toWrite t = some frame ↔ s.Writes t frame := by
  constructor
  · intro found
    cases t with
    | call n =>
      simp only [toWrite] at found
      split at found <;> cases found
      exact .call ‹_›
    | close =>
      simp only [toWrite] at found
      split at found <;> cases found
      exact .close ‹_›
    | heartbeat =>
      simp only [toWrite] at found
      split at found <;> cases found
      exact .heartbeat ‹_›
  · rintro (here | here | here) <;> simp [toWrite, here]

theorem Writes.framed (writes : s.Writes t frame) : Framed frame := by
  cases writes with
  | call => exact framed_op _ _
  | close => exact framed_close _
  | heartbeat => exact framed_heartbeat

theorem step_returns {result : Result Unit} (writes : s.Writes t frame)
    (run : step cfg s (t.returns result) = some s') : s'.wire = s.wire ++ [⟨t.source, frame, s.state⟩] := by
  cases writes with
  | call here =>
    cases callStep_move run with
    | writeFailed other | write other => simp_all [setCall, Client.write, WritingThread.source]
  | close here =>
    cases controlStep_move run
    simp_all [write, WritingThread.source]
  | heartbeat here =>
    cases heartbeatStep_move run
    simp_all [write, WritingThread.source]

theorem step_writes {a : Action} (staged : s.control.Staged s) (writes : s.Writes t frame)
    (run : step cfg s a = some s') (other : ∀ result, a ≠ t.returns result) : s'.Writes t frame := by
  cases writes with
  | @call n op cid here =>
    rcases step_calls run n with same | ⟨idle, _⟩ | ⟨input, rfl⟩
    · exact .call (same.trans here)
    · rw [idle] at here
      cases here
    · cases callStep_move run with
      | writeFailed | write => exact absurd rfl (other _)
      | _ => simp_all
  | @close n cid here =>
    rcases step_control run with same | idle | ⟨input, rfl⟩
    · exact .close (same.trans here)
    · rw [idle] at here
      cases here
    · cases controlStep_move run with
      | closeWrite => exact absurd rfl (other _)
      | _ => simp_all
  | @heartbeat now here =>
    rcases step_threads run with ⟨_, _, _, _, _, rfl⟩ | ⟨n, input, rfl, run⟩ | ⟨input, rfl, run⟩ |
      ⟨input, rfl, run⟩ | ⟨input, rfl, run⟩
    · exact .heartbeat here
    · obtain ⟨_, _, _, _, rfl⟩ := callStep_writes run
      exact .heartbeat here
    · cases controlStep_move run with
      | handshake => exact .heartbeat ((handshakeStep_heartbeat _ _ _).trans here)
      | startHeartbeat started =>
        rw [started] at staged
        rw [staged.2.2] at here
        cases here
      | _ => exact .heartbeat here
    · obtain ⟨_, _, _, _, _, _, _, _, _, rfl⟩ := ioStep_writes run
      exact .heartbeat here
    · cases heartbeatStep_move run with
      | write => exact absurd rfl (other _)
      | _ => simp_all

theorem step_script {replies : List Reply} (run : step cfg s (.control (.script replies)) = some s') :
    s.control = .connectHandshake := by
  cases controlStep_move run
  assumption

theorem step_greets {a : Action} (own : a.isReturn = false) (run : step cfg s a = some s') :
    s'.handed = s.handed ∧ (s'.greeting.map WireEntry.frame).flatten =
      (s.greeting.map WireEntry.frame).flatten ++ greeted cfg (.client a) := by
  by_cases shakes : ∃ replies, a = .control (.script replies)
  · obtain ⟨replies, rfl⟩ := shakes
    cases controlStep_move run with
    | handshake here =>
      obtain ⟨greeting, handed⟩ := greeting_grow (fun w member => (handshake_entry member).1)
        (handshakeStep_wire cfg s replies)
      rw [greeting, List.map_append, List.flatten_append, handshake_frames]
      exact ⟨handed, rfl⟩
  · have silent := greeted_other cfg shakes
    obtain ⟨more, handover, grown⟩ := step_handover run
    cases handover with
    | nothing => simp [handed, greeting, grown, silent]
    | handshake => exact absurd ⟨_, rfl⟩ shakes
    | call | close | heartbeat => cases own

end Client

theorem Reception.step_unreturned {cfg : ConnectionConfig} {s s' : Reception} {o : Occurrence}
    (own : o.isReturn = false) (run : s.step cfg o = some s') : ∃ a, s.client.step cfg a = some s'.client ∧ a.isReturn = false ∧
      greeted cfg o = greeted cfg (.client a) := by
  cases step_move run with
  | @client a _ moved => exact ⟨a, moved, own, rfl⟩
  | more => exact ⟨.tick 0, by simp [Client.step], rfl, rfl⟩
  | @frame _ frame here => exact ⟨.io (.read (.ok frame)), by simp only [Client.step, Client.ioStep, here], rfl, rfl⟩
  | @timeout _ e here _ kind =>
    exact ⟨.io (.read (.error e)), by simp only [Client.step, Client.ioStep, here, kind, ↓reduceIte], rfl, rfl⟩
  | @failed _ e here _ kind =>
    exact ⟨.io (.read (.error e)), by simp only [Client.step, Client.ioStep, here, kind, ↓reduceIte], rfl, rfl⟩

/-! ## Who is writing what -/

namespace Transport
variable {cfg : ConnectionConfig} {s s' : Transport}

/-- The calls of `write_all` that are under way are those that a thread is in, and the lock
has been taken for the frames handed over, and for the one that is being sent. -/
structure Wired (s : Transport) : Prop where
  fresh : ∀ k, s.calls ≤ k → s.writer.calls k = .idle
  mine : ∀ t k, s.inside t = some k → ∃ frame, s.client.Writes t frame ∧ (s.writer.calls k).Carries frame
  alone : ∀ t t' k, s.inside t = some k → s.inside t' = some k → t = t'
  holder : ∀ k, s.writer.mu = some k → ∃ t, s.inside t = some k
  order : s.client.handed.map WireEntry.frame ++ s.writer.current.toList = s.writer.begun
  stream : s.stream = (s.client.greeting.map WireEntry.frame).flatten ++ s.writer.wire

theorem Wired.below (wired : s.Wired) {t : WritingThread} {k : Nat} (inside : s.inside t = some k) : k < s.calls := by
  by_contra above
  obtain ⟨frame, _, carries⟩ := wired.mine t k inside
  rw [wired.fresh k (Nat.not_lt.mp above)] at carries
  exact carries

theorem Wired.quiet (wired : s.Wired) (locked : s.writer.Locked) (untouched : s.client.Untouched)
    (staged : s.client.control.Staged s.client) (here : s.client.control = .connectHandshake)
    (nothing : s.client.wire = []) : s.writer.wire = [] := by
  rw [here] at staged
  have nobody : s.writer.mu = none := by
    rw [Option.eq_none_iff_forall_not_mem]
    intro k held
    obtain ⟨t, inside⟩ := wired.holder k held
    obtain ⟨frame, writes, _⟩ := wired.mine t k inside
    cases writes with
    | @call n _ _ calls =>
      have outside := (untouched (by simp [staged.1, ConnectionState.rank])).2 n
      rw [calls] at outside
      exact outside
    | close closing => simp [here] at closing
    | heartbeat beating => simp [staged.2.2] at beating
  have order := wired.order
  rw [Client.handed, nothing, SocketWriter.current, nobody] at order
  have empty : s.writer.fragments = [] := List.map_eq_nil_iff.mp order.symm
  rw [locked.wire, empty]
  rfl

theorem other_wired {o : Occurrence} {r : Reception} (wired : s.Wired) (locked : s.writer.Locked)
    (reach : (RmqStream.client cfg).Reach Machine.anyStep s.client) (own : o.isReturn = false)
    (run : s.reception.step cfg o = some r) :
    Wired { s with reception := r, stream := s.stream ++ greeted cfg o } := by
  obtain ⟨a, moved, silent, greets⟩ := Reception.step_unreturned own run
  have staged := reach_staged reach
  obtain ⟨handed, greeting⟩ := Client.step_greets silent moved
  have early : greeted cfg o = [] ∨ s.writer.wire = [] := by
    by_cases shakes : ∃ replies, a = .control (.script replies)
    · obtain ⟨replies, rfl⟩ := shakes
      have here := Client.step_script moved
      have nothing := (reach_wellFormed reach).silent (.inr (.inr here))
      exact .inr (wired.quiet locked (reach_kept reach).untouched staged here nothing)
    · exact .inl (greets.trans (greeted_other cfg shakes))
  refine ⟨wired.fresh, fun t k inside => ?_, wired.alone, wired.holder, ?_, ?_⟩
  · obtain ⟨frame, writes, carries⟩ := wired.mine t k inside
    refine ⟨frame, Client.step_writes staged writes moved fun result same => ?_, carries⟩
    rw [same] at silent
    cases t <;> cases silent
  · have order := wired.order
    rwa [client, ← handed] at order
  · have stream := wired.stream
    show s.stream ++ greeted cfg o = (r.client.greeting.map WireEntry.frame).flatten ++ s.writer.wire
    rw [greeting, stream, ← greets]
    rcases early with none | empty
    · rw [none, List.append_nil, List.append_nil]
      rfl
    · rw [empty, List.append_nil, List.append_nil]
      rfl

theorem write_wired {t : WritingThread} {frame : Bytes} {w : SocketWriter} (wired : s.Wired) (locked : s.writer.Locked)
    (outside : s.inside t = none) (here : s.client.toWrite t = some frame)
    (run : s.writer.step (.call s.calls frame) = some w) :
    Wired { s with writer := w, inside := Function.update s.inside t (some s.calls), calls := s.calls + 1 } := by
  cases SocketWriter.step_move run with
  | call idle =>
    have others : ∀ k, k ≠ s.calls → (s.writer.setCall s.calls (.waiting frame)).calls k = s.writer.calls k :=
      fun k other => Function.update_of_ne other _ _
    -- Whoever is inside is there with an earlier call.
    have older : ∀ t' k, t' ≠ t → Function.update s.inside t (some s.calls) t' = some k →
        s.inside t' = some k ∧ k ≠ s.calls := by
      intro t' k other inside
      rw [Function.update_of_ne other] at inside
      exact ⟨inside, (wired.below inside).ne⟩
    constructor
    case fresh =>
      intro k above
      rw [others k (Nat.ne_of_gt above)]
      exact wired.fresh k (Nat.le_of_succ_le above)
    case mine =>
      intro t' k inside
      by_cases same : t' = t
      · subst same
        simp only [Function.update_self, Option.some.injEq] at inside
        subst inside
        exact ⟨frame, Client.toWrite_iff.mp here, by simp [SocketWriter.setCall, WriteCall.Carries]⟩
      · obtain ⟨before, other⟩ := older t' k same inside
        rw [others k other]
        exact wired.mine t' k before
    case alone =>
      intro t₁ t₂ k first second
      by_cases mine : t₁ = t <;> by_cases yours : t₂ = t
      · rw [mine, yours]
      · subst mine
        simp only [Function.update_self, Option.some.injEq] at first
        exact absurd first.symm (older t₂ k yours second).2
      · subst yours
        simp only [Function.update_self, Option.some.injEq] at second
        exact absurd second.symm (older t₁ k mine first).2
      · exact wired.alone t₁ t₂ k (older t₁ k mine first).1 (older t₂ k yours second).1
    case holder =>
      intro k held
      obtain ⟨t', inside⟩ := wired.holder k held
      have other : t' ≠ t := by
        rintro rfl
        rw [outside] at inside
        cases inside
      exact ⟨t', by simpa only [Function.update_of_ne other] using inside⟩
    case order =>
      have current : (s.writer.setCall s.calls (.waiting frame)).current = s.writer.current := by
        simp only [SocketWriter.current, SocketWriter.setCall]
        cases held : s.writer.mu with
        | none => rfl
        | some k =>
          obtain ⟨t', inside⟩ := wired.holder k held
          simp only [Option.bind_some, Function.update_of_ne (wired.below inside).ne]
      rw [current, SocketWriter.begun_wait (locked.absent (by rw [idle]; rfl))]
      exact wired.order
    case stream => exact wired.stream

theorem onward_wired {t : WritingThread} {event : WriteEvent} {k : Nat} {w : SocketWriter} (wired : s.Wired)
    (locked : s.writer.Locked) (inside : s.inside t = some k) (run : s.writer.step (event.of k) = some w)
    (more : ∀ part result, w.calls k ≠ .returned part result) :
    Wired { s with writer := w, stream := s.stream ++ w.wire.drop s.writer.wire.length } := by
  obtain ⟨frame, writes, carries⟩ := wired.mine t k inside
  have advances := SocketWriter.step_advances locked carries run
  have still : (w.calls k).Carries frame := by
    cases advances with
    | lock _ _ _ carries | going _ _ carries => exact carries
    | returned _ _ done => exact absurd done (more _ _)
  constructor
  case fresh =>
    intro m above
    rw [SocketWriter.step_others (Nat.ne_of_gt (Nat.lt_of_lt_of_le (wired.below inside) above)) run]
    exact wired.fresh m above
  case mine =>
    intro t' m other
    by_cases same : m = k
    · subst same
      rw [← wired.alone t t' m inside other]
      exact ⟨frame, writes, still⟩
    · rw [SocketWriter.step_others same run]
      exact wired.mine t' m other
  case alone => exact wired.alone
  case holder =>
    intro m held
    cases advances with
    | lock _ mu =>
      rw [mu] at held
      cases held
      exact ⟨t, inside⟩
    | going mu => exact wired.holder m (mu ▸ held)
    | returned _ _ done => exact absurd done (more _ _)
  case order =>
    have order := wired.order
    cases advances with
    | lock free _ begun _ current =>
      have nobody : s.writer.current = none := by rw [SocketWriter.current, free]; rfl
      rw [nobody, Option.toList_none, List.append_nil] at order
      rw [begun, current, ← order]
      rfl
    | going _ begun _ current =>
      rw [begun, current]
      exact order
    | returned _ _ done => exact absurd done (more _ _)
  case stream =>
    show s.stream ++ _ = (s.client.greeting.map WireEntry.frame).flatten ++ w.wire
    rw [wired.stream, List.append_assoc, ← SocketWriter.step_wire run]

theorem returned_wired {t : WritingThread} {event : WriteEvent} {k : Nat} {w : SocketWriter} {part : Fragment UInt8}
    {result : Result Unit} {r : Reception} (wired : s.Wired) (locked : s.writer.Locked)
    (reach : (RmqStream.client cfg).Reach Machine.anyStep s.client) (inside : s.inside t = some k)
    (run : s.writer.step (event.of k) = some w) (done : w.calls k = .returned part result)
    (back : s.reception.step cfg (.client (t.returns result)) = some r) :
    Wired { s with
      reception := r, writer := w, inside := Function.update s.inside t none
      stream := s.stream ++ w.wire.drop s.writer.wire.length } := by
  obtain ⟨frame, writes, carries⟩ := wired.mine t k inside
  obtain ⟨_, after, moved, same⟩ := Reception.step_client back
  have client : r.client = after := by rw [same]; rfl
  rw [← client] at moved
  obtain ⟨mu, begun, current⟩ : w.mu = none ∧ w.begun = s.writer.begun ∧ s.writer.current = some frame := by
    cases SocketWriter.step_advances locked carries run with
    | lock _ _ _ carries | going _ _ carries =>
      rw [done] at carries
      exact carries.elim
    | returned mu begun _ _ current => exact ⟨mu, begun, current⟩
  obtain ⟨greeting, handed⟩ := Client.handed_grow (by cases t <;> simp [WritingThread.source])
    (Client.step_returns writes moved)
  have others : ∀ t' m, Function.update s.inside t none t' = some m → t' ≠ t ∧ s.inside t' = some m ∧ m ≠ k := by
    intro t' m there
    by_cases same : t' = t
    · simp [same] at there
    · rw [Function.update_of_ne same] at there
      exact ⟨same, there, fun equal => same (wired.alone t' t k (equal ▸ there) inside)⟩
  constructor
  case fresh =>
    intro m above
    rw [SocketWriter.step_others (Nat.ne_of_gt (Nat.lt_of_lt_of_le (wired.below inside) above)) run]
    exact wired.fresh m above
  case mine =>
    intro t' m there
    obtain ⟨other, before, apart⟩ := others t' m there
    obtain ⟨frame', writes', carries'⟩ := wired.mine t' m before
    rw [SocketWriter.step_others apart run]
    exact ⟨frame', Client.step_writes (reach_staged reach) writes' moved
      fun result' same => other (WritingThread.returns_injective same).symm, carries'⟩
  case alone =>
    intro t₁ t₂ m first second
    exact wired.alone t₁ t₂ m (others t₁ m first).2.1 (others t₂ m second).2.1
  case holder =>
    intro m held
    rw [mu] at held
    cases held
  case order =>
    show r.client.handed.map WireEntry.frame ++ w.current.toList = w.begun
    rw [handed, begun, ← wired.order, current, SocketWriter.current, mu, List.map_append]
    simp
  case stream =>
    show s.stream ++ _ = (r.client.greeting.map WireEntry.frame).flatten ++ w.wire
    rw [greeting, wired.stream, List.append_assoc, ← SocketWriter.step_wire run]

theorem step_wired {a : Traffic} (wired : s.Wired) (locked : s.writer.Locked)
    (reach : (RmqStream.client cfg).Reach Machine.anyStep s.client) (run : step cfg s a = some s') : s'.Wired := by
  cases step_move run with
  | other own moved => exact other_wired wired locked reach own moved
  | write outside here moved => exact write_wired wired locked outside here moved
  | onward inside moved more => exact onward_wired wired locked inside moved more
  | returned inside moved done back => exact returned_wired wired locked reach inside moved done back

end Transport

theorem reach_wired {cfg : ConnectionConfig} {allowed : Transport → Traffic → Prop} {s : Transport}
    (reach : (transport cfg).Reach allowed s) : s.Wired := by
  refine reach.invariant Transport.Wired ?_ ?_
  · rintro _ rfl
    exact ⟨fun _ _ => rfl, by simp, by simp, by simp, rfl, rfl⟩
  · intro s a s' before wired _ run
    exact Transport.step_wired wired (reach_writer_locked before)
      (reach_client (reach_reception before)) run

/-! ## What the peer receives -/

namespace Transport
variable {s : Transport}

def gone (s : Transport) : List Bytes :=
  s.client.greeting.map WireEntry.frame ++ Fragment.complete s.writer.fragments

/-- The frames handed over, and the one that is being sent. -/
def offered (s : Transport) : List Bytes := s.client.frames ++ s.writer.current.toList

theorem Wired.holding (wired : s.Wired) (locked : s.writer.Locked) {k : Nat} (held : s.writer.mu = some k) :
    ∃ part, s.writer.calls k = .sending part := by
  obtain ⟨t, inside⟩ := wired.holder k held
  obtain ⟨frame, _, carries⟩ := wired.mine t k inside
  obtain ⟨before, order⟩ := locked.last k held
  have entered := (locked.entered k).mp (by rw [order]; exact List.mem_append_right _ List.mem_cons_self)
  cases call : s.writer.calls k with
  | sending part => exact ⟨part, rfl⟩
  | waiting => simp [call, WriteCall.part] at entered
  | idle | returned => simp [call, WriteCall.Carries] at carries

theorem done_of_returned {w : SocketWriter} (locked : w.Locked) (whole : w.failed = false) {m : Nat}
    (member : m ∈ w.order) (released : w.mu ≠ some m) : ∀ x ∈ (w.calls m).part, x.Done := by
  intro x part
  have intact := List.any_eq_false.mp whole m member
  cases call : w.calls m with
  | idle | waiting => simp [call, WriteCall.part] at part
  | sending other => exact absurd (locked.holder m other call) released
  | returned other result =>
    rw [call] at part intact
    cases part
    cases result with
    | ok => exact locked.ok m x call
    | error e => exact absurd rfl intact

theorem Wired.complete (wired : s.Wired) (locked : s.writer.Locked) (whole : s.writer.failed = false) :
    s.client.handed.map WireEntry.frame <+: Fragment.complete s.writer.fragments := by
  have order := wired.order
  cases held : s.writer.mu with
  | none =>
    have all : ∀ x ∈ s.writer.fragments, x.Done := by
      intro x member
      obtain ⟨m, inside, part⟩ := List.mem_filterMap.mp member
      exact done_of_returned locked whole inside (by simp [held]) x part
    rw [SocketWriter.current, held] at order
    rw [Fragment.complete_of_done all, ← SocketWriter.begun, ← order]
    simp
  | some k =>
    obtain ⟨part, sending⟩ := wired.holding locked held
    obtain ⟨before, last, absent, split⟩ := locked.split sending
    have all : ∀ x ∈ before.filterMap fun m => (s.writer.calls m).part, x.Done := by
      intro x member
      obtain ⟨m, inside, found⟩ := List.mem_filterMap.mp member
      refine done_of_returned locked whole (by rw [last]; exact List.mem_append_left _ inside) ?_ x found
      rw [held]
      rintro ⟨⟩
      exact absent inside
    rw [SocketWriter.current_holder locked sending, SocketWriter.begun, split, List.map_append] at order
    have mine := List.append_cancel_right order
    rw [split, Fragment.complete_append, Fragment.complete_of_done all, mine]
    exact List.prefix_append _ _

theorem Wired.framed (wired : s.Wired) (locked : s.writer.Locked) (formed : s.client.WellFormed) :
    ∀ frame ∈ s.offered, Framed frame := by
  intro frame member
  rcases List.mem_append.mp member with old | current
  · obtain ⟨w, wire, rfl⟩ := List.mem_map.mp old
    exact formed.framed w wire
  · rw [Option.mem_toList] at current
    cases held : s.writer.mu with
    | none => simp [SocketWriter.current, held] at current
    | some k =>
      obtain ⟨part, sending⟩ := wired.holding locked held
      obtain ⟨t, inside⟩ := wired.holder k held
      obtain ⟨frame', writes, carries⟩ := wired.mine t k inside
      rw [SocketWriter.current_holder locked sending] at current
      rw [sending] at carries
      cases current
      rw [show part.whole = frame' from carries]
      exact writes.framed

end Transport

theorem reach_formed {cfg : ConnectionConfig} {allowed : Transport → Traffic → Prop} {s : Transport}
    (reach : (transport cfg).Reach allowed s) : s.client.WellFormed :=
  reach_wellFormed (reach_client (reach_reception reach))

/-- The frames of the client are those of the handshake, and then those of the writer. -/
theorem client_frames {cfg : ConnectionConfig} {allowed : Transport → Traffic → Prop} {s : Transport}
    (reach : (transport cfg).Reach allowed s) :
    s.client.frames = s.client.greeting.map WireEntry.frame ++ s.client.handed.map WireEntry.frame := by
  rw [Client.frames, ← List.map_append, ← (reach_formed reach).ordered]

theorem offered_begun {cfg : ConnectionConfig} {allowed : Transport → Traffic → Prop} {s : Transport}
    (reach : (transport cfg).Reach allowed s) :
    s.offered = s.client.greeting.map WireEntry.frame ++ s.writer.begun := by
  rw [Transport.offered, client_frames reach, List.append_assoc, (reach_wired reach).order]

theorem gone_offered {cfg : ConnectionConfig} {allowed : Transport → Traffic → Prop} {s : Transport}
    (reach : (transport cfg).Reach allowed s) : s.gone.Sublist s.offered := by
  rw [offered_begun reach, Transport.gone]
  exact (List.Sublist.refl _).append (List.filter_sublist.map _)

theorem stream_gone {cfg : ConnectionConfig} {s : Transport}
    (reach : (transport cfg).Reach Transport.SendsBehindWhole s) :
    ∃ rest, s.stream = s.gone.flatten ++ rest ∧ (rest = [] ∨ ∃ x ∈ s.writer.fragments, x.Cut ∧ rest = x.gone) := by
  obtain ⟨rest, stream, last⟩ := (reach_writer_serial reach).stream
  refine ⟨rest, ?_, last⟩
  rw [(reach_wired reach).stream, (reach_writer_locked reach).wire, stream, Transport.gone, List.flatten_append,
    List.append_assoc]

theorem stream_frames {cfg : ConnectionConfig} {s : Transport}
    (reach : (transport cfg).Reach Transport.SendsBehindWhole s) (fits : ∀ frame ∈ s.offered, SizeFits frame) :
    frames s.stream = s.gone.filterMap parsed := by
  have framed := (reach_wired reach).framed (reach_writer_locked reach) (reach_formed reach)
  have order := gone_offered reach
  obtain ⟨rest, whole, last⟩ := stream_gone reach
  rw [whole, frames_flatten (fun f member => framed f (order.subset member))
    fun f member => fits f (order.subset member)]
  -- Part of a frame is not taken for a frame.
  have nothing : frames rest = [] := by
    rcases last with rfl | ⟨x, member, cut, rfl⟩
    · rfl
    · have mine : x.whole ∈ s.offered := by
        rw [offered_begun reach]
        exact List.mem_append_right _ (List.mem_map_of_mem member)
      exact frames_none ((framed _ mine).nextFrame_cut (fits _ mine) cut.2)
  rw [nothing, List.append_nil]

/-- The stream is made of whole frames, in the order in which they were handed over and each
once, and of part of one more at its end. Where no `write_all` has failed none is missing. A
parser gets them back, if the size of each frame offered fits its size field. -/
structure OneStream (s : Transport) : Prop where
  stream : ∃ rest, s.stream = s.gone.flatten ++ rest ∧
    (rest = [] ∨ ∃ x ∈ s.writer.fragments, x.Cut ∧ rest = x.gone)
  order : s.gone.Sublist s.offered
  complete : s.writer.failed = false → s.client.frames <+: s.gone
  parsed : (∀ frame ∈ s.offered, SizeFits frame) → frames s.stream = s.gone.filterMap parsed

/-- That holds in the runs in which the peer accepts no byte after a frame was cut: nothing in
the code keeps the next `write_all` from sending behind one. -/
theorem one_stream {cfg : ConnectionConfig} {s : Transport}
    (reach : (transport cfg).Reach Transport.SendsBehindWhole s) : OneStream s where
  stream := stream_gone reach
  order := gone_offered reach
  complete := by
    intro unfailed
    rw [client_frames reach, Transport.gone]
    exact (List.prefix_append_right_inj _).mpr ((reach_wired reach).complete (reach_writer_locked reach) unfailed)
  parsed := stream_frames reach

def callUpToWrite (n : Nat) (op : Op) : List Traffic :=
  (.invoke n op :: List.replicate 7 (.call n .none)).map (fun a => .other (.client a)) ++ [.write (.call n)]

/-- Two calls write at once: the second waits for the lock, and stands in the middle of its frame. -/
def twoWriters : List Traffic :=
  (opening (acceptingScript ⟨1048576, 0⟩)).map (fun a => .other (.client a)) ++
    callUpToWrite 0 (.deleteStream (text "a") false) ++
    [.progress (.call 0) .lock, .progress (.call 0) (.send (.accepted 5))] ++
    callUpToWrite 1 (.deleteStream (text "b") false) ++
    [.progress (.call 0) (.send .interrupted), .progress (.call 0) (.send (.accepted 10)),
      .progress (.call 0) .finish, .progress (.call 1) .lock, .progress (.call 1) (.send (.accepted 3))]

theorem one_stream_two_writers : ∃ s, (transport {}).Reach Transport.SendsBehindWhole s ∧
    s.gone.length = 6 ∧ s.offered.length = 7 ∧ OneStream s := by
  have ran : ((transport {}).exec Transport.SendsBehindWhole {} twoWriters).any (fun s =>
      s.gone.length = 6 ∧ s.offered.length = 7) = true := by decide +kernel
  obtain ⟨s, reach, holds⟩ := Machine.reach_of_exec rfl ran
  obtain ⟨gone, offered⟩ := of_decide_eq_true holds
  exact ⟨s, reach, gone, offered, one_stream reach⟩

end RmqStream
