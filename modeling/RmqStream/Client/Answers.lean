import RmqStream.Client.Correlation

/-! Whose answer a caller gets.

The table matches responses by correlation id alone, while the handshake also compares
the key. A caller is sure of its own answer in the runs where every response that finds
its entry has the key of the request behind it. -/

set_option autoImplicit false

namespace RmqStream
open Library Commands

def CallPc.op : CallPc → Option Op
  | .idle => none
  | .close => none
  | .requireOpen op => some op
  | .checkArguments op => some op
  | .allocate op => some op
  | .deadline op _ => some op
  | .register op _ _ => some op
  | .checkSize op _ => some op
  | .touch op _ => some op
  | .write op _ => some op
  | .written op _ => some op
  | .wait op _ _ => some op
  | .answered op _ _ => some op
  | .returned op _ => some op
  | .threw op => some op

namespace Client
variable {cfg : ConnectionConfig} {s s' : Client} {input : Input}

/-- The response that this step looks up in the table. -/
def lookedUp (s : Client) : Action → Option IncomingFrame
  | .io .none =>
    match s.io with
    | .dispatch _ frame => if Key.isResponse frame.key then some frame else none
    | _ => none
  | _ => none

/-- A response that finds a request in the table has that request's response key. -/
def OwnKey (s : Client) (a : Action) : Prop :=
  ∀ frame ∈ s.lookedUp a, ∀ e ∈ s.dispatcher.pending, frame.correlationId = some e.correlationId →
    ∀ op ∈ (s.calls e.owner).op, frame.key = Key.responseOf op.key

instance (s : Client) (a : Action) : Decidable (s.OwnKey a) :=
  inferInstanceAs (Decidable (∀ frame ∈ s.lookedUp a, ∀ e ∈ s.dispatcher.pending,
    frame.correlationId = some e.correlationId → ∀ op ∈ (s.calls e.owner).op, frame.key = Key.responseOf op.key))

end Client

def KeyMatches (s : Client) (owner : Nat) (frame : IncomingFrame) : Prop :=
  ∀ op ∈ (s.calls owner).op, frame.key = Key.responseOf op.key

structure Answered (s : Client) : Prop where
  hand : ∀ index frame, s.io = .dispatching index frame →
    ∀ e ∈ s.dispatcher.held .io, KeyMatches s e.owner frame
  settled : ∀ x ∈ s.dispatcher.settled, ∀ index frame, x.cause = .response index frame →
    KeyMatches s x.entry.owner frame

namespace Client
variable {cfg : ConnectionConfig} {s s' : Client} {input : Input}

theorem callStep_op {n : Nat} (run : callStep cfg s n input = some s') (m : Nat) :
    (s'.calls m).op = (s.calls m).op := by
  by_cases same : m = n
  · subst same
    cases callStep_move run <;> simp only [setCall, Client.write, Function.update_self] <;>
      simp_all [CallPc.op] <;> grind [CallPc.op]
  · obtain ⟨_, _, _, _, rfl⟩ := callStep_writes run
    simp only [Function.update_of_ne same]

theorem step_op {a : Action} (run : step cfg s a = some s') {m : Nat} (busy : s.calls m ≠ .idle) :
    (s'.calls m).op = (s.calls m).op := by
  rcases step_calls run m with same | ⟨idle, _⟩ | ⟨input, rfl⟩
  · rw [same]
  · exact absurd idle busy
  · exact callStep_op run m

theorem keyMatches_step {a : Action} {frame : IncomingFrame} {e : PendingEntry} (linked : Linked s)
    (run : step cfg s a = some s') (member : e ∈ s.dispatcher.entries) (right : KeyMatches s e.owner frame) :
    KeyMatches s' e.owner frame := by
  -- The owner has a ticket, so its call has begun.
  have busy : s.calls e.owner ≠ .idle := by
    intro idle
    have fresh := linked.calls e.owner
    obtain ⟨k, registered, _⟩ := linked.table.owned e member
    rw [idle, registered] at fresh
    cases fresh
  unfold KeyMatches
  rw [step_op run busy]
  exact right

/-! ## The keys stay right -/

theorem answered_frame {a : Action} (linked : Linked s) (answered : Answered s) (run : step cfg s a = some s')
    (hand : ∀ index frame, s'.io = .dispatching index frame → s.io = .dispatching index frame ∧
      ∀ e ∈ s'.dispatcher.held .io, e ∈ s.dispatcher.held .io)
    (settled : ∀ x ∈ s'.dispatcher.settled, x ∈ s.dispatcher.settled ∨ x.cause.index = none) : Answered s' where
  hand := by
    intro index frame here e member
    obtain ⟨before, part⟩ := hand index frame here
    exact keyMatches_step linked run (Dispatcher.mem_entries_held (part e member))
      (answered.hand index frame before e (part e member))
  settled := by
    intro x member index frame cause
    rcases settled x member with old | silent
    · exact keyMatches_step linked run (Dispatcher.mem_entries_settled old)
        (answered.settled x old index frame cause)
    · rw [cause] at silent
      simp [Cause.index] at silent

theorem dispatchTake_held {d : Dispatcher} {frame : IncomingFrame} {e : PendingEntry}
    (empty : d.held .io = []) (member : e ∈ (d.dispatchTake frame).held .io) :
    Key.isResponse frame.key = true ∧ e ∈ d.pending ∧ frame.correlationId = some e.correlationId := by
  unfold Dispatcher.dispatchTake at member
  split at member
  next response =>
    split at member
    · simp [empty] at member
    next cid found =>
      simp only [Dispatcher.take, Function.update_self, empty, List.nil_append, List.mem_filter,
        beq_iff_eq] at member
      exact ⟨response, member.1, by rw [found, member.2]⟩
  · simp [empty] at member

theorem ioStep_answered (linked : Linked s) (answered : Answered s) (own : s.OwnKey (.io input))
    (run : step cfg s (.io input) = some s') : Answered s' := by
  have held := linked.ioHeld
  have moved : ioStep s input = some s' := run
  cases ioStep_move moved with
  | @dispatch index frame here =>
    -- What the lookup takes out is what the guard speaks about.
    rw [here] at held
    refine ⟨?_, ?_⟩
    · intro other response same e member
      cases same
      obtain ⟨isResponse, waiting, cid⟩ := dispatchTake_held held member
      refine keyMatches_step linked run (List.mem_append_left _ waiting) (own frame ?_ e waiting cid)
      simp [lookedUp, here, isResponse]
    · intro x member index frame cause
      simp only [Dispatcher.settled_dispatchTake] at member
      exact keyMatches_step linked run (Dispatcher.mem_entries_settled member)
        (answered.settled x member index frame cause)
  | @answer index frame pick table here settle =>
    obtain ⟨e, member, perm, rfl⟩ := Dispatcher.settle_eq settle
    have right := answered.hand index frame here
    refine ⟨?_, ?_⟩
    · intro other response same rest part
      simp only [here, IoPc.dispatching.injEq] at same
      obtain ⟨rfl, rfl⟩ := same
      exact right rest (perm.subset (List.mem_cons_of_mem _ part))
    · intro x inside other response cause
      rcases List.mem_append.mp inside with old | new
      · exact answered.settled x old other response cause
      · obtain rfl := List.mem_singleton.mp new
        cases cause
        exact right e member
  | expire here settle | failOne here settle =>
    obtain ⟨e, member, perm, rfl⟩ := Dispatcher.settle_eq settle
    refine answered_frame linked answered run (by simp_all) ?_
    intro x inside
    refine (List.mem_append.mp inside).imp_right fun new => ?_
    rw [List.mem_singleton.mp new]
    rfl
  | @reaped _ next =>
    refine answered_frame linked answered run ?_ (fun x => .inl)
    cases next <;> simp [afterReap]
  | _ => exact answered_frame linked answered run (by simp_all <;> grind) (fun x => .inl)

theorem step_answered {a : Action} (linked : Linked s) (answered : Answered s) (own : s.OwnKey a)
    (run : step cfg s a = some s') : Answered s' := by
  by_cases io : ∃ input, a = .io input
  · obtain ⟨input, rfl⟩ := io
    exact ioStep_answered linked answered own run
  · have aside := step_aside (fun input same => io ⟨input, same⟩) run
    obtain ⟨more, grown, silent⟩ := aside.settled
    refine answered_frame linked answered run ?_ ?_
    · intro index frame here
      rw [aside.held]
      rcases aside.io with same | fresh
      · exact ⟨same ▸ here, fun _ => id⟩
      · rw [fresh] at here
        simp at here
    · intro x member
      rw [grown] at member
      exact (List.mem_append.mp member).imp_right (silent x)

end Client

theorem reach_answered {cfg : ConnectionConfig} {s : Client}
    (reach : (client cfg).Reach Client.OwnKey s) : Answered s := by
  refine reach.invariant Answered ?_ ?_
  · rintro _ rfl
    exact ⟨by simp, by simp⟩
  · intro s a s' before answered own run
    exact Client.step_answered (reach_linked before) answered own run

/-! ## Success rests on a response of one's own -/

structure Received (s : Client) : Prop where
  answered : ∀ n op cid frame, s.calls n = .answered op cid frame → s.dispatcher.value n = some (.ok frame)
  returned : ∀ n op value, s.calls n = .returned op (.ok value) → op.isOneway = false →
    ∃ frame, s.dispatcher.value n = some (.ok frame) ∧ op.finish frame = .ok value

namespace Client
variable {cfg : ConnectionConfig} {s s' : Client} {input : Input}

theorem callStep_received {n : Nat} (run : callStep cfg s n input = some s') :
    (∀ op cid frame, s'.calls n = .answered op cid frame → s.dispatcher.value n = some (.ok frame)) ∧
    (∀ op value, s'.calls n = .returned op (.ok value) → op.isOneway = false →
      ∃ cid frame, s.calls n = .answered op cid frame ∧ op.finish frame = .ok value) := by
  cases callStep_move run <;> simp only [setCall, Client.write, Function.update_self] <;> simp_all <;> grind

theorem step_settled {a : Action} (run : step cfg s a = some s') :
    ∃ more, s'.dispatcher.settled = s.dispatcher.settled ++ more := by
  rcases step_settles run with same | ⟨x, grown, _⟩
  · exact ⟨[], by rw [same, List.append_nil]⟩
  · exact ⟨[x], grown⟩

theorem step_received {a : Action} (received : Received s) (run : step cfg s a = some s') : Received s' := by
  obtain ⟨more, grown⟩ := step_settled run
  refine ⟨?_, ?_⟩
  · intro n op cid frame here
    refine Dispatcher.value_append grown ?_
    rcases step_calls run n with same | ⟨_, ⟨other, begun, _⟩ | begun⟩ | ⟨input, rfl⟩
    · exact received.answered n op cid frame (same ▸ here)
    · simp [begun] at here
    · simp [begun] at here
    · exact (callStep_received run).1 op cid frame here
  · intro n op value here twoway
    rcases step_calls run n with same | ⟨_, ⟨other, begun, _⟩ | begun⟩ | ⟨input, rfl⟩
    · obtain ⟨frame, set, finish⟩ := received.returned n op value (same ▸ here) twoway
      exact ⟨frame, Dispatcher.value_append grown set, finish⟩
    · simp [begun] at here
    · simp [begun] at here
    · obtain ⟨cid, frame, before, finish⟩ := (callStep_received run).2 op value here twoway
      exact ⟨frame, Dispatcher.value_append grown (received.answered n op cid frame before), finish⟩

end Client

theorem reach_received {cfg : ConnectionConfig} {allowed : Client → Action → Prop} {s : Client}
    (reach : (client cfg).Reach allowed s) : Received s := by
  refine reach.invariant Received ?_ ?_
  · rintro _ rfl
    exact ⟨by simp, by simp⟩
  · intro s a s' _ received _ run
    exact Client.step_received received run

/-- A call's answer carries the id the call allocated, and the key of its own command. -/
def OwnAnswer (s : Client) (n : Nat) (op : Op) (frame : IncomingFrame) : Prop :=
  (∃ k, s.dispatcher.ticket n = .registered k ∧ frame.correlationId = some (appCid k)) ∧
    frame.key = Key.responseOf op.key

theorem ownAnswer_of_value {s : Client} {n : Nat} {op : Op} {frame : IncomingFrame} (linked : Linked s)
    (answered : Answered s) (performs : (s.calls n).op = some op)
    (set : s.dispatcher.value n = some (.ok frame)) : OwnAnswer s n op frame := by
  obtain ⟨x, member, rfl, result⟩ := Dispatcher.value_settled set
  have valid := linked.table.valid x member
  obtain ⟨k, registered, cid⟩ := linked.table.owned x.entry (Dispatcher.mem_entries_settled member)
  cases cause : x.cause with
  | response index other =>
    rw [cause] at result valid
    cases result
    exact ⟨⟨k, registered, cid ▸ valid.2⟩, answered.settled x member index frame cause op performs⟩
  | expired now =>
    rw [cause] at result
    simp [Cause.result] at result
  | failed e =>
    rw [cause] at result
    simp [Cause.result] at result

theorem caller_receives_own_answer {cfg : ConnectionConfig} {s : Client}
    (reach : (client cfg).Reach Client.OwnKey s) :
    (∀ n op cid frame, s.calls n = .answered op cid frame →
      frame.correlationId = some cid ∧ frame.key = Key.responseOf op.key) ∧
    (∀ n op value, s.calls n = .returned op (.ok value) → op.isOneway = false →
      ∃ frame, s.dispatcher.value n = some (.ok frame) ∧ OwnAnswer s n op frame ∧ op.finish frame = .ok value) := by
  have linked := reach_linked reach
  have answered := reach_answered reach
  have received := reach_received reach
  refine ⟨?_, ?_⟩
  · intro n op cid frame here
    have performs : (s.calls n).op = some op := by rw [here]; rfl
    obtain ⟨⟨k, registered, carried⟩, key⟩ :=
      ownAnswer_of_value linked answered performs (received.answered n op cid frame here)
    have mine := linked.calls n
    rw [here] at mine
    obtain ⟨j, ticket, rfl⟩ := mine
    rw [registered] at ticket
    cases ticket
    exact ⟨carried, key⟩
  · intro n op value here twoway
    obtain ⟨frame, set, finish⟩ := received.returned n op value here twoway
    exact ⟨frame, set, ownAnswer_of_value linked answered (by rw [here]; rfl) set, finish⟩

/-- A `delete_stream` answered by its own response. -/
theorem caller_receives_own_answer_delete : ∃ s, (client {}).Reach Client.OwnKey s ∧
    s.calls 0 = .returned (.deleteStream (text "a") false) (.ok .done) ∧
    ∃ frame, OwnAnswer s 0 (.deleteStream (text "a") false) frame := by
  have ran : ((client {}).exec Client.OwnKey {} (opening (acceptingScript ⟨1048576, 60⟩) ++
      request 0 (.deleteStream (text "a") false) ++ delivery ⟨Key.responseOf Key.delete, 1, [0, 1], some 100⟩ ++
      [.call 0 .none, .call 0 .none])).any
        (fun s => s.calls 0 = .returned (.deleteStream (text "a") false) (.ok .done)) = true := by
    decide +kernel
  obtain ⟨s, reach, holds⟩ := Machine.reach_of_exec rfl ran
  obtain ⟨frame, _, own, _⟩ := (caller_receives_own_answer reach).2 0 _ _ (of_decide_eq_true holds) rfl
  exact ⟨s, reach, of_decide_eq_true holds, frame, own⟩

/-- A `delete_stream` that takes the response to a `create_stream` for its own: the
server answers the id with another key, and the call succeeds. -/
theorem caller_receives_foreign_key :
    ¬ ∀ (cfg : ConnectionConfig) (s : Client), (client cfg).Reach Machine.anyStep s →
      ∀ n op cid frame, s.calls n = .answered op cid frame →
        frame.correlationId = some cid ∧ frame.key = Key.responseOf op.key := by
  intro claimed
  have ran : ((client {}).exec Machine.anyStep {} (opening (acceptingScript ⟨1048576, 60⟩) ++
      request 0 (.deleteStream (text "a") false) ++ delivery ⟨Key.responseOf Key.create, 1, [0, 1], some 100⟩ ++
      [.call 0 .none])).any (fun s => s.calls 0 = .answered (.deleteStream (text "a") false) 100
        ⟨Key.responseOf Key.create, 1, [0, 1], some 100⟩) = true := by
    decide +kernel
  obtain ⟨s, reach, holds⟩ := Machine.reach_of_exec rfl ran
  have key := (claimed {} s reach 0 _ _ _ (of_decide_eq_true holds)).2
  exact absurd key (by decide)

end RmqStream
