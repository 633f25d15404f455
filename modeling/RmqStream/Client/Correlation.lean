import RmqStream.Client.Stages

/-! Correlation across all threads: every request that reaches the table has its own
id, and its promise is set exactly once, by an operation that was entitled to it.

`Linked` ties the table to where the threads stand: the ids in the hands of callers,
and the entries in the hands of the two threads that take them out. -/

set_option autoImplicit false

namespace RmqStream
open Library Commands

/-- A caller's local correlation id against its ticket. -/
def CallPc.Linked : CallPc → Ticket → Prop
  | .idle, t => t = .fresh
  | .requireOpen _, t => t = .fresh
  | .checkArguments _, t => t = .fresh
  | .allocate _, t => t = .fresh
  | .deadline _ cid, t => ∃ k, t = .allocated k ∧ cid = appCid k
  | .register _ cid _, t => ∃ k, t = .allocated k ∧ cid = appCid k
  | .checkSize _ cid, t => ∃ k, t = .registered k ∧ cid = appCid k
  | .touch op cid, t => op.isOneway = false → ∃ k, t = .registered k ∧ cid = appCid k
  | .write op cid, t => op.isOneway = false → ∃ k, t = .registered k ∧ cid = appCid k
  | .written _ cid, t => ∃ k, t = .registered k ∧ cid = appCid k
  | .wait _ cid _, t => ∃ k, t = .registered k ∧ cid = appCid k
  | .answered _ cid _, t => ∃ k, t = .registered k ∧ cid = appCid k
  | .close, _ => True
  | .returned _ _, _ => True
  | .threw _, _ => True

def ControlPc.Linked (s : Client) : ControlPc → Prop
  | .closeLock n => s.calls n = .close ∧ s.dispatcher.ticket n = .fresh
  | .closeAllocate n => s.calls n = .close ∧ s.dispatcher.ticket n = .fresh
  | .closeDeadline n cid => s.calls n = .close ∧ ∃ k, s.dispatcher.ticket n = .allocated k ∧ cid = appCid k
  | .closeRegister n cid _ => s.calls n = .close ∧ ∃ k, s.dispatcher.ticket n = .allocated k ∧ cid = appCid k
  | _ => True

def IoPc.Holds (held : List PendingEntry) : IoPc → Prop
  | .reaping now _ => ∀ e ∈ held, now ≥ e.deadline
  | .dispatching _ frame => held.length ≤ 1 ∧ ∀ e ∈ held,
      Key.isResponse frame.key = true ∧ frame.correlationId = some e.correlationId
  | .failing _ _ => True
  | _ => held = []

structure Linked (s : Client) : Prop where
  table : s.dispatcher.Sound
  calls : ∀ n, (s.calls n).Linked (s.dispatcher.ticket n)
  control : s.control.Linked s
  ioHeld : s.io.Holds (s.dispatcher.held .io)
  controlHeld : s.control ≠ .closeFailing → s.dispatcher.held .control = []

namespace Client
variable {cfg : ConnectionConfig} {s s' : Client} {input : Input}

/-- A call touches the table in two places; elsewhere it keeps its ticket. -/
theorem callStep_table {n : Nat} (run : callStep cfg s n input = some s') :
    ∃ pc, s'.calls = Function.update s.calls n pc ∧ s.calls n ≠ .close ∧
      ((s'.dispatcher = s.dispatcher ∧ ∀ t, (s.calls n).Linked t → pc.Linked t) ∨
      (∃ op, s.calls n = .allocate op ∧ pc = .deadline op s.dispatcher.nextAppCid ∧
        s'.dispatcher = s.dispatcher.allocate n) ∨
      (∃ op cid deadline, s.calls n = .register op cid deadline ∧ pc = .checkSize op cid ∧
        s'.dispatcher = s.dispatcher.registerPending ⟨n, cid, deadline⟩)) := by
  cases callStep_move run with
  | @allocate op here => exact ⟨_, rfl, by simp [here], .inr (.inl ⟨op, here, rfl, rfl⟩)⟩
  | @register op cid deadline here =>
    exact ⟨_, rfl, by simp [here], .inr (.inr ⟨op, cid, deadline, here, rfl, rfl⟩)⟩
  | @accepted op here =>
    refine ⟨_, rfl, by simp [here], .inl ⟨rfl, ?_⟩⟩
    cases oneway : op.isOneway <;> simp [here, CallPc.Linked, oneway]
  | @write op cid here =>
    refine ⟨_, rfl, by simp [here], .inl ⟨rfl, ?_⟩⟩
    cases oneway : op.isOneway <;> simp [here, CallPc.Linked, oneway]
  | _ => exact ⟨_, rfl, by simp_all, .inl ⟨rfl, by simp_all [CallPc.Linked]⟩⟩

theorem controlLinked_frame {pc : ControlPc} (linked : pc.Linked s)
    (same : ∀ m, s.calls m = .close → s'.calls m = .close ∧ s'.dispatcher.ticket m = s.dispatcher.ticket m) :
    pc.Linked s' := by
  cases pc <;> try trivial
  all_goals
    obtain ⟨mine, ticket⟩ := linked
    obtain ⟨kept, equal⟩ := same _ mine
    rw [← equal] at ticket
    exact ⟨kept, ticket⟩

theorem linked_ofCall {n : Nat} {pc : CallPc} (linked : Linked s) (table : s'.dispatcher.Sound)
    (calls : s'.calls = Function.update s.calls n pc) (notClose : s.calls n ≠ .close)
    (control : s'.control = s.control) (io : s'.io = s.io)
    (held : s'.dispatcher.held = s.dispatcher.held)
    (tickets : ∀ m, m ≠ n → s'.dispatcher.ticket m = s.dispatcher.ticket m)
    (mine : pc.Linked (s'.dispatcher.ticket n)) : Linked s' where
  table := table
  calls := by
    intro m
    by_cases same : m = n
    · rw [calls, same, Function.update_self]
      exact mine
    · rw [calls, Function.update_of_ne same, tickets m same]
      exact linked.calls m
  control := by
    rw [control]
    refine controlLinked_frame linked.control fun m closing => ?_
    have other : m ≠ n := by
      rintro rfl
      exact notClose closing
    rw [calls, Function.update_of_ne other]
    exact ⟨closing, tickets m other⟩
  ioHeld := by
    rw [io, held]
    exact linked.ioHeld
  controlHeld := by
    rw [control, held]
    exact linked.controlHeld

theorem callStep_linked {n : Nat} (linked : Linked s) (run : callStep cfg s n input = some s') : Linked s' := by
  obtain ⟨pc, calls, notClose, effect⟩ := callStep_table run
  obtain ⟨_, table, _, _, rfl⟩ := callStep_writes run
  have mine := linked.calls n
  rcases effect with ⟨rfl, keeps⟩ | ⟨op, here, rfl, rfl⟩ | ⟨op, cid, deadline, here, rfl, rfl⟩
  · exact linked_ofCall linked linked.table calls notClose rfl rfl rfl (fun _ _ => rfl) (keeps _ mine)
  · rw [here] at mine
    refine linked_ofCall linked (linked.table.allocate mine) calls notClose rfl rfl rfl ?_ ?_
    · intro m other
      exact Function.update_of_ne other _ _
    · exact ⟨_, Function.update_self n _ _, linked.table.counter⟩
  · rw [here] at mine
    obtain ⟨k, ticket, rfl⟩ := mine
    have tickets := Dispatcher.ticket_register (e := ⟨n, appCid k, deadline⟩) ticket
    refine linked_ofCall linked (linked.table.register ticket rfl) calls notClose rfl rfl
      (Dispatcher.held_register _ _) ?_ ?_
    · intro m other
      exact tickets ▸ Function.update_of_ne other _ _
    · exact ⟨k, tickets ▸ Function.update_self n _ _, rfl⟩

/-! ## The I/O thread -/

theorem linked_ofIo (linked : Linked s) (table : s'.dispatcher.Sound) (calls : s'.calls = s.calls)
    (control : s'.control = s.control) (tickets : s'.dispatcher.ticket = s.dispatcher.ticket)
    (held : s'.dispatcher.held .control = s.dispatcher.held .control)
    (ioHeld : s'.io.Holds (s'.dispatcher.held .io)) : Linked s' where
  table := table
  calls := by
    rw [calls, tickets]
    exact linked.calls
  control := by
    rw [control]
    exact controlLinked_frame linked.control fun m closing => ⟨calls ▸ closing, congrFun tickets m⟩
  ioHeld := ioHeld
  controlHeld := by
    rw [control, held]
    exact linked.controlHeld

theorem linked_ioSettle {pick : Nat} {cause : Cause} {table : Dispatcher} (linked : Linked s)
    (settle : s.dispatcher.settle .io pick cause = some table)
    (valid : ∀ e ∈ s.dispatcher.held .io, cause.Valid e)
    (holds : ∀ held : List PendingEntry, held.Sublist (s.dispatcher.held .io) → s.io.Holds held) :
    Linked { s with dispatcher := table } := by
  have sound := linked.table.settle settle valid
  obtain ⟨e, member, _, rfl⟩ := Dispatcher.settle_eq settle
  refine linked_ofIo linked sound rfl rfl rfl rfl ?_
  simp only [Function.update_self]
  exact holds _ (List.eraseIdx_sublist _ _)

theorem linked_ioDone {next : IoPc} (linked : Linked s) (done : s.dispatcher.held .io = [])
    (holds : next.Holds []) : Linked { s with io := next } := by
  refine linked_ofIo linked linked.table rfl rfl rfl rfl ?_
  rw [done]
  exact holds

theorem linked_ioTake {pc : IoPc} {wanted : PendingEntry → Bool} (linked : Linked s)
    (empty : s.dispatcher.held .io = []) (holds : pc.Holds (s.dispatcher.pending.filter wanted)) :
    Linked { s with io := pc, dispatcher := s.dispatcher.take .io wanted } := by
  refine linked_ofIo linked (linked.table.take _ _) rfl rfl rfl rfl ?_
  simp only [Dispatcher.take, Function.update_self, empty, List.nil_append]
  exact holds

theorem linked_ioDispatch {index : Nat} {frame : IncomingFrame} (linked : Linked s)
    (empty : s.dispatcher.held .io = []) :
    Linked { s with io := .dispatching index frame, dispatcher := s.dispatcher.dispatchTake frame } := by
  have unmatched : Linked { s with io := .dispatching index frame } := by
    refine linked_ofIo linked linked.table rfl rfl rfl rfl ?_
    simp [IoPc.Holds, empty]
  unfold Dispatcher.dispatchTake
  split
  next response =>
    split
    · exact unmatched
    next cid found =>
      refine linked_ioTake linked empty ⟨linked.table.matching_length cid, ?_⟩
      intro e member
      rw [found, beq_iff_eq.mp (List.mem_filter.mp member).2]
      exact ⟨response, rfl⟩
  · exact unmatched

theorem ioStep_linked (linked : Linked s) (run : ioStep s input = some s') : Linked s' := by
  have held := linked.ioHeld
  cases ioStep_move run with
  | reap here =>
    rw [here] at held
    refine linked_ioTake linked held ?_
    intro e member
    exact of_decide_eq_true (List.mem_filter.mp member).2
  | expire here settle =>
    rw [here] at held
    refine linked_ioSettle linked settle held ?_
    rw [here]
    intro rest part e member
    exact held e (part.subset member)
  | @reaped _ next _ done =>
    refine linked_ioDone linked done ?_
    cases next <;> rfl
  | dispatch here =>
    rw [here] at held
    exact linked_ioDispatch linked held
  | answer here settle =>
    rw [here] at held
    refine linked_ioSettle linked settle held.2 ?_
    rw [here]
    intro rest part
    exact ⟨part.length_le.trans held.1, fun e member => held.2 e (part.subset member)⟩
  | fail here =>
    rw [here] at held
    exact linked_ioTake linked held trivial
  | failOne here settle =>
    refine linked_ioSettle linked settle (fun _ _ => trivial) ?_
    rw [here]
    exact fun _ _ => trivial
  | dispatched _ done | failedDeadline _ done | failedRead _ done => exact linked_ioDone linked done rfl
  | _ => exact linked_ofIo linked linked.table rfl rfl rfl rfl (by simp_all [IoPc.Holds] <;> grind)

theorem linked_ofControl (linked : Linked s) (table : s'.dispatcher.Sound) (calls : s'.calls = s.calls)
    (tickets : ∀ m, s.calls m ≠ .close → s'.dispatcher.ticket m = s.dispatcher.ticket m)
    (io : s'.io = s.io) (held : s'.dispatcher.held .io = s.dispatcher.held .io)
    (control : s'.control.Linked s')
    (controlHeld : s'.control ≠ .closeFailing → s'.dispatcher.held .control = []) : Linked s' where
  table := table
  calls := by
    intro m
    rw [calls]
    by_cases closing : s.calls m = .close
    · rw [closing]
      trivial
    · rw [tickets m closing]
      exact linked.calls m
  control := control
  ioHeld := by
    rw [io, held]
    exact linked.ioHeld
  controlHeld := controlHeld

theorem controlStep_linked (linked : Linked s) (staged : s.control.Staged s)
    (run : controlStep cfg s input = some s') : Linked s' := by
  have mine := linked.control
  have held := linked.controlHeld
  cases controlStep_move run with
  | @handshake replies here =>
    obtain ⟨frames, ⟨e, same⟩ | ⟨frameMax, interval, same⟩⟩ := handshakeStep_eq cfg s replies <;> rw [same] <;>
      exact linked_ofControl linked linked.table rfl (fun _ _ => rfl) rfl rfl trivial
        (fun _ => held (by simp [here]))
  | startIo here =>
    -- The I/O thread starts with empty hands: it did not run before.
    have fresh := linked.ioHeld
    rw [here] at staged
    rw [staged.2.1] at fresh
    exact ⟨linked.table, linked.calls, trivial, fresh, fun _ => held (by simp [here])⟩
  | @closeAllocate n here =>
    rw [here] at mine
    refine linked_ofControl linked (linked.table.allocate mine.2) rfl ?_ rfl rfl ?_
      (fun _ => held (by simp [here]))
    · intro m other
      refine Function.update_of_ne ?_ _ _
      rintro rfl
      exact other mine.1
    · exact ⟨mine.1, _, Function.update_self n _ _, linked.table.counter⟩
  | @closeRegister n cid deadline here =>
    rw [here] at mine
    obtain ⟨closing, k, ticket, rfl⟩ := mine
    have tickets := Dispatcher.ticket_register (e := ⟨n, appCid k, deadline⟩) ticket
    refine linked_ofControl linked (linked.table.register ticket rfl) rfl ?_ rfl ?_ trivial ?_
    · intro m other
      refine (congrFun tickets m).trans (Function.update_of_ne ?_ _ _)
      rintro rfl
      exact other closing
    · rw [Dispatcher.held_register]
    · intro _
      rw [Dispatcher.held_register]
      exact held (by simp [here])
  | closeFail =>
    exact linked_ofControl linked (linked.table.take _ _) rfl (fun _ _ => rfl) rfl rfl trivial
      (fun failing => absurd rfl failing)
  | closeFailOne here settle =>
    have sound := linked.table.settle settle fun _ _ => trivial
    obtain ⟨e, member, _, rfl⟩ := Dispatcher.settle_eq settle
    exact linked_ofControl linked sound rfl (fun _ _ => rfl) rfl rfl (by simp [here, ControlPc.Linked])
      (fun failing => absurd here failing)
  | _ =>
    exact linked_ofControl linked linked.table rfl (fun _ _ => rfl) rfl rfl
      (by simp_all [ControlPc.Linked, finish]) (by simp_all [finish, write])

theorem step_linked {a : Action} (linked : Linked s) (staged : s.control.Staged s)
    (run : step cfg s a = some s') : Linked s' := by
  have mine := linked.control
  have held := linked.controlHeld
  cases a with
  | tick | onUnexpectedClose =>
    cases run
    exact ⟨linked.table, linked.calls, linked.control, linked.ioHeld, linked.controlHeld⟩
  | invoke n op =>
    obtain ⟨idle, rfl⟩ := step_invoke run
    have fresh := linked.calls n
    rw [idle] at fresh
    exact linked_ofCall linked linked.table rfl (by simp [idle]) rfl rfl rfl (fun _ _ => rfl) fresh
  | connect =>
    obtain ⟨idle, ⟨e, rfl⟩ | rfl⟩ := step_connect run <;>
      exact linked_ofControl linked linked.table rfl (fun _ _ => rfl) rfl rfl trivial
        (fun _ => held (by simp [idle]))
  | close n =>
    obtain ⟨idle, free, rfl⟩ := step_close run
    have fresh := linked.calls n
    rw [free] at fresh
    have entered : Linked (s.setCall n .close) :=
      linked_ofCall linked linked.table rfl (by simp [free]) rfl rfl rfl (fun _ _ => rfl) trivial
    exact linked_ofControl entered linked.table rfl (fun _ _ => rfl) rfl rfl
      ⟨Function.update_self n _ _, fresh⟩ (fun _ => held (by simp [idle]))
  | destroy =>
    obtain ⟨idle, rfl⟩ := step_destroy run
    exact linked_ofControl linked linked.table rfl (fun _ _ => rfl) rfl rfl trivial
      (fun _ => held (by simp [idle]))
  | call n input => exact callStep_linked linked run
  | control input => exact controlStep_linked linked staged run
  | io input => exact ioStep_linked linked run
  | heartbeat input =>
    obtain ⟨_, _, _, rfl⟩ := heartbeatStep_writes run
    exact linked_ofIo linked linked.table rfl rfl rfl rfl linked.ioHeld

end Client

theorem reach_linked {cfg : ConnectionConfig} {allowed : Client → Action → Prop} {s : Client}
    (reach : (client cfg).Reach allowed s) : Linked s := by
  refine reach.invariant Linked ?_ ?_
  · rintro _ rfl
    exact ⟨Dispatcher.sound_init, fun _ => rfl, trivial, rfl, fun _ => rfl⟩
  · intro s a s' before linked _ run
    exact Client.step_linked linked (reach_staged before) run

/-- Whoever is not the I/O thread leaves its hands alone, starts it at most, and sets
promises to errors only. -/
structure Aside (s s' : Client) : Prop where
  io : s'.io = s.io ∨ s'.io = .top
  held : s'.dispatcher.held .io = s.dispatcher.held .io
  settled : ∃ more, s'.dispatcher.settled = s.dispatcher.settled ++ more ∧ ∀ x ∈ more, x.cause.index = none
  inbound : s'.inbound = s.inbound

namespace Client
variable {cfg : ConnectionConfig} {s s' : Client} {input : Input}

theorem aside_ofTable (io : s'.io = s.io ∨ s'.io = .top) (held : s'.dispatcher.held = s.dispatcher.held)
    (settled : s'.dispatcher.settled = s.dispatcher.settled) (inbound : s'.inbound = s.inbound) : Aside s s' :=
  ⟨io, congrFun held .io, ⟨[], by rw [settled, List.append_nil], by simp⟩, inbound⟩

theorem callStep_aside {n : Nat} (run : callStep cfg s n input = some s') : Aside s s' := by
  obtain ⟨pc, _, _, effect⟩ := callStep_table run
  obtain ⟨_, table, _, _, rfl⟩ := callStep_writes run
  rcases effect with ⟨rfl, _⟩ | ⟨_, _, _, rfl⟩ | ⟨_, _, _, _, _, rfl⟩
  · exact aside_ofTable (.inl rfl) rfl rfl rfl
  · exact aside_ofTable (.inl rfl) rfl rfl rfl
  · exact aside_ofTable (.inl rfl) (Dispatcher.held_register _ _) (Dispatcher.settled_register _ _) rfl

theorem controlStep_aside (run : controlStep cfg s input = some s') : Aside s s' := by
  cases controlStep_move run with
  | @handshake replies =>
    obtain ⟨_, _, _, _, _, same⟩ := handshakeStep_writes cfg s replies
    rw [same]
    exact aside_ofTable (.inl rfl) rfl rfl rfl
  | startIo => exact aside_ofTable (.inr rfl) rfl rfl rfl
  | closeRegister =>
    exact aside_ofTable (.inl rfl) (Dispatcher.held_register _ _) (Dispatcher.settled_register _ _) rfl
  | closeFail => exact ⟨.inl rfl, rfl, ⟨[], (List.append_nil _).symm, by simp⟩, rfl⟩
  | closeFailOne _ settle =>
    obtain ⟨e, member, _, rfl⟩ := Dispatcher.settle_eq settle
    exact ⟨.inl rfl, rfl, ⟨_, rfl, by simp [Cause.index]⟩, rfl⟩
  | _ => exact aside_ofTable (.inl rfl) rfl rfl rfl

theorem step_aside {a : Action} (other : ∀ input, a ≠ .io input) (run : step cfg s a = some s') : Aside s s' := by
  cases a with
  | tick | onUnexpectedClose =>
    cases run
    exact aside_ofTable (.inl rfl) rfl rfl rfl
  | invoke n op =>
    obtain ⟨_, rfl⟩ := step_invoke run
    exact aside_ofTable (.inl rfl) rfl rfl rfl
  | connect =>
    obtain ⟨_, ⟨e, rfl⟩ | rfl⟩ := step_connect run <;> exact aside_ofTable (.inl rfl) rfl rfl rfl
  | close n =>
    obtain ⟨_, _, rfl⟩ := step_close run
    exact aside_ofTable (.inl rfl) rfl rfl rfl
  | destroy =>
    obtain ⟨_, rfl⟩ := step_destroy run
    exact aside_ofTable (.inl rfl) rfl rfl rfl
  | call n input => exact callStep_aside run
  | control input => exact controlStep_aside run
  | io input => exact absurd rfl (other input)
  | heartbeat input =>
    obtain ⟨_, _, _, rfl⟩ := heartbeatStep_writes run
    exact aside_ofTable (.inl rfl) rfl rfl rfl

end Client

/-! ## Inbound frames are used once -/

def IoPc.unanswered (held : List PendingEntry) : IoPc → Option Nat
  | .arrived index _ => some index
  | .stamped index _ => some index
  | .reap _ (.dispatch index _) => some index
  | .reaping _ (.dispatch index _) => some index
  | .dispatch index _ => some index
  | .dispatching index _ => if held = [] then none else some index
  | _ => none

/-- Frames are numbered as they come, and none has set two promises. -/
structure Numbered (s : Client) : Prop where
  once : s.dispatcher.used.Nodup
  past : ∀ index ∈ s.dispatcher.used, index < s.inbound
  next : ∀ index, s.io.unanswered (s.dispatcher.held .io) = some index →
    index < s.inbound ∧ index ∉ s.dispatcher.used

namespace Client
variable {cfg : ConnectionConfig} {s s' : Client} {input : Input}

theorem numbered_frame (numbered : Numbered s) (used : s'.dispatcher.used = s.dispatcher.used)
    (inbound : s'.inbound = s.inbound)
    (next : ∀ index, s'.io.unanswered (s'.dispatcher.held .io) = some index →
      s.io.unanswered (s.dispatcher.held .io) = some index) : Numbered s' where
  once := used ▸ numbered.once
  past := by
    rw [used, inbound]
    exact numbered.past
  next := by
    intro index found
    rw [used, inbound]
    exact numbered.next index (next index found)

theorem ioStep_numbered (linked : Linked s) (numbered : Numbered s) (run : ioStep s input = some s') :
    Numbered s' := by
  cases ioStep_move run with
  | frame =>
    -- The number of the new frame is above all those used.
    refine ⟨numbered.once, fun index member => Nat.lt_succ_of_lt (numbered.past index member), ?_⟩
    rintro _ ⟨⟩
    exact ⟨Nat.lt_succ_self _, fun member => Nat.lt_irrefl _ (numbered.past _ member)⟩
  | @answer index frame pick table here settle =>
    -- There was one entry in hand, so the frame is spent now.
    have held := linked.ioHeld
    have next := numbered.next index
    have used := Dispatcher.used_settle settle
    obtain ⟨e, member, perm, same⟩ := Dispatcher.settle_eq settle
    rw [here] at held next
    obtain ⟨below, unused⟩ := next (if_neg (List.ne_nil_of_mem member))
    have empty : table.held .io = [] := by
      have length := perm.length_eq
      have single := held.1
      rw [List.length_cons] at length
      exact List.length_eq_zero_iff.mp (by omega)
    refine ⟨?_, ?_, ?_⟩
    · rw [used]
      exact numbered.once.append (List.nodup_singleton index) (List.disjoint_singleton.mpr unused)
    · intro other found
      rw [used, List.mem_append] at found
      rcases found with old | new
      · exact numbered.past other old
      · exact List.mem_singleton.mp new ▸ below
    · simp [here, IoPc.unanswered, empty]
  | @expire _ next _ _ here settle =>
    refine numbered_frame numbered ((Dispatcher.used_settle settle).trans (List.append_nil _)) rfl ?_
    intro index
    simp only [here]
    cases next <;> exact id
  | failOne here settle =>
    refine numbered_frame numbered ((Dispatcher.used_settle settle).trans (List.append_nil _)) rfl ?_
    simp [here, IoPc.unanswered]
  | @reaped _ next here =>
    refine numbered_frame numbered rfl rfl ?_
    cases next <;> simp [here, IoPc.unanswered, afterReap]
  | dispatch here =>
    refine numbered_frame numbered ?_ rfl ?_
    · simp only [Dispatcher.used, Dispatcher.settled_dispatchTake]
    · simp [here, IoPc.unanswered]
  | @reap _ next here =>
    refine numbered_frame numbered rfl rfl ?_
    cases next <;> simp [here, IoPc.unanswered]
  | _ => exact numbered_frame numbered rfl rfl (by simp_all [IoPc.unanswered] <;> grind [IoPc.unanswered])

theorem numbered_aside (numbered : Numbered s) (aside : Aside s s') : Numbered s' := by
  obtain ⟨more, grown, silent⟩ := aside.settled
  refine numbered_frame numbered ?_ aside.inbound ?_
  · rw [Dispatcher.used, grown, List.filterMap_append, List.filterMap_eq_nil_iff.mpr silent, List.append_nil]
    rfl
  · rw [aside.held]
    rcases aside.io with same | fresh
    · rw [same]
      exact fun _ => id
    · simp [fresh, IoPc.unanswered]

theorem step_numbered {a : Action} (linked : Linked s) (numbered : Numbered s)
    (run : step cfg s a = some s') : Numbered s' := by
  by_cases io : ∃ input, a = .io input
  · obtain ⟨input, rfl⟩ := io
    exact ioStep_numbered linked numbered run
  · exact numbered_aside numbered (step_aside (fun input same => io ⟨input, same⟩) run)

end Client

theorem reach_numbered {cfg : ConnectionConfig} {allowed : Client → Action → Prop} {s : Client}
    (reach : (client cfg).Reach allowed s) : Numbered s := by
  refine reach.invariant Numbered ?_ ?_
  · rintro _ rfl
    exact ⟨List.nodup_nil, by simp [Dispatcher.used], by simp [IoPc.unanswered]⟩
  · intro s a s' before numbered _ run
    exact Client.step_numbered (reach_linked before) numbered run

/-! ## Exactly once -/

def IoPc.Completing : IoPc → Prop
  | .reaping _ _ | .dispatching _ _ | .failing _ _ => True
  | _ => False

/-- What correlation promises in a state: fresh ids on registration, no promise lost
or set twice, and each set for a good reason. -/
structure ExactlyOnce (cfg : ConnectionConfig) (s : Client) : Prop where
  callFresh : ∀ n op cid deadline, s.calls n = .register op cid deadline → s.dispatcher.contains cid = false
  closeFresh : ∀ n cid deadline, s.control = .closeRegister n cid deadline → s.dispatcher.contains cid = false
  once : (s.dispatcher.settled.map fun x => x.entry.owner).Nodup
  /-- Whoever has registered is still in the map, or in the hands of an operation that
  has not finished, or was set. -/
  accounted : ∀ n k, s.dispatcher.ticket n = .registered k → ∃ e : PendingEntry, e.owner = n ∧
    e.correlationId = appCid k ∧ (e ∈ s.dispatcher.pending ∨ (e ∈ s.dispatcher.held .io ∧ s.io.Completing) ∨
      (e ∈ s.dispatcher.held .control ∧ s.control = .closeFailing) ∨ ∃ x ∈ s.dispatcher.settled, x.entry = e)
  response : ∀ x ∈ s.dispatcher.settled, ∀ frame, x.cause.result = .ok frame → ∃ index < s.inbound,
    x.cause = .response index frame ∧ Key.isResponse frame.key = true ∧
      frame.correlationId = some x.entry.correlationId
  oneFrame : ∀ x ∈ s.dispatcher.settled, ∀ y ∈ s.dispatcher.settled, ∀ index,
    x.cause.index = some index → y.cause.index = some index → x = y
  expired : ∀ x ∈ s.dispatcher.settled, ∀ now, x.cause = .expired now → now ≥ x.entry.deadline
  oneway : ∀ index frame s', s.io = .dispatch index frame → Key.isResponse frame.key = false →
    Client.step cfg s (.io .none) = some s' → s'.dispatcher.pending = s.dispatcher.pending

theorem Linked.completing {s : Client} (linked : Linked s) {e : PendingEntry} (held : e ∈ s.dispatcher.held .io) :
    s.io.Completing := by
  have empty := linked.ioHeld
  cases here : s.io <;> rw [here] at empty <;> first | trivial | simp_all [IoPc.Holds]

/-- The promise of whoever has registered is somewhere: in the map, in the hands of an
operation, or set. -/
theorem Linked.accounted {s : Client} (linked : Linked s) (few : s.dispatcher.allocated < 2 ^ 32) {n k : Nat}
    (ticket : s.dispatcher.ticket n = .registered k) : ∃ e : PendingEntry, e.owner = n ∧
      e.correlationId = appCid k ∧ (e ∈ s.dispatcher.pending ∨ (e ∈ s.dispatcher.held .io ∧ s.io.Completing) ∨
        (e ∈ s.dispatcher.held .control ∧ s.control = .closeFailing) ∨ ∃ x ∈ s.dispatcher.settled, x.entry = e) := by
  obtain ⟨e, member, rfl⟩ := linked.table.present n k ticket
  obtain ⟨j, same, cid⟩ := linked.table.owned e member
  rw [ticket] at same
  cases same
  refine ⟨e, rfl, cid, ?_⟩
  unfold Dispatcher.entries at member
  simp only [linked.table.intact few.le, List.mem_append, List.append_nil, List.mem_map] at member
  rcases member with waiting | held | held | settled
  · exact .inl waiting
  · exact .inr (.inl ⟨held, linked.completing held⟩)
  · refine .inr (.inr (.inl ⟨held, ?_⟩))
    by_contra other
    rw [linked.controlHeld other] at held
    simp at held
  · exact .inr (.inr (.inr settled))

theorem Numbered.same {s : Client} (numbered : Numbered s) {x y : Settlement} {index : Nat}
    (left : x ∈ s.dispatcher.settled) (right : y ∈ s.dispatcher.settled) (first : x.cause.index = some index)
    (second : y.cause.index = some index) : x = y := by
  have once := List.pairwise_filterMap.mp numbered.once
  have symmetric : Std.Symm fun a b : Settlement =>
      ∀ i, a.cause.index = some i → ∀ j, b.cause.index = some j → i ≠ j :=
    ⟨fun a b apart i hi j hj same => apart j hj i hi same.symm⟩
  by_contra other
  exact once.forall left right other index first index second rfl

theorem correlation_exactly_once {cfg : ConnectionConfig} {s : Client}
    (reach : (client cfg).Reach Machine.anyStep s) (few : s.dispatcher.allocated < 2 ^ 32) :
    ExactlyOnce cfg s := by
  have linked := reach_linked reach
  have numbered := reach_numbered reach
  constructor
  case callFresh =>
    intro n op cid deadline here
    have mine := linked.calls n
    rw [here] at mine
    obtain ⟨k, ticket, rfl⟩ := mine
    exact linked.table.not_contains ticket few.le
  case closeFresh =>
    intro n cid deadline here
    have mine := linked.control
    rw [here] at mine
    obtain ⟨_, k, ticket, rfl⟩ := mine
    exact linked.table.not_contains ticket few.le
  case once =>
    exact linked.table.settled_once
  case accounted =>
    intro n k ticket
    exact linked.accounted few ticket
  case response =>
    intro x member frame result
    have valid := linked.table.valid x member
    cases cause : x.cause with
    | response index other =>
      rw [cause] at result valid
      cases result
      -- The frame of a settled response was counted when it was read.
      refine ⟨index, numbered.past index ?_, rfl, valid⟩
      exact List.mem_filterMap.mpr ⟨x, member, by rw [cause]; rfl⟩
    | expired now =>
      rw [cause] at result
      simp [Cause.result] at result
    | failed e =>
      rw [cause] at result
      simp [Cause.result] at result
  case oneFrame =>
    intro x left y right index first second
    exact numbered.same left right first second
  case expired =>
    intro x member now cause
    have valid := linked.table.valid x member
    rw [cause] at valid
    exact valid
  case oneway =>
    intro index frame s' here request run
    simp only [Client.step, Client.ioStep, here, Option.some.injEq] at run
    rw [← run]
    simp [Dispatcher.dispatchTake, request]

/-- Two calls wait at once; one is answered, the other expires. -/
def answeredAndExpired : List Action :=
  opening (acceptingScript ⟨1048576, 60⟩) ++ request 0 (.deleteStream (text "a") false) ++
    request 1 (.queryOffset (text "r") (text "a")) ++
    delivery ⟨Key.responseOf Key.delete, 1, [0, 1], some 100⟩ ++
    [.tick 10000, .io .none, .io (.read (.error recvTimeout)), .io .none, .io .none, .io (.pick 0)]

theorem correlation_exactly_once_two : ∃ s, (client {}).Reach Machine.anyStep s ∧
    s.dispatcher.settled.map (fun x => (x.entry.owner, x.cause.index)) = [(0, some 0), (1, none)] ∧
    ExactlyOnce {} s := by
  have ran : ((client {}).exec Machine.anyStep {} answeredAndExpired).any (fun s =>
      s.dispatcher.settled.map (fun x => (x.entry.owner, x.cause.index)) = [(0, some 0), (1, none)] ∧
        s.dispatcher.allocated < 2 ^ 32) = true := by
    decide +kernel
  obtain ⟨s, reach, holds⟩ := Machine.reach_of_exec rfl ran
  obtain ⟨settled, few⟩ := of_decide_eq_true holds
  exact ⟨s, reach, settled, correlation_exactly_once reach few⟩

end RmqStream
