import RmqStream.Client.Correlation

/-! The limit on references.

`check_reference` counts bytes, `query_offset` does not call it, and the limit is meant in
characters. A call is followed from the point where `require_open` has found the connection
open: the check sends it back untouched, or it goes on to the table or to the socket. -/

set_option autoImplicit false

namespace RmqStream
open Library

/-- The call was sent back for its reference, and nothing of it was registered or written. -/
structure Refused (s : Client) (n : Nat) (op : Op) : Prop where
  returned : ∃ e, s.calls n = .returned op (.error e) ∧ e.kind = .referenceTooLong
  unregistered : ∀ e ∈ s.dispatcher.entries, e.owner ≠ n
  unwritten : ∀ w ∈ s.wire, w.source ≠ .call n

/-- On an open client the operation is refused if its reference is too long, and only then. -/
structure LimitKept (op : Op) (tooLong : Prop) : Prop where
  refused : tooLong → ∀ cfg s n, (client cfg).Reach Machine.anyStep s → s.calls n = .checkArguments op →
    (∃ next, Client.step cfg s (.call n .none) = some next) ∧
      ∀ s', ((client cfg).startingAt s).Reach Machine.anyStep s' → s'.calls n = .checkArguments op ∨ Refused s' n op
  accepted : ¬ tooLong → ∀ cfg s n, (client cfg).Reach Machine.anyStep s → s.calls n = .checkArguments op →
    ∀ s', ((client cfg).startingAt s).Reach Machine.anyStep s' → ¬ Refused s' n op

/-- The three operations refuse the references of more than 256 characters, and no others. -/
structure ReferenceLimit (scalars : List Char) (stream : Bytes) (offset : UInt64) : Prop where
  storeOffset : LimitKept (.storeOffset (encodeText scalars) stream offset) (256 < scalars.length)
  queryOffset : LimitKept (.queryOffset (encodeText scalars) stream) (256 < scalars.length)
  queryPublisherSequence :
    LimitKept (.queryPublisherSequence (encodeText scalars) stream) (256 < scalars.length)

def CallPc.Vetting : CallPc → Prop
  | .idle | .requireOpen _ | .checkArguments _ => True
  | _ => False

namespace Client
variable {cfg : ConnectionConfig} {s s' : Client} {input : Input} {n : Nat} {op : Op}

def Wrote (s : Client) (n : Nat) : Prop := ∃ w ∈ s.wire, w.source = .call n

theorem step_wrote {a : Action} (run : step cfg s a = some s') (wrote : s.Wrote n) : s'.Wrote n := by
  obtain ⟨w, member, source⟩ := wrote
  obtain ⟨frames, _, grown⟩ := step_handover run
  exact ⟨w, by rw [grown]; exact List.mem_append_left _ member, source⟩

/-! ## What the others do to a call -/

theorem controlStep_ticket (linked : Linked s) (run : controlStep cfg s input = some s')
    (notClose : s.calls n ≠ .close) :
    s'.dispatcher.ticket n = s.dispatcher.ticket n := by
  have mine := linked.control
  cases controlStep_move run with
  | handshake => rw [handshakeStep_dispatcher]
  | @closeAllocate m here =>
    rw [here] at mine
    refine Function.update_of_ne ?_ _ _
    rintro rfl
    exact notClose mine.1
  | @closeRegister m cid deadline here =>
    rw [here] at mine
    obtain ⟨closing, k, ticket, rfl⟩ := mine
    refine (congrFun (Dispatcher.ticket_register (e := ⟨m, appCid k, deadline⟩) ticket) n).trans ?_
    refine Function.update_of_ne ?_ _ _
    rintro rfl
    exact notClose closing
  | closeFailOne here settle =>
    obtain ⟨e, _, _, rfl⟩ := Dispatcher.settle_eq settle
    rfl
  | _ => rfl

theorem ioStep_ticket (run : ioStep s input = some s') : s'.dispatcher.ticket = s.dispatcher.ticket := by
  cases ioStep_move run with
  | expire _ settle | answer _ settle | failOne _ settle =>
    obtain ⟨e, _, _, rfl⟩ := Dispatcher.settle_eq settle
    rfl
  | dispatch =>
    simp only [Dispatcher.dispatchTake]
    split
    · split <;> rfl
    · rfl
  | _ => rfl

theorem callStep_ticket {m : Nat} (linked : Linked s) (run : callStep cfg s m input = some s') (other : n ≠ m) :
    s'.dispatcher.ticket n = s.dispatcher.ticket n := by
  obtain ⟨pc, _, _, same | ⟨_, _, _, same⟩ | ⟨op, cid, deadline, here, _, same⟩⟩ := callStep_table run
  · rw [same.1]
  · rw [same]
    exact Function.update_of_ne other _ _
  · have mine := linked.calls m
    rw [here] at mine
    obtain ⟨k, ticket, rfl⟩ := mine
    rw [same]
    refine (congrFun (Dispatcher.ticket_register (e := ⟨m, appCid k, deadline⟩) ticket) n).trans ?_
    exact Function.update_of_ne other _ _

theorem step_wrote_others {a : Action} (run : step cfg s a = some s') (other : ∀ input, a ≠ .call n input)
    (wrote : s'.Wrote n) : s.Wrote n := by
  obtain ⟨w, member, source⟩ := wrote
  obtain ⟨frames, handover, grown⟩ := step_handover run
  rw [grown] at member
  rcases List.mem_append.mp member with old | new
  · exact ⟨w, old, source⟩
  cases handover with
  | nothing => cases new
  | handshake => simp [(handshake_entry new).1] at source
  | call =>
    rw [List.mem_singleton.mp new] at source
    cases source
    exact absurd rfl (other _)
  | close | heartbeat =>
    rw [List.mem_singleton.mp new] at source
    cases source

/-- A call that is under way is moved by itself only: the steps of the others leave where it
stands and its ticket. -/
theorem step_others {a : Action} (linked : Linked s) (run : step cfg s a = some s') (busy : s.calls n ≠ .idle)
    (notClose : s.calls n ≠ .close) (other : ∀ input, a ≠ .call n input) :
    s'.calls n = s.calls n ∧ s'.dispatcher.ticket n = s.dispatcher.ticket n := by
  constructor
  · rcases step_calls run n with same | ⟨idle, _⟩ | ⟨input, own⟩
    · exact same
    · exact absurd idle busy
    · exact absurd own (other input)
  · rcases step_threads run with ⟨_, _, _, _, _, rfl⟩ | ⟨m, input, rfl, run⟩ | ⟨input, rfl, run⟩ |
      ⟨input, rfl, run⟩ | ⟨input, rfl, run⟩
    · rfl
    · refine callStep_ticket linked run ?_
      rintro rfl
      exact other input rfl
    · exact controlStep_ticket linked run notClose
    · rw [ioStep_ticket run]
    · obtain ⟨_, _, _, rfl⟩ := heartbeatStep_writes run
      rfl

def Unwritten (s : Client) : Prop := ∀ n, (s.calls n).Vetting → ¬ s.Wrote n

theorem step_unwritten {a : Action} (unwritten : s.Unwritten) (run : step cfg s a = some s') : s'.Unwritten := by
  intro n vetting wrote
  by_cases own : ∃ input, a = .call n input
  · obtain ⟨input, rfl⟩ := own
    cases callStep_move run with
    | @admitted op here => exact unwritten n (by rw [here]; trivial) wrote
    | @accepted op here | @write op cid here =>
      cases oneway : op.isOneway <;> simp [setCall, CallPc.Vetting, oneway] at vetting
    | _ => simp [setCall, CallPc.Vetting] at vetting
  · have other : ∀ input, a ≠ .call n input := fun input same => own ⟨input, same⟩
    have before := step_wrote_others run other wrote
    rcases step_calls run n with same | ⟨idle, _⟩ | ⟨input, mine⟩
    · exact unwritten n (by rwa [same] at vetting) before
    · exact unwritten n (by rw [idle]; trivial) before
    · exact other input mine

end Client

theorem reach_unwritten {cfg : ConnectionConfig} {allowed : Client → Action → Prop} {s : Client}
    (reach : (client cfg).Reach allowed s) : s.Unwritten := by
  refine reach.invariant Client.Unwritten ?_ ?_
  · rintro _ rfl n _ ⟨w, member, _⟩
    cases member
  · intro s a s' _ unwritten _ run
    exact Client.step_unwritten unwritten run

namespace Client
variable {cfg : ConnectionConfig} {s s' : Client} {input : Input} {n : Nat} {op : Op}

structure Rejected (s : Client) (n : Nat) (op : Op) (e : StreamError) : Prop where
  here : s.calls n = .checkArguments op ∨ s.calls n = .returned op (.error e)
  ticket : s.dispatcher.ticket n = .fresh
  silent : ¬ s.Wrote n

theorem step_rejected {a : Action} {e : StreamError} (check : op.checkArguments = .error e) (linked : Linked s)
    (rejected : Rejected s n op e) (run : step cfg s a = some s') : Rejected s' n op e := by
  obtain ⟨here, ticket, silent⟩ := rejected
  by_cases own : ∃ input, a = .call n input
  · obtain ⟨input, rfl⟩ := own
    rcases here with here | here
    · cases callStep_move run with
      | rejected there failed =>
        rw [here] at there
        cases there
        rw [check] at failed
        cases failed
        exact ⟨.inr (Function.update_self n _ _), ticket, silent⟩
      | accepted there passed =>
        rw [here] at there
        cases there
        rw [check] at passed
        cases passed
      | _ => simp_all
    · cases callStep_move run <;> simp_all
  · have other : ∀ input, a ≠ .call n input := fun input same => own ⟨input, same⟩
    have busy : s.calls n ≠ .idle ∧ s.calls n ≠ .close := by rcases here with here | here <;> simp [here]
    obtain ⟨calls, kept⟩ := step_others linked run busy.1 busy.2 other
    exact ⟨by rwa [calls], by rwa [kept], fun wrote => silent (step_wrote_others run other wrote)⟩

theorem Rejected.refused {e : StreamError} (rejected : Rejected s n op e) (linked : Linked s)
    (kind : e.kind = .referenceTooLong) : s.calls n = .checkArguments op ∨ Refused s n op := by
  refine rejected.here.imp_right fun here => ⟨⟨e, here, kind⟩, ?_, ?_⟩
  · rintro entry member rfl
    obtain ⟨k, registered, _⟩ := linked.table.owned entry member
    rw [rejected.ticket] at registered
    cases registered
  · exact fun w member source => rejected.silent ⟨w, member, source⟩

end Client

/-- On the way to the table or, for a one-way call, to the socket. -/
def CallPc.Ahead : CallPc → Prop
  | .checkArguments op => op.checkArguments = .ok ()
  | .allocate op | .deadline op _ | .register op _ _ => op.isOneway = false
  | .touch op _ | .write op _ => op.isOneway = true
  | _ => False

namespace Client
variable {cfg : ConnectionConfig} {s s' : Client} {input : Input} {n : Nat} {op : Op}

structure Passed (s : Client) (n : Nat) : Prop where
  busy : s.calls n ≠ .idle ∧ s.calls n ≠ .close
  trace : (s.calls n).Ahead ∨ s.Wrote n ∨ ∃ k, s.dispatcher.ticket n = .registered k

theorem callStep_busy (run : callStep cfg s n input = some s') : s'.calls n ≠ .idle ∧ s'.calls n ≠ .close := by
  cases callStep_move run with
  | @accepted op | @write op => cases op.isOneway <;> simp [setCall]
  | _ => simp [setCall]

theorem callStep_registered {k : Nat} (linked : Linked s) (run : callStep cfg s n input = some s')
    (ticket : s.dispatcher.ticket n = .registered k) : s'.dispatcher.ticket n = .registered k := by
  have mine := linked.calls n
  obtain ⟨pc, _, _, same | ⟨op, here, _⟩ | ⟨op, cid, deadline, here, _⟩⟩ := callStep_table run
  · rw [same.1]
    exact ticket
  · rw [here, ticket] at mine
    cases mine
  · rw [here, ticket] at mine
    obtain ⟨_, allocated, _⟩ := mine
    cases allocated

theorem callStep_passed (linked : Linked s) (ahead : (s.calls n).Ahead) (run : callStep cfg s n input = some s') :
    (s'.calls n).Ahead ∨ s'.Wrote n ∨ ∃ k, s'.dispatcher.ticket n = .registered k := by
  have mine := linked.calls n
  cases callStep_move run with
  | @accepted op here =>
    left
    cases oneway : op.isOneway <;> simp [setCall, CallPc.Ahead, oneway]
  | allocate here | deadline here | touch here =>
    rw [here] at ahead
    exact .inl (by simpa [setCall, CallPc.Ahead] using ahead)
  | @register op cid deadline here =>
    rw [here] at mine
    obtain ⟨k, ticket, rfl⟩ := mine
    have tickets := Dispatcher.ticket_register (e := ⟨n, appCid k, deadline⟩) ticket
    exact .inr (.inr ⟨k, (congrFun tickets n).trans (Function.update_self n _ _)⟩)
  | writeFailed | write => exact .inr (.inl ⟨_, List.mem_append_right _ (List.mem_singleton_self _), rfl⟩)
  | rejected here failed =>
    rw [here] at ahead
    cases ahead.symm.trans failed
  | _ => simp_all [CallPc.Ahead]

theorem step_passed {a : Action} (linked : Linked s) (passed : Passed s n) (run : step cfg s a = some s') :
    Passed s' n := by
  obtain ⟨busy, trace⟩ := passed
  by_cases own : ∃ input, a = .call n input
  · obtain ⟨input, rfl⟩ := own
    refine ⟨callStep_busy run, ?_⟩
    rcases trace with ahead | wrote | ⟨k, ticket⟩
    · exact callStep_passed linked ahead run
    · exact .inr (.inl (step_wrote run wrote))
    · exact .inr (.inr ⟨k, callStep_registered linked run ticket⟩)
  · obtain ⟨calls, kept⟩ := step_others linked run busy.1 busy.2 fun input same => own ⟨input, same⟩
    refine ⟨by rwa [calls], ?_⟩
    rw [calls, kept]
    exact trace.imp_right (Or.imp_left (step_wrote run))

theorem Passed.not_refused (passed : Passed s n) (linked : Linked s) : ¬ Refused s n op := by
  rintro ⟨⟨e, here, _⟩, unregistered, unwritten⟩
  rcases passed.trace with ahead | ⟨w, member, source⟩ | ⟨k, ticket⟩
  · rw [here] at ahead
    exact ahead
  · exact unwritten w member source
  · obtain ⟨entry, member, owner⟩ := linked.table.present n k ticket
    exact unregistered entry member owner

end Client

section Limit
variable {cfg : ConnectionConfig} {s s' : Client} {n : Nat} {op : Op}

theorem run_rejected {e : StreamError} (check : op.checkArguments = .error e)
    (reach : (client cfg).Reach Machine.anyStep s) (here : s.calls n = .checkArguments op)
    (run : ((client cfg).startingAt s).Reach Machine.anyStep s') : Client.Rejected s' n op e := by
  refine run.invariant (fun s => Client.Rejected s n op e) ?_ ?_
  · rintro _ rfl
    have fresh := (reach_linked reach).calls n
    rw [here] at fresh
    exact ⟨.inl here, fresh, reach_unwritten reach n (by rw [here]; trivial)⟩
  · intro middle a next before rejected _ step
    exact Client.step_rejected check (reach_linked (reach.extend (fun _ _ => id) before)) rejected step

theorem run_passed (check : op.checkArguments = .ok ()) (reach : (client cfg).Reach Machine.anyStep s)
    (here : s.calls n = .checkArguments op) (run : ((client cfg).startingAt s).Reach Machine.anyStep s') :
    Client.Passed s' n := by
  refine run.invariant (fun s => Client.Passed s n) ?_ ?_
  · rintro _ rfl
    exact ⟨by simp [here], .inl (by rw [here]; exact check)⟩
  · intro middle a next before passed _ step
    exact Client.step_passed (reach_linked (reach.extend (fun _ _ => id) before)) passed step

def Op.afterCheck (op : Op) : CallPc :=
  match op.checkArguments with
  | .error e => .returned op (.error e)
  | .ok _ => if op.isOneway then .touch op 0 else .allocate op

theorem step_check (cfg : ConnectionConfig) (here : s.calls n = .checkArguments op) :
    Client.step cfg s (.call n .none) = some (s.setCall n op.afterCheck) := by
  simp only [Client.step, Client.callStep, here, Op.afterCheck]
  cases op.checkArguments <;> rfl

theorem reach_check (op : Op) : ∃ s, (client {}).Reach Machine.anyStep s ∧ s.calls 0 = .checkArguments op := by
  have ran : ((client {}).exec Machine.anyStep {} (opening (acceptingScript ⟨1048576, 60⟩))).any (fun s =>
      s.state = .open ∧ s.calls 0 = .idle) = true := by
    decide +kernel
  obtain ⟨s, reach, holds⟩ := Machine.reach_of_exec rfl ran
  obtain ⟨opened, idle⟩ := of_decide_eq_true holds
  have invoked : (client {}).step s (.invoke 0 op) = some (s.setCall 0 (.requireOpen op)) := if_pos idle
  have begun := reach.step trivial invoked
  have admitted : (client {}).step (s.setCall 0 (.requireOpen op)) (.call 0 .none) =
      some ((s.setCall 0 (.requireOpen op)).setCall 0 (.checkArguments op)) := by
    simp [client, Client.step, Client.callStep, Client.setCall, opened]
  exact ⟨_, begun.step trivial admitted, by simp [Client.setCall]⟩

theorem limitKept_iff {tooLong : Prop} (kind : ∀ e, op.checkArguments = .error e → e.kind = .referenceTooLong) :
    LimitKept op tooLong ↔ (op.checkArguments ≠ .ok () ↔ tooLong) := by
  constructor
  · intro kept
    -- A run that gets to the check shows what the check says.
    obtain ⟨s, reach, here⟩ := reach_check op
    have moved : ((client {}).startingAt s).Reach Machine.anyStep (s.setCall 0 op.afterCheck) :=
      .step (a := .call 0 .none) (.init rfl) trivial (step_check {} here)
    cases check : op.checkArguments with
    | ok =>
      refine iff_of_false (by simp) fun long => ?_
      rcases (kept.refused long {} s 0 reach here).2 _ moved with same | refused
      · cases oneway : op.isOneway <;> simp [Client.setCall, Op.afterCheck, check, oneway] at same
      · exact (run_passed check reach here moved).not_refused
          (reach_linked (reach.extend (fun _ _ => id) moved)) refused
    | error e =>
      refine iff_of_true (by simp) ?_
      by_contra short
      have rejected := run_rejected check reach here moved
      refine kept.accepted short {} s 0 reach here _ moved ?_
      refine (rejected.refused (reach_linked (reach.extend (fun _ _ => id) moved)) (kind e check)).resolve_left ?_
      simp [Client.setCall, Op.afterCheck, check]
  · intro same
    constructor
    · intro long cfg s n reach here
      refine ⟨⟨_, step_check cfg here⟩, fun s' run => ?_⟩
      cases check : op.checkArguments with
      | ok => exact absurd check (same.mpr long)
      | error e =>
        exact (run_rejected check reach here run).refused
          (reach_linked (reach.extend (fun _ _ => id) run)) (kind e check)
    · intro short cfg s n reach here s' run
      have check : op.checkArguments = .ok () := not_not.mp fun failed => short (same.mp failed)
      exact (run_passed check reach here run).not_refused (reach_linked (reach.extend (fun _ _ => id) run))

end Limit

theorem encodeText_length (scalars : List Char) :
    scalars.length ≤ (encodeText scalars).length ∧ (encodeText scalars).length ≤ 4 * scalars.length := by
  induction scalars with
  | nil => exact ⟨Nat.le_refl _, Nat.le_refl _⟩
  | cons c scalars ih =>
    have least := c.utf8Size_pos
    have most := c.utf8Size_le_four
    unfold encodeText at ih ⊢
    simp only [List.flatMap_cons, List.length_append, String.length_utf8EncodeChar, List.length_cons]
    omega

theorem checkReference_ok_iff (reference : Bytes) : checkReference reference = .ok () ↔ reference.length ≤ 256 := by
  unfold checkReference
  split <;> simp_all

theorem checkReference_kind {reference : Bytes} {e : StreamError} (failed : checkReference reference = .error e) :
    e.kind = .referenceTooLong := by
  unfold checkReference at failed
  split at failed <;> cases failed
  rfl

section Reference
variable (scalars : List Char) (stream : Bytes) (offset : UInt64)

/-- An operation that makes the check counts bytes. -/
theorem checked_limit_iff (op : Op) (check : op.checkArguments = checkReference (encodeText scalars)) :
    LimitKept op (256 < scalars.length) ↔ (encodeText scalars).length ≤ 256 ∨ 256 < scalars.length := by
  have bytes := (encodeText_length scalars).1
  have kind : ∀ e, op.checkArguments = .error e → e.kind = .referenceTooLong :=
    fun e failed => checkReference_kind (check.symm.trans failed)
  rw [limitKept_iff kind, check, ne_eq, checkReference_ok_iff]
  omega

theorem queryOffset_limit_iff :
    LimitKept (.queryOffset (encodeText scalars) stream) (256 < scalars.length) ↔ scalars.length ≤ 256 := by
  have kind : ∀ e, (Op.queryOffset (encodeText scalars) stream).checkArguments = .error e →
      e.kind = .referenceTooLong := by
    intro e failed
    cases failed
  rw [limitKept_iff kind]
  simp [Op.checkArguments]

/-- When each of the three keeps the limit, and when all of them do. -/
theorem reference_limit_iff :
    (ReferenceLimit scalars stream offset ↔ (encodeText scalars).length ≤ 256) ∧
    (LimitKept (.storeOffset (encodeText scalars) stream offset) (256 < scalars.length) ↔
      (encodeText scalars).length ≤ 256 ∨ 256 < scalars.length) ∧
    (LimitKept (.queryOffset (encodeText scalars) stream) (256 < scalars.length) ↔ scalars.length ≤ 256) ∧
    (LimitKept (.queryPublisherSequence (encodeText scalars) stream) (256 < scalars.length) ↔
      (encodeText scalars).length ≤ 256 ∨ 256 < scalars.length) := by
  have store := checked_limit_iff scalars (.storeOffset (encodeText scalars) stream offset) rfl
  have query := queryOffset_limit_iff scalars stream
  have publisher := checked_limit_iff scalars (.queryPublisherSequence (encodeText scalars) stream) rfl
  refine ⟨?_, store, query, publisher⟩
  have bytes := (encodeText_length scalars).1
  constructor
  · rintro ⟨storeKept, queryKept, _⟩
    have short := query.mp queryKept
    rcases store.mp storeKept with fits | long
    · exact fits
    · omega
  · intro fits
    exact ⟨store.mpr (.inl fits), query.mpr (bytes.trans fits), publisher.mpr (.inl fits)⟩

end Reference

/-- 129 characters of two bytes each are refused by `store_offset`. -/
theorem reference_counted_in_bytes :
    ¬ ∀ (scalars : List Char) (stream : Bytes) (offset : UInt64), ReferenceLimit scalars stream offset := by
  intro claimed
  have kept := (claimed (List.replicate 129 (Char.ofNat 233)) [] 0).storeOffset
  have size : (encodeText (List.replicate 129 (Char.ofNat 233))).length = 258 := by decide +kernel
  rcases (checked_limit_iff _ _ rfl).mp kept with fits | long
  · rw [size] at fits
    omega
  · rw [List.length_replicate] at long
    omega

end RmqStream
