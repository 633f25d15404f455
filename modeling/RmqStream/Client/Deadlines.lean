import RmqStream.Client.Reasons

/-! A request is given all of its time.

A call times out through the reaper of the I/O thread, which goes by the deadline in its entry, or
by itself, which goes by when it began to wait. Both are later than the call by the timeout of
the configuration, and no other error looks like this one. -/

set_option autoImplicit false

namespace RmqStream
open Library Commands

/-! ## The kinds of the other errors -/

theorem decodeFrom_kind {tag : CommandType} {body : Bytes} {e : StreamError}
    (failed : decodeFrom (Command.decodeBody : Decode tag.Struct) body = .error e) : e.kind = .decodeError := by
  unfold decodeFrom at failed
  split at failed
  next addressable =>
    rcases outcome : (Command.decodeBody : Decode tag.Struct).run (Cursor.start body addressable) with ⟨result, after⟩
    rw [outcome] at failed
    cases failed
    exact (tag.faithful.sound.error _ _ _ outcome).1
  · cases failed
    rfl

theorem bind_kind {α β : Type} {decoded : Result α} {verdict : α → Result β} {e : StreamError}
    (failed : decoded.bind verdict = .error e) (decodes : ∀ e, decoded = .error e → e.kind ≠ .requestTimeout)
    (verdicts : ∀ value e, verdict value = .error e → e.kind ≠ .requestTimeout) : e.kind ≠ .requestTimeout := by
  cases decoded with
  | error other =>
    cases failed
    exact decodes _ rfl
  | ok value => exact verdicts value e failed

theorem Op.finish_kind {op : Op} {frame : IncomingFrame} {e : StreamError} (failed : op.finish frame = .error e) :
    e.kind ≠ .requestTimeout := by
  have decodes : ∀ (tag : CommandType) e, decodeFrom (Command.decodeBody : Decode tag.Struct) frame.body = .error e →
      e.kind ≠ .requestTimeout := fun tag e failed => by simp [decodeFrom_kind failed]
  cases op with
  | storeOffset => cases failed
  | createStream stream arguments idempotent =>
    refine bind_kind failed (decodes .createResponse) fun value e verdict => ?_
    unfold createStreamResult at verdict
    split_ifs at verdict <;> cases verdict <;> simp [serverError]
  | deleteStream stream idempotent =>
    refine bind_kind failed (decodes .deleteResponse) fun value e verdict => ?_
    unfold deleteStreamResult at verdict
    split_ifs at verdict <;> cases verdict <;> simp [serverError, streamMissing]
  | queryOffset reference stream =>
    refine bind_kind failed (decodes .queryOffsetResponse) fun value e verdict => ?_
    unfold queryOffsetResult at verdict
    split_ifs at verdict <;> cases verdict <;> simp [serverError, streamMissing]
  | queryPublisherSequence reference stream =>
    refine bind_kind failed (decodes .queryPublisherResponse) fun value e verdict => ?_
    unfold queryPublisherResult at verdict
    split_ifs at verdict <;> cases verdict <;> simp [serverError, streamMissing]

theorem Op.checkArguments_kind {op : Op} {e : StreamError} (failed : op.checkArguments = .error e) :
    e.kind = .referenceTooLong := by
  cases op with
  | storeOffset | queryPublisherSequence => exact checkReference_kind failed
  | _ => cases failed

theorem checkOutboundFrameSize_kind {size : Nat} {limit : UInt32} {e : StreamError}
    (failed : checkOutboundFrameSize size limit = .error e) : e.kind = .protocolViolation := by
  unfold checkOutboundFrameSize at failed
  split_ifs at failed
  cases failed
  rfl

theorem SocketWriter.step_kind {s w : SocketWriter} {a : WriteAction}
    (kinds : ∀ k part e, s.calls k = .returned part (.error e) → e.kind ≠ .requestTimeout) (run : s.step a = some w) :
    ∀ k part e, w.calls k = .returned part (.error e) → e.kind ≠ .requestTimeout := by
  intro k part e failed
  have kept : ∀ n c, w.calls = Function.update s.calls n c → (∀ part e, c = .returned part (.error e) →
      e.kind ≠ .requestTimeout) → e.kind ≠ .requestTimeout := by
    intro n c calls new
    rw [calls] at failed
    by_cases same : k = n
    · rw [same, Function.update_self] at failed
      exact new part e failed
    · rw [Function.update_of_ne same] at failed
      exact kinds k part e failed
  revert run
  fun_cases SocketWriter.step s a <;> intro run <;> cases run
  case case7.refl => exact kinds k part e failed
  case case8.refl =>
    refine kept _ _ rfl ?_
    rintro _ _ ⟨⟩
    simp [sendFailed]
  case case9.refl =>
    refine kept _ _ rfl ?_
    rintro _ _ ⟨⟩
    simp [closedDuringSend]
  all_goals exact kept _ _ rfl (by simp)

theorem reach_writeKinds {cfg : ConnectionConfig} {allowed : Transport → Traffic → Prop} {s : Transport}
    (reach : (transport cfg).Reach allowed s) :
    ∀ k part e, s.writer.calls k = .returned part (.error e) → e.kind ≠ .requestTimeout := by
  have alone : socketWriter.Reach Machine.anyStep s.writer :=
    reach_writer (fun _ _ _ => trivial) (fun _ _ _ _ _ => trivial) reach
  refine alone.invariant (fun w => ∀ k part e, w.calls k = .returned part (.error e) → e.kind ≠ .requestTimeout) ?_ ?_
  · rintro _ rfl k part e failed
    cases failed
  · intro w a w' _ kinds _ run
    exact SocketWriter.step_kind kinds run

theorem reach_endedKind {cfg : ConnectionConfig} {allowed : Client → Action → Prop} {s : Client}
    (reach : (client cfg).Reach allowed s) : ∀ ending e, s.ended = some (ending, e) → e.kind ≠ .requestTimeout := by
  refine reach.invariant (fun s => ∀ ending e, s.ended = some (ending, e) → e.kind ≠ .requestTimeout) ?_ ?_
  · rintro _ rfl ending e ended
    cases ended
  · intro s a s' _ kinds _ run ending e ended
    rcases Client.step_sides run with ⟨_, _, _, _, _, _, _, _, _, rfl⟩ | ⟨input, rfl, moved⟩ | ⟨input, rfl, moved⟩
    · exact kinds ending e ended
    · obtain ⟨_, _, _, _, _, _, _, _, _, _, _, _, _, _, _, rfl⟩ := Client.controlStep_writes moved
      exact kinds ending e ended
    · cases Client.ioStep_move moved with
      | readError _ kind =>
        cases ended
        exact kind
      | deadline =>
        cases ended
        simp [Client.heartbeatTimeout]
      | _ => exact kinds ending e ended

/-! ## Deadlines -/

namespace Client
variable {cfg : ConnectionConfig} {s s' : Client} {n : Nat} {begin : Int}

theorem step_entries {a : Action} {e : PendingEntry} (run : step cfg s a = some s')
    (member : e ∈ s'.dispatcher.entries) :
    e ∈ s.dispatcher.entries ∨ (∃ op, s.calls e.owner = .register op e.correlationId e.deadline) ∨
      s.control = .closeRegister e.owner e.correlationId e.deadline := by
  rcases step_threads run with ⟨_, _, _, _, _, rfl⟩ | ⟨n, input, rfl, run⟩ | ⟨input, rfl, run⟩ |
    ⟨input, rfl, run⟩ | ⟨input, rfl, run⟩
  · exact .inl member
  · cases callStep_move run with
    | @register op cid deadline here =>
      rcases List.mem_cons.mp ((Dispatcher.entries_register _ _).mem_iff.mp member) with rfl | old
      · exact .inr (.inl ⟨op, here⟩)
      · exact .inl old
    | _ => exact .inl member
  · cases controlStep_move run with
    | handshake => exact .inl (by rwa [handshakeStep_dispatcher] at member)
    | closeRegister here =>
      rcases List.mem_cons.mp ((Dispatcher.entries_register _ _).mem_iff.mp member) with rfl | old
      · exact .inr (.inr here)
      · exact .inl old
    | closeFail => exact .inl ((Dispatcher.entries_take _ _ _).mem_iff.mp member)
    | closeFailOne _ settle => exact .inl ((Dispatcher.entries_settle settle).mem_iff.mp member)
    | _ => exact .inl member
  · cases ioStep_move run with
    | reap | fail => exact .inl ((Dispatcher.entries_take _ _ _).mem_iff.mp member)
    | expire _ settle | answer _ settle | failOne _ settle =>
      exact .inl ((Dispatcher.entries_settle settle).mem_iff.mp member)
    | @dispatch index frame =>
      left
      simp only [Dispatcher.dispatchTake] at member
      split at member
      · split at member
        · exact member
        · exact (Dispatcher.entries_take _ _ _).mem_iff.mp member
      · exact member
    | _ => exact .inl member
  · obtain ⟨_, _, _, rfl⟩ := heartbeatStep_writes run
    exact .inl member

def DueSince (cfg : ConnectionConfig) (begin now deadline : Int) : Prop :=
  ∃ t, begin ≤ t ∧ t ≤ now ∧ deadline = deadlineAfter t cfg.requestTimeout

/-- The 64-bit nanoseconds of the clock hold the deadline of everything that begins in this span. -/
def TimeoutFits (cfg : ConnectionConfig) (begin now : Int) : Prop :=
  -2 ^ 63 ≤ (begin + cfg.requestTimeout) * 1000000 ∧ (now + cfg.requestTimeout) * 1000000 < 2 ^ 63

theorem DueSince.later {now later deadline : Int} (due : DueSince cfg begin now deadline) (passed : now ≤ later) :
    DueSince cfg begin later deadline := by
  obtain ⟨t, after, before, same⟩ := due
  exact ⟨t, after, before.trans passed, same⟩

theorem DueSince.not_early {now deadline : Int} (due : DueSince cfg begin now deadline)
    (fits : TimeoutFits cfg begin now) (late : deadline ≤ now) : begin + cfg.requestTimeout ≤ now := by
  obtain ⟨low, high⟩ := fits
  obtain ⟨t, after, before, same⟩ := due
  have exact : deadlineAfter t cfg.requestTimeout = t + cfg.requestTimeout :=
    deadlineAfter_eq (by omega) (by omega)
  omega

theorem TimeoutFits.earlier {now later : Int} (fits : TimeoutFits cfg begin later) (passed : now ≤ later) :
    TimeoutFits cfg begin now := by
  obtain ⟨low, high⟩ := fits
  exact ⟨low, by omega⟩

/-- What has to do with a call that was made after this moment. -/
structure Since (cfg : ConnectionConfig) (begin : Int) (n : Nat) (s : Client) : Prop where
  now : begin ≤ s.now
  registers : ∀ op cid deadline, s.calls n = .register op cid deadline → DueSince cfg begin s.now deadline
  closes : ∀ cid deadline, s.control = .closeRegister n cid deadline → DueSince cfg begin s.now deadline
  entries : ∀ e ∈ s.dispatcher.entries, e.owner = n → DueSince cfg begin s.now e.deadline
  waits : ∀ op cid since, s.calls n = .wait op cid since → begin ≤ since ∧ since ≤ s.now

theorem since_idle (linked : Linked s) (idle : s.calls n = .idle) : Since cfg s.now n s where
  now := le_refl _
  registers := by simp [idle]
  closes := by
    intro cid deadline here
    have mine := linked.control
    rw [here] at mine
    obtain ⟨closing, _⟩ := mine
    rw [idle] at closing
    cases closing
  entries := by
    rintro e member rfl
    have fresh := linked.calls e.owner
    obtain ⟨k, ticket, _⟩ := linked.table.owned e member
    rw [idle, ticket] at fresh
    cases fresh
  waits := by simp [idle]

theorem step_since {a : Action} (since : Since cfg begin n s) (run : step cfg s a = some s') :
    Since cfg begin n s' where
  now := since.now.trans (step_clock run)
  registers := by
    intro op cid deadline here
    have later := step_clock run
    rcases step_calls run n with same | ⟨_, ⟨other, begun, _⟩ | begun⟩ | ⟨input, rfl⟩
    · exact (since.registers op cid deadline (same ▸ here)).later later
    · simp [begun] at here
    · simp [begun] at here
    · cases callStep_move run with
      | deadline =>
        simp only [setCall, Function.update_self, CallPc.register.injEq] at here
        exact ⟨s.now, since.now, later, here.2.2.symm⟩
      | accepted | write =>
        simp only [setCall, Client.write, Function.update_self] at here
        split at here <;> cases here
      | _ => simp [setCall, Client.write] at here
  closes := by
    intro cid deadline here
    have later := step_clock run
    rcases step_begins run with same | early | ⟨input, rfl⟩
    · exact (since.closes cid deadline (same ▸ here)).later later
    · rw [here] at early
      cases early
    · cases controlStep_move run with
      | closeDeadline =>
        simp only [ControlPc.closeRegister.injEq] at here
        exact ⟨s.now, since.now, later, here.2.2.symm⟩
      | @handshake replies =>
        rcases handshakeStep_control cfg s replies with opened | ⟨e, failed⟩ <;> simp_all
      | _ => simp_all [finish]
  entries := by
    intro e member owner
    have due : DueSince cfg begin s.now e.deadline := by
      rcases step_entries run member with old | ⟨op, here⟩ | here
      · exact since.entries e old owner
      · exact since.registers op _ _ (owner ▸ here)
      · exact since.closes _ _ (owner ▸ here)
    exact due.later (step_clock run)
  waits := by
    intro op cid began here
    have later := step_clock run
    rcases step_calls run n with same | ⟨_, ⟨other, begun, _⟩ | begun⟩ | ⟨input, rfl⟩
    · obtain ⟨after, before⟩ := since.waits op cid began (same ▸ here)
      exact ⟨after, before.trans later⟩
    · simp [begun] at here
    · simp [begun] at here
    · cases callStep_move run with
      | written =>
        simp only [setCall, Function.update_self, CallPc.wait.injEq] at here
        obtain ⟨_, _, rfl⟩ := here
        exact ⟨since.now, later⟩
      | accepted | write =>
        simp only [setCall, Client.write, Function.update_self] at here
        split at here <;> cases here
      | _ => simp [setCall, Client.write] at here

end Client

/-! ## Timeouts -/

namespace Transport
variable {cfg : ConnectionConfig} {s s' : Transport}

theorem step_timeout {a : Traffic} {n : Nat} {op : Op} {begin : Int} (reach : (transport cfg).Reach Machine.anyStep s)
    (run : step cfg s a = some s') (since : Client.Since cfg begin n s.client) (clocked : s.client.Clocked)
    (fits : Client.TimeoutFits cfg begin s.client.now)
    (late : s'.client.calls n = .returned op (.error requestTimedOut)) :
    s.client.calls n = .returned op (.error requestTimedOut) ∨ begin + cfg.requestTimeout ≤ s.client.now := by
  have reached := reach_client (reach_reception reach)
  have table := (reach_linked reached).table
  have ended := reach_endedKind reached
  have settled := (reach_failsRightly reached).settled
  have expires : ∀ x ∈ s.client.dispatcher.settled, x.entry.owner = n → x.cause.result = .error requestTimedOut →
      begin + cfg.requestTimeout ≤ s.client.now := by
    intro x member owner result
    have valid := table.valid x member
    cases cause : x.cause with
    | response index frame =>
      rw [cause] at result
      cases result
    | expired now =>
      rw [cause] at valid
      have due := since.entries x.entry (Dispatcher.mem_entries_settled member) owner
      exact due.not_early fits (valid.trans (clocked.expired x member now cause))
    | failed error =>
      rw [cause] at result
      cases result
      rcases settled x member _ cause with ⟨ending, same⟩ | ⟨same, _⟩
      · exact absurd rfl (ended ending _ same)
      · cases same
  have fails : ∀ b, s.client.step cfg b = some s'.client → (∀ result, b = .call n (.sent (.error result)) →
      result.kind ≠ .requestTimeout) → s.client.calls n = .returned op (.error requestTimedOut) ∨
        begin + cfg.requestTimeout ≤ s.client.now := by
    intro b moved writes
    rcases Client.step_failure moved late with before | failure
    · exact .inl before
    · right
      generalize same : requestTimedOut = e at failure
      have kind : e.kind = .requestTimeout := by rw [← same]; rfl
      cases failure with
      | notOpen => cases kind
      | argument _ check => simp [Op.checkArguments_kind check] at kind
      | tooLarge _ check => simp [checkOutboundFrameSize_kind check] at kind
      | write => exact absurd kind (writes e rfl)
      | value _ set =>
        rw [← same] at set
        obtain ⟨x, member, owner, result⟩ := Dispatcher.value_settled set
        exact expires x member owner result
      | timedOut here _ late =>
        obtain ⟨after, before⟩ := since.waits _ _ _ here
        exact Client.DueSince.not_early ⟨_, after, before, rfl⟩ fits late
      | response _ finish => exact absurd kind (Op.finish_kind finish)
  cases step_clientMove (reach_wired reach) (reach_writer_locked reach) run with
  | still same => exact .inl (same ▸ late)
  | own moved silent =>
    refine fails _ moved ?_
    rintro result rfl
    cases silent
  | @returned t k frame part result moved _ _ _ done =>
    refine fails _ moved fun error same => ?_
    have failed : result = .error error := by
      cases t <;> cases same
      rfl
    rw [failed] at done
    exact reach_writeKinds (reach.step trivial run) k part error done

end Transport

def TimedFrom (cfg : ConnectionConfig) (earlier s : Transport) (n : Nat) : Prop :=
  Client.Since cfg earlier.client.now n s.client ∧ (Client.TimeoutFits cfg earlier.client.now s.client.now →
    ∀ op, s.client.calls n = .returned op (.error requestTimedOut) →
      earlier.client.now + cfg.requestTimeout ≤ s.client.now)

theorem path_since {cfg : ConnectionConfig} {run : List Transport} (path : (transport cfg).Path Machine.anyStep run) :
    ∀ s ∈ run.head?, ∀ earlier ∈ run, ∀ n, earlier.client.calls n = .idle → TimedFrom cfg earlier s n := by
  have fresh : ∀ s : Transport, (transport cfg).Reach Machine.anyStep s → ∀ n, s.client.calls n = .idle →
      TimedFrom cfg s s n := by
    intro s reach n idle
    exact ⟨Client.since_idle (reach_linked (reach_client (reach_reception reach))) idle, by simp [idle]⟩
  induction path with
  | init first =>
    rintro s ⟨⟩ earlier member n idle
    rw [List.mem_singleton.mp member] at idle ⊢
    exact fresh _ (.init first) n idle
  | @step before after past a path allow move ih =>
    rintro s ⟨⟩ earlier member n idle
    have reach := path.reach List.mem_cons_self
    rcases List.mem_cons.mp member with rfl | older
    · exact fresh _ (reach.step allow move) n idle
    · obtain ⟨since, timeout⟩ := ih before rfl earlier older n idle
      have clocked := reach_clocked (reach_client (reach_reception reach))
      obtain ⟨since', later⟩ : Client.Since cfg earlier.client.now n after.client ∧
          before.client.now ≤ after.client.now := by
        rcases (Transport.step_clientMove (reach_wired reach) (reach_writer_locked reach) move).moves with
          same | ⟨b, moved⟩
        · rw [same]
          exact ⟨since, le_refl _⟩
        · exact ⟨Client.step_since since moved, Client.step_clock moved⟩
      refine ⟨since', fun fits op late => ?_⟩
      have fitted := fits.earlier later
      rcases Transport.step_timeout reach move since clocked fitted late with old | passed
      · exact (timeout fitted op old).trans later
      · exact passed.trans later

/-- A call returns with a request timeout no earlier than the timeout after any moment at which it
had not been made, where the clock can hold the deadline. -/
theorem timeout_not_early {cfg : ConnectionConfig} {s : Transport} {past : List Transport}
    (path : (transport cfg).Path Machine.anyStep (s :: past)) {n : Nat} {op : Op}
    (late : s.client.calls n = .returned op (.error requestTimedOut)) :
    ∀ earlier ∈ past, earlier.client.calls n = .idle →
      Client.TimeoutFits cfg earlier.client.now s.client.now →
        s.client.now - earlier.client.now ≥ cfg.requestTimeout := by
  intro earlier member idle fits
  have passed := (path_since path s rfl earlier (List.mem_cons_of_mem _ member) n idle).2 fits op late
  omega

/-- Nobody answers a `delete_stream`, and its own wait ends it. -/
theorem timeout_not_early_waiting : ∃ s past, (transport {}).Path Machine.anyStep (s :: past) ∧
    s.client.calls 0 = .returned (.deleteStream (text "s") false) (.error requestTimedOut) ∧
    ∃ earlier ∈ past, Client.TimeoutFits {} earlier.client.now s.client.now ∧
      s.client.now - earlier.client.now ≥ 10000 := by
  have ran : ((transport {}).exec Machine.anyStep {} ((listening ⟨1048576, 0⟩).map .other ++
      sending 0 (.deleteStream (text "s") false) 7 15 ++
      [.call 0 .none, .tick 10000, .call 0 .none].map (fun a => .other (.client a)))).any (fun s =>
        s.client.now = 10000 ∧
        s.client.calls 0 = .returned (.deleteStream (text "s") false) (.error requestTimedOut)) = true := by
    decide +kernel
  obtain ⟨s, final, holds⟩ := (Option.any_eq_true _ _).mp ran
  obtain ⟨now, late⟩ := of_decide_eq_true holds
  obtain ⟨past, path, before⟩ := Machine.Path.exec (.init rfl) final
  have member : ({} : Transport) ∈ past := by
    rcases List.mem_cons.mp (before.subset List.mem_cons_self) with same | inside
    · rw [← same] at late
      cases late
    · exact inside
  have fits : Client.TimeoutFits {} ({} : Transport).client.now s.client.now := by
    rw [now]
    constructor <;> decide
  exact ⟨s, past, path, late, {}, member, fits, timeout_not_early path late {} member rfl fits⟩

end RmqStream
