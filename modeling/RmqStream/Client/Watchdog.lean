import RmqStream.Client.Reception

/-! Which silences end the connection.

`io_loop` looks at the heartbeat deadline when `read_frame` reports a timeout, and
`read_frame` reports one only while it has no byte of a frame. With a byte in hand the same
timeout, a quarter of the deadline, is an I/O error and ends the loop, also where no
heartbeat was agreed on. The connection survives every shorter silence in the runs in which
the socket times out between frames only. -/

set_option autoImplicit false

namespace RmqStream
open Library

def Occurrence.isTimeout : Occurrence → Bool
  | .recv outcome => outcome.isTimeout
  | .client _ => false

namespace Reception

def timedOut (s : Reception) : Bool := (s.past ++ s.call).getLast?.any RecvOutcome.isTimeout

/-- More than twice the heartbeat without a byte; never when no heartbeat was agreed. -/
def silent (s : Reception) : Prop :=
  s.client.negotiatedHeartbeat > 0 ∧
    s.client.now - s.lastByte > (s.client.negotiatedHeartbeat.toNat : Int) * 2 * 1000

instance (s : Reception) : Decidable s.silent := inferInstanceAs (Decidable (_ ∧ _))

/-- A timeout does not fall inside a frame, unless the silence is long enough to end the
connection. -/
def TimesOutBetweenFrames (s : Reception) (o : Occurrence) : Prop :=
  o.isTimeout = true → s.reader.bytes = [] ∨ s.silent

instance (s : Reception) (o : Occurrence) : Decidable (s.TimesOutBetweenFrames o) :=
  inferInstanceAs (Decidable (_ → _))

def OwnStep (_ : Reception) (o : Occurrence) : Prop := ∃ input, o = .client (.io input)

/-- On its own the I/O thread comes back to the read that it is in, or to the next one. -/
def Resumes (cfg : ConnectionConfig) (s : Reception) : Prop :=
  ∃ s', ((reception cfg).startingAt s).Reach OwnStep s' ∧ s'.client.io = .reading ∧
    s'.reader = s.reader ∧ s'.received = s.received ∧ s'.arrived = s.arrived

end Reception

/-- No silence but the longest ends the connection. -/
structure SurvivesSilence (cfg : ConnectionConfig) (s : Reception) : Prop where
  ended : s.client.ended.isSome → s.timedOut = true → s.silent
  resumes : s.client.ended = none → s.timedOut = true → ¬ s.silent → s.client.stopIo = false → s.Resumes cfg
  intact : s.arrived = frames s.received

/-! ## The stamps of the client -/

def ControlPc.stamped : ControlPc → Bool
  | .connectFlags | .connectStartIo => true
  | _ => false

def IoPc.current : IoPc → Bool
  | .top | .reading | .timedOut | .stamped _ _ | .reap _ _ | .reaping _ _ | .dispatch _ _
  | .dispatching _ _ => true
  | _ => false

namespace Client
variable {cfg : ConnectionConfig} {s s' : Client}

theorem step_elsewhere {a : Action} (noControl : ∀ input, a ≠ .control input) (noIo : ∀ input, a ≠ .io input)
    (run : s.step cfg a = some s') : s.now ≤ s'.now ∧ s'.io = s.io ∧ s'.lastInbound = s.lastInbound ∧
      (s'.control.stamped = true → s.control.stamped = true) := by
  cases a with
  | tick milliseconds =>
    cases run
    exact ⟨Int.le_add_of_nonneg_right (Int.natCast_nonneg milliseconds), rfl, rfl, id⟩
  | onUnexpectedClose =>
    cases run
    exact ⟨Int.le_refl _, rfl, rfl, id⟩
  | invoke n op =>
    obtain ⟨_, rfl⟩ := step_invoke run
    exact ⟨Int.le_refl _, rfl, rfl, id⟩
  | connect =>
    obtain ⟨_, ⟨e, rfl⟩ | rfl⟩ := step_connect run <;>
      exact ⟨Int.le_refl _, rfl, rfl, by simp [finish, ControlPc.stamped]⟩
  | close n =>
    obtain ⟨_, _, rfl⟩ := step_close run
    exact ⟨Int.le_refl _, rfl, rfl, by simp [ControlPc.stamped]⟩
  | destroy =>
    obtain ⟨_, rfl⟩ := step_destroy run
    exact ⟨Int.le_refl _, rfl, rfl, by simp [ControlPc.stamped]⟩
  | call n input =>
    obtain ⟨_, _, _, _, rfl⟩ := callStep_writes run
    exact ⟨Int.le_refl _, rfl, rfl, id⟩
  | control input => exact absurd rfl (noControl input)
  | io input => exact absurd rfl (noIo input)
  | heartbeat input =>
    obtain ⟨_, _, _, rfl⟩ := heartbeatStep_writes run
    exact ⟨Int.le_refl _, rfl, rfl, id⟩

theorem step_clock {a : Action} (run : s.step cfg a = some s') : s.now ≤ s'.now := by
  cases a with
  | control input =>
    obtain ⟨_, _, _, _, _, _, _, _, _, _, _, _, _, _, _, rfl⟩ := controlStep_writes run
    exact Int.le_refl _
  | io input =>
    obtain ⟨_, _, _, _, _, _, _, _, _, rfl⟩ := ioStep_writes run
    exact Int.le_refl _
  | _ => exact (step_elsewhere (by simp) (by simp) run).1

theorem step_current {a : Action} (run : s.step cfg a = some s') (own : ∀ reply, a ≠ .io (.read reply))
    (current : s'.control.stamped = true ∨ s'.io.current = true) : s'.lastInbound = s'.now ∨
      s'.lastInbound = s.lastInbound ∧ (s.control.stamped = true ∨ s.io.current = true) := by
  cases a with
  | control input =>
    revert current
    cases controlStep_move run with
    | connectStamp => exact fun _ => .inl rfl
    | connectFlags here | startIo here => exact fun _ => .inr ⟨rfl, .inl (by rw [here]; rfl)⟩
    | @handshake replies =>
      obtain ⟨frames, ⟨e, same⟩ | ⟨frameMax, interval, same⟩⟩ := handshakeStep_eq cfg s replies <;>
        rw [same] <;> simp +contextual [ControlPc.stamped]
    | closeFailOne => exact fun current => .inr ⟨rfl, current⟩
    | _ => simp +contextual [ControlPc.stamped, finish, write]
  | io input =>
    revert current
    cases ioStep_move run with
    | frame | timeout | readError => exact absurd rfl (own _)
    | stamp => exact fun _ => .inl rfl
    | expire | answer | failOne => exact fun current => .inr ⟨rfl, current⟩
    | top here | reaped here => exact fun _ => .inr ⟨rfl, .inr (by rw [here]; rfl)⟩
    | readClosing =>
      intro current
      refine .inr ⟨rfl, current.imp_right fun current => ?_⟩
      cases closing : s.closing <;> simp [closing, IoPc.current] at current
    | _ => simp_all [IoPc.current]
  | _ =>
    obtain ⟨_, io, stamp, control⟩ := step_elsewhere (by simp) (by simp) run
    exact .inr ⟨stamp, current.imp control fun current => io ▸ current⟩

end Client

/-! ## The timed run -/

namespace Reception
variable {cfg : ConnectionConfig} {s s' : Reception}

structure Timed (s : Reception) : Prop where
  clock : s.lastByte ≤ s.client.now
  current : s.client.control.stamped = true ∨ s.client.io.current = true ∧ s.reader.bytes = [] →
    s.lastByte ≤ s.client.lastInbound
  carried : ∀ frame ∈ s.client.io.frame, s.timedOut = false
  ended : s.client.ended.isSome → s.timedOut = true → s.silent

/-- Only the handshake is heard outside the loop. -/
theorem follow_lastByte {a : Action} {client : Client} (staged : s.client.control.Staged s.client)
    (run : s.client.step cfg a = some client) : (s.follow a client).lastByte = s.lastByte ∨
      s.client.io = .notStarted ∧ client.io = .notStarted ∧ client.control.stamped = false ∧
        (s.follow a client).lastByte = client.now := by
  cases a with
  | control input =>
    cases input with
    | script replies =>
      cases Client.controlStep_move run with
      | handshake here =>
        rw [here] at staged
        refine .inr ⟨staged.2.1, (Client.handshakeStep_io cfg s.client replies).trans staged.2.1, ?_, rfl⟩
        rcases Client.handshakeStep_control cfg s.client replies with opened | ⟨e, aborted⟩
        · rw [opened]
          rfl
        · rw [aborted]
          rfl
    | _ => exact .inl rfl
  | _ => exact .inl rfl

theorem stamped_unstarted {client : Client} (staged : client.control.Staged client)
    (stamped : client.control.stamped = true) : client.io = .notStarted := by
  cases here : client.control <;> simp_all [ControlPc.stamped, ControlPc.Staged]

theorem silent_later {client : Client} (silent : s.silent)
    (agreed : client.negotiatedHeartbeat = s.client.negotiatedHeartbeat) (later : s.client.now ≤ client.now)
    (quiet : s'.lastByte = s.lastByte) (same : s'.client = client) : s'.silent := by
  unfold Reception.silent at silent ⊢
  rw [same, agreed, quiet]
  exact ⟨silent.1, by omega⟩

theorem follow_timed {a : Action} {client : Client} (timed : s.Timed) (tracked : s.Tracked)
    (looping : Looping s.client) (staged : s.client.control.Staged s.client)
    (after : client.control.Staged client) (run : s.client.step cfg a = some client)
    (own : ∀ reply, a ≠ .io (.read reply)) : (s.follow a client).Timed where
  clock := by
    rcases follow_lastByte staged run with same | ⟨_, _, _, now⟩
    · rw [same]
      exact timed.clock.trans (Client.step_clock run)
    · exact Int.le_of_eq now
  current := by
    intro current
    have fresh : client.control.stamped = true ∨ client.io.current = true := current.imp_right And.left
    -- Before the loop there is no byte in hand either.
    have empty : s.reader.bytes = [] := by
      rcases current with stamped | ⟨_, empty⟩
      · have unstarted := stamped_unstarted after stamped
        have idle := (follow_tracked tracked staged run own).idle
        rw [show s.reader = .start from idle (by simp [follow, unstarted])]
        rfl
      · exact empty
    rcases follow_lastByte staged run with same | ⟨_, unstarted, unstamped, _⟩
    · rw [same]
      show s.lastByte ≤ client.lastInbound
      rcases Client.step_current run own fresh with stamped | ⟨still, before⟩
      · rw [stamped]
        exact timed.clock.trans (Client.step_clock run)
      · rw [still]
        exact timed.current (before.imp_right fun io => ⟨io, empty⟩)
    · rw [unstamped, unstarted] at fresh
      simp [IoPc.current] at fresh
  carried frame member := timed.carried frame (Client.step_frame run own frame member)
  ended := by
    intro ended woken
    have started : s.client.io ≠ .notStarted := by
      intro unstarted
      have going := looping.running (by rw [unstarted]; rfl)
      rcases Client.step_ended run own with same | ⟨here, _⟩
      · rw [show (s.follow a client).client.ended = none from same.trans going] at ended
        cases ended
      · rw [unstarted] at here
        cases here
    have quiet : (s.follow a client).lastByte = s.lastByte :=
      (follow_lastByte staged run).resolve_right fun heard => started heard.1
    have agreed : client.negotiatedHeartbeat = s.client.negotiatedHeartbeat := by
      refine (Client.step_agreed run).elim And.right fun here => ?_
      rw [here] at staged
      exact absurd staged.2.1 started
    rcases Client.step_ended run own with same | ⟨here, silent⟩
    · refine silent_later (timed.ended ?_ woken) agreed (Client.step_clock run) quiet rfl
      rw [← same]
      exact ended
    · -- The stamp that was compared is not older than the last byte.
      have current := timed.current (.inr ⟨by rw [here]; rfl, by rw [tracked.idle (by simp [here])]; rfl⟩)
      refine silent_later ⟨silent.1, ?_⟩ agreed (Client.step_clock run) quiet rfl
      have := silent.2
      omega

theorem heard_le (timed : s.Timed) (outcome : RecvOutcome) : s.heard outcome ≤ s.client.now := by
  unfold heard
  split
  · exact timed.clock
  · exact Int.le_refl _

theorem heard_timeout {outcome : RecvOutcome} (timeout : outcome.isTimeout = true) :
    s.heard outcome = s.lastByte := by
  cases outcome <;> first | rfl | cases timeout

theorem last_isTimeout (past call : Schedule) (outcome : RecvOutcome) :
    (past ++ (call ++ [outcome])).getLast?.any RecvOutcome.isTimeout = outcome.isTimeout := by
  rw [← List.append_assoc, List.getLast?_concat]
  rfl

theorem step_timed {o : Occurrence} (timed : s.Timed) (tracked : s.Tracked) (looping : Looping s.client)
    (staged : s.client.control.Staged s.client) (after : s'.client.control.Staged s'.client)
    (between : s.TimesOutBetweenFrames o) (run : step cfg s o = some s') : s'.Timed := by
  have started (here : s.client.io = .reading) : s.client.control.stamped ≠ true := fun stamped => by
    rw [stamped_unstarted staged stamped] at here
    cases here
  cases step_move run with
  | client moved own => exact follow_timed timed tracked looping staged after moved own
  | @more outcome reader here took =>
    have going := looping.running (by rw [here]; rfl)
    refine ⟨heard_le timed outcome, ?_, by simp [here, IoPc.frame], by simp [going]⟩
    rintro (stamped | ⟨_, empty⟩)
    · exact absurd stamped (started here)
    · -- Nothing came and nothing was there.
      rw [ReaderPc.recv_more took, List.append_eq_nil_iff] at empty
      show s.heard outcome ≤ _
      rw [heard, if_pos empty.2]
      exact timed.current (.inr ⟨by rw [here]; rfl, empty.1⟩)
  | @frame outcome frame here took =>
    have going := looping.running (by rw [here]; rfl)
    refine ⟨heard_le timed outcome, ?_, fun _ _ => ?_, by simp [going]⟩
    · rintro (stamped | ⟨current, _⟩)
      · exact absurd stamped (started here)
      · cases current
    · simp only [timedOut, List.append_nil, last_isTimeout]
      cases outcome with
      | timeout strerror =>
        rw [ReaderPc.recv_timeout] at took
        cases took
      | _ => rfl
  | @timeout outcome e here took kind =>
    have going := looping.running (by rw [here]; rfl)
    obtain ⟨empty, timeout⟩ := (ReaderPc.recv_failed took).2 kind
    refine ⟨heard_le timed outcome, fun _ => ?_, by simp [IoPc.frame], by simp [going]⟩
    show s.heard outcome ≤ _
    rw [heard_timeout timeout]
    exact timed.current (.inr ⟨by rw [here]; rfl, empty⟩)
  | @failed outcome e here took kind =>
    refine ⟨heard_le timed outcome, ?_, by simp [IoPc.frame], fun _ woken => ?_⟩
    · rintro (stamped | ⟨current, _⟩)
      · exact absurd stamped (started here)
      · cases current
    · simp only [timedOut, last_isTimeout] at woken
      cases outcome with
      | timeout strerror =>
        -- With nothing in hand it would have been reported as a timeout.
        rw [ReaderPc.recv_timeout] at took
        rcases between rfl with empty | silent
        · rw [if_pos empty] at took
          cases took
          exact absurd rfl kind
        · exact silent
      | _ => cases woken

end Reception

theorem reach_timed {cfg : ConnectionConfig} {s : Reception}
    (reach : (reception cfg).Reach Reception.TimesOutBetweenFrames s) : s.Timed := by
  refine reach.invariant Reception.Timed ?_ ?_
  · rintro _ rfl
    exact ⟨Int.le_refl _, by simp [ControlPc.stamped, IoPc.current], by simp [IoPc.frame], by simp⟩
  · intro s o s' before timed between run
    have client := reach_client before
    have staged := reach_staged (reach_client (before.step between run))
    exact Reception.step_timed timed (reach_tracked before) (reach_looping client) (reach_staged client)
      staged between run

/-! ## Coming back to the read -/

theorem Dispatcher.settle_some {d : Dispatcher} {t : Thread} {n : Nat} (cause : Cause)
    (held : (d.held t).length = n + 1) : ∃ d', d.settle t 0 cause = some d' ∧ (d'.held t).length = n := by
  cases entries : d.held t with
  | nil => simp [entries] at held
  | cons e rest =>
    refine ⟨_, by rw [settle, entries]; rfl, ?_⟩
    simpa [entries] using held

namespace Reception
variable {cfg : ConnectionConfig} {s : Reception}

theorem step_own {input : Input} {client : Client} (moved : s.client.ioStep input = some client)
    (own : ∀ reply, input ≠ .read reply) :
    step cfg s (.client (.io input)) = some (s.follow (.io input) client) := by
  cases input with
  | read reply => exact absurd rfl (own reply)
  | _ => simp only [step, Client.step, moved, Option.map_some]

theorem resumes_own {input : Input} {client : Client} (moved : s.client.ioStep input = some client)
    (own : ∀ reply, input ≠ .read reply) (resumes : (s.follow (.io input) client).Resumes cfg) :
    s.Resumes cfg := by
  obtain ⟨s', run, reading, reader, received, arrived⟩ := resumes
  have first : ((reception cfg).startingAt s).Reach OwnStep (s.follow (.io input) client) :=
    .step (.init rfl) ⟨input, rfl⟩ (step_own moved own)
  exact ⟨s', first.extend (fun _ _ => id) run, reading, reader, received, arrived⟩

theorem resumes_reading (here : s.client.io = .reading) : s.Resumes cfg :=
  ⟨s, .init rfl, here, rfl, rfl, rfl⟩

theorem resumes_top (here : s.client.io = .top) (going : s.client.stopIo = false) : s.Resumes cfg := by
  have moved : s.client.ioStep .none = some { s.client with io := .reading } := by
    simp only [Client.ioStep, here, going, Bool.false_eq_true, ↓reduceIte]
  exact resumes_own moved (by simp) (resumes_reading rfl)

theorem resumes_reaping {now : Int} {n : Nat} (here : s.client.io = .reaping now .loop)
    (going : s.client.stopIo = false) (held : (s.client.dispatcher.held .io).length = n) : s.Resumes cfg := by
  induction n generalizing s with
  | zero =>
    have moved : s.client.ioStep .none = some { s.client with io := .top } := by
      simp only [Client.ioStep, Client.ioDone, here, List.eq_nil_of_length_eq_zero held, ↓reduceIte,
        Client.afterReap]
    exact resumes_own moved (by simp) (resumes_top rfl going)
  | succ n ih =>
    obtain ⟨table, settle, fewer⟩ := Dispatcher.settle_some (.expired now) held
    have moved : s.client.ioStep (.pick 0) = some { s.client with dispatcher := table } := by
      simp only [Client.ioStep, Client.ioSettle, here, settle, Option.map_some]
    exact resumes_own moved (by simp) (ih here going fewer)

theorem resumes_reap {now : Int} (here : s.client.io = .reap now .loop) (going : s.client.stopIo = false) :
    s.Resumes cfg := by
  have moved : s.client.ioStep .none = some { s.client with
      io := .reaping now .loop, dispatcher := s.client.dispatcher.reapTake now } := by
    simp only [Client.ioStep, here]
  exact resumes_own moved (by simp) (resumes_reaping rfl going rfl)

theorem resumes_timedOut (here : s.client.io = .timedOut) (alive : ¬ s.client.silent)
    (going : s.client.stopIo = false) : s.Resumes cfg := by
  have moved : s.client.ioStep .none = some { s.client with io := .reap s.client.now .loop } := by
    simp only [Client.ioStep, here, if_neg alive]
  exact resumes_own moved (by simp) (resumes_reap rfl going)

theorem Timed.resumes (timed : s.Timed) (tracked : s.Tracked) (looping : Looping s.client)
    (going : s.client.ended = none) (woken : s.timedOut = true) (alive : ¬ s.silent)
    (unstopped : s.client.stopIo = false) : s.Resumes cfg := by
  have inLoop : s.client.io.left = false := by
    cases left : s.client.io.left with
    | false => rfl
    | true =>
      rw [looping.stopped left going] at unstopped
      cases unstopped
  -- A frame in hand would be younger than the timeout.
  have noFrame : s.client.io.frame = none := by
    refine Option.eq_none_iff_forall_not_mem.mpr fun frame member => ?_
    rw [timed.carried frame member] at woken
    cases woken
  cases here : s.client.io with
  | notStarted =>
    obtain ⟨past, call, _⟩ := tracked.fresh here
    rw [timedOut, past, call] at woken
    cases woken
  | top => exact resumes_top here unstopped
  | reading => exact resumes_reading here
  | timedOut =>
    -- The stamp that the deadline is measured from is not older than the last byte.
    refine resumes_timedOut here (fun silent => alive ⟨silent.1, ?_⟩) unstopped
    have current := timed.current (.inr ⟨by rw [here]; rfl, by rw [tracked.idle (by simp [here])]; rfl⟩)
    have := silent.2
    omega
  | reap now next =>
    cases next with
    | loop => exact resumes_reap here unstopped
    | dispatch => simp [here, IoPc.frame] at noFrame
  | reaping now next =>
    cases next with
    | loop => exact resumes_reaping here unstopped rfl
    | dispatch => simp [here, IoPc.frame] at noFrame
  | arrived | stamped | dispatch | dispatching => simp [here, IoPc.frame] at noFrame
  | _ => simp [here, IoPc.left] at inLoop

end Reception

theorem reach_survives {cfg : ConnectionConfig} {s : Reception}
    (reach : (reception cfg).Reach Reception.TimesOutBetweenFrames s) : SurvivesSilence cfg s where
  ended := (reach_timed reach).ended
  resumes := (reach_timed reach).resumes (reach_tracked reach) (reach_looping (reach_client reach))
  intact := (reach_tracked reach).frames.symm

/-- A timeout inside a frame ends the connection. -/
theorem interrupted_frame_ends {cfg : ConnectionConfig} {s s' : Reception} {strerror : Bytes}
    (inside : s.reader.bytes ≠ []) (run : (reception cfg).step s (.recv (.timeout strerror)) = some s') :
    s'.client.ended = some (.readError, recvFailed strerror) ∧ s'.timedOut = true ∧
      (s'.silent ↔ s.silent) := by
  have took := ReaderPc.recv_timeout s.reader strerror
  have moved : Reception.step cfg s (.recv (.timeout strerror)) = some s' := run
  rw [if_neg inside] at took
  cases Reception.step_move moved with
  | more _ other | frame _ other =>
    rw [took] at other
    cases other
  | timeout _ other kind =>
    rw [took] at other
    cases other
    cases kind
  | failed _ other =>
    rw [took] at other
    cases other
    refine ⟨rfl, ?_, Iff.rfl⟩
    exact Reception.last_isTimeout s.past s.call (.timeout strerror)

/-- In every run in which the socket times out between frames only, a timeout ends the
connection after the longest silence alone; after a shorter one the read resumes and every
frame arrives whole. From a state of such a run, no other step keeps that up. -/
theorem silence_survived {cfg : ConnectionConfig} {s : Reception}
    (reach : (reception cfg).Reach Reception.TimesOutBetweenFrames s) : SurvivesSilence cfg s ∧
      ∀ o s', (reception cfg).step s o = some s' → (SurvivesSilence cfg s' ↔ s.TimesOutBetweenFrames o) := by
  refine ⟨reach_survives reach, fun o s' run => ⟨fun survives => ?_, fun between => ?_⟩⟩
  · intro timeout
    by_contra inside
    obtain ⟨something, alive⟩ := not_or.mp inside
    cases o with
    | client => cases timeout
    | recv outcome =>
      cases outcome with
      | timeout strerror =>
        obtain ⟨ended, woken, same⟩ := interrupted_frame_ends something run
        exact alive (same.mp (survives.ended (by simp [ended]) woken))
      | _ => cases timeout
  · exact reach_survives (reach.step between run)

/-- The timeout of a heartbeat of one minute passes, and the I/O thread comes back to its read. -/
def quietTurn : List Occurrence :=
  .client (.tick 30000) :: .recv (.timeout []) :: List.replicate 4 (.client (.io .none))

/-- A quiet minute, a heartbeat that comes in two parts, and nothing more. The fifth timeout
after it is the first past the deadline. -/
theorem silence_survived_heartbeat : ∃ s, (reception {}).Reach Reception.TimesOutBetweenFrames s ∧
    s.client.ended = some (.heartbeat, Client.heartbeatTimeout) ∧ s.timedOut = true ∧
    s.arrived = [⟨Key.heartbeat, 1, [], none⟩] ∧ SurvivesSilence {} s := by
  have ran : ((reception {}).exec Reception.TimesOutBetweenFrames {} (listening ⟨1048576, 60⟩ ++
      quietTurn ++ quietTurn ++ [.recv (.data 0 [0]), .client (.tick 20000), .recv (.data 0 [4]),
        .recv (.data 0 [0x17, 0, 1])] ++
      List.replicate 7 (.client (.io .none)) ++ (List.replicate 4 quietTurn).flatten ++
      [.client (.tick 30000), .recv (.timeout []), .client (.io .none)])).any (fun s =>
        s.client.ended = some (.heartbeat, Client.heartbeatTimeout) ∧ s.timedOut = true ∧
        s.arrived = [⟨Key.heartbeat, 1, [], none⟩]) = true := by decide +kernel
  obtain ⟨s, reach, holds⟩ := Machine.reach_of_exec rfl ran
  obtain ⟨ended, woken, arrived⟩ := of_decide_eq_true holds
  exact ⟨s, reach, ended, woken, arrived, (silence_survived reach).1⟩

/-- One byte of a frame comes, and then nothing for half a minute. -/
theorem silence_inside_frame_ends : ¬ ∀ (cfg : ConnectionConfig) (s : Reception),
    (reception cfg).Reach Machine.anyStep s → SurvivesSilence cfg s := by
  intro claimed
  have ran : ((reception {}).exec Machine.anyStep {} (listening ⟨1048576, 60⟩ ++
      [.recv (.data 0 []), .client (.tick 30000), .recv (.timeout [])])).any (fun s =>
        s.client.ended.isSome = true ∧ s.timedOut = true ∧ ¬ s.silent) = true := by decide +kernel
  obtain ⟨s, reach, holds⟩ := Machine.reach_of_exec rfl ran
  obtain ⟨ended, woken, alive⟩ := of_decide_eq_true holds
  exact alive ((claimed {} s reach).ended ended woken)

end RmqStream
