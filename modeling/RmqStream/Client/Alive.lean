import RmqStream.Client.Progress

/-! What the heartbeat is for, in runs that do not end: the client does not fall silent, and
a peer that does is given up.

Both threads look at the clock and at the time of the last frame now and then only. From the
point on where enough time has passed, a number that gets smaller with each of their steps
counts down to the turn that finds it out. -/

set_option autoImplicit false

namespace RmqStream
open Library

variable {cfg : ConnectionConfig} {run : (client cfg).Endless}

/-! ## The client does not fall silent -/

namespace HeartbeatPc

/-- How many steps the thread makes until it has stamped a time not before `t`. A decision
from before `t` is of no use. -/
def untilStamp (t : Int) : HeartbeatPc → Nat
  | .compare now => if t ≤ now then 3 else 9
  | .write now => if t ≤ now then 2 else 8
  | .stamp now => if t ≤ now then 1 else 7
  | .top => 6
  | .sleeping _ => 5
  | .woken => 4
  | .finished | .notStarted => 0

end HeartbeatPc

namespace Client
variable {s s' : Client} {input : Input}

structure Beating (interval : UInt32) (s : Client) : Prop where
  started : s.heartbeat ≠ .notStarted
  going : s.heartbeat ≠ .finished
  agreed : s.negotiatedHeartbeat = interval

def Stamped (t : Int) (s : Client) : Prop := s.stopIo = true ∨ t ≤ s.lastOutbound

theorem step_beating_still {a : Action} {interval : UInt32} (beats : Beating interval s) (staged : s.control.Staged s)
    (other : ¬ a.OfHeartbeat) (run : step cfg s a = some s') : Beating interval s' ∧ s'.heartbeat = s.heartbeat := by
  have same := (step_heartbeat_still staged beats.started other run).1
  refine ⟨⟨same ▸ beats.started, same ▸ beats.going, ?_⟩, same⟩
  rcases step_agreed run with ⟨_, kept⟩ | here
  · exact kept.trans beats.agreed
  · -- The interval is agreed on before the thread exists.
    rw [here] at staged
    exact absurd staged.2.2 beats.started

theorem heartbeatStep_stamps {interval : UInt32} {t : Int} (beats : Beating interval s)
    (late : t + interval.toNat * 1000 ≤ s.now) (run : heartbeatStep s input = some s') :
    Stamped t s' ∨ Beating interval s' ∧ s'.heartbeat.untilStamp (t + interval.toNat * 1000) <
      s.heartbeat.untilStamp (t + interval.toNat * 1000) := by
  obtain ⟨started, going, agreed⟩ := beats
  cases heartbeatStep_move run with
  | top here =>
    cases stop : s.stopIo with
    | true => exact .inl (.inl (by simp))
    | false => exact .inr ⟨⟨by simp, by simp, agreed⟩, by simp [here, HeartbeatPc.untilStamp]⟩
  | wake here => exact .inr ⟨⟨by simp, by simp, agreed⟩, by simp [here, HeartbeatPc.untilStamp]⟩
  | woken here =>
    cases stop : s.stopIo with
    | true => exact .inl (.inl (by simp))
    | false => exact .inr ⟨⟨by simp, by simp, agreed⟩, by simp [here, HeartbeatPc.untilStamp, late]⟩
  | @compare now here =>
    rw [or_iff_not_imp_left]
    intro unstamped
    have old : s.lastOutbound < t := not_le.mp fun recent => unstamped (.inr recent)
    by_cases due : now - s.lastOutbound ≥ (s.negotiatedHeartbeat.toNat : Int) * 1000
    · simp only [if_pos due, here]
      refine ⟨⟨by simp, by simp, agreed⟩, ?_⟩
      simp only [HeartbeatPc.untilStamp]
      split <;> omega
    · simp only [if_neg due, here]
      refine ⟨⟨by simp, by simp, agreed⟩, ?_⟩
      rw [agreed] at due
      have stale : ¬ t + interval.toNat * 1000 ≤ now := by omega
      simp [HeartbeatPc.untilStamp, stale]
  | write here =>
    refine .inr ⟨⟨by simp, by simp, agreed⟩, ?_⟩
    simp only [here, HeartbeatPc.untilStamp]
    split <;> omega
  | @stamp now here =>
    by_cases recent : t + interval.toNat * 1000 ≤ now
    · refine .inl (.inr ?_)
      show t ≤ now
      omega
    · exact .inr ⟨⟨by simp, by simp, agreed⟩, by simp [here, HeartbeatPc.untilStamp, recent]⟩

theorem step_beating {a : Action} {interval : UInt32} (beats : Beating interval s) (staged : s.control.Staged s)
    (run : step cfg s a = some s') : s'.stopIo = true ∨ Beating interval s' := by
  by_cases mine : a.OfHeartbeat
  · cases a with
    | heartbeat input =>
      obtain ⟨started, going, agreed⟩ := beats
      cases heartbeatStep_move run with
      | top | woken =>
        cases stop : s.stopIo with
        | true => exact .inl (by simp)
        | false => exact .inr ⟨by simp, by simp, agreed⟩
      | compare =>
        right
        refine ⟨?_, ?_, agreed⟩ <;> simp only <;> split <;> simp
      | _ => exact .inr ⟨by simp, by simp, agreed⟩
    | _ => cases mine
  · exact .inr (step_beating_still beats staged mine run).1

/-- The time of the last frame is stamped before a call writes and after the thread has. -/
theorem step_stamps {a : Action} (run : step cfg s a = some s') : s'.lastOutbound = s.lastOutbound ∨
    (∃ n, s'.InWrite n) ∨ (∃ now, s.heartbeat = .stamp now ∧ s'.lastOutbound = now) ∨ s.control = .connectStamp := by
  rcases step_threads run with ⟨_, _, _, _, _, rfl⟩ | ⟨n, input, rfl, run⟩ | ⟨input, rfl, run⟩ |
    ⟨input, rfl, run⟩ | ⟨input, rfl, run⟩
  · exact .inl rfl
  · cases callStep_move run with
    | @touch op cid => exact .inr (.inl ⟨n, op, cid, Function.update_self n _ _⟩)
    | _ => exact .inl rfl
  · cases controlStep_move run with
    | @handshake replies =>
      left
      obtain ⟨frames, ⟨e, same⟩ | ⟨frameMax, interval, same⟩⟩ := handshakeStep_eq cfg s replies <;> rw [same]
    | connectStamp here => exact .inr (.inr (.inr here))
    | _ => exact .inl rfl
  · obtain ⟨_, _, _, _, _, _, _, _, _, rfl⟩ := ioStep_writes run
    exact .inl rfl
  · cases heartbeatStep_move run with
    | @stamp now here => exact .inr (.inr (.inl ⟨now, here, rfl⟩))
    | _ => exact .inl rfl

theorem step_wire_length {a : Action} (run : step cfg s a = some s') : s.wire.length ≤ s'.wire.length := by
  obtain ⟨frames, _, grown⟩ := step_handover run
  rw [grown, List.length_append]
  exact Nat.le_add_right _ _

theorem step_stampBehind {a : Action} {now : Int} (staged : s.control.Staged s) (started : s.heartbeat ≠ .notStarted)
    (run : step cfg s a = some s') (here : s'.heartbeat = .stamp now) :
    s.heartbeat = .stamp now ∨ s.wire.length < s'.wire.length := by
  by_cases mine : a.OfHeartbeat
  · cases a with
    | heartbeat input =>
      cases heartbeatStep_move run with
      | write => exact .inr (by simp [Client.write])
      | top | woken | compare =>
        simp only at here
        split at here <;> cases here
      | _ => cases here
    | _ => cases mine
  · exact .inl ((step_heartbeat_still staged started mine run).1.symm.trans here)

theorem step_inWrite {a : Action} {n : Nat} (inside : s.InWrite n) (run : step cfg s a = some s') :
    s'.InWrite n ∨ s.wire.length < s'.wire.length := by
  obtain ⟨op, cid, here⟩ := inside
  by_cases mine : a.OfCall n
  · cases a with
    | call m input =>
      cases mine
      cases callStep_move run with
      | write | writeFailed => exact .inr (by simp [Client.write, setCall])
      | _ => simp_all
    | _ => cases mine
  · exact .inl ⟨op, cid, (step_call_still (by rw [here]; rfl) mine run).trans here⟩

end Client

theorem beats_on {i : Nat} {interval : UInt32} (beats : Client.Beating interval (run.state i))
    (never : ∀ j ≥ i, (run.state j).stopIo ≠ true) : ∀ j ≥ i, Client.Beating interval (run.state j) :=
  fun _ later => run.lasts_until (fun _ _ _ reach beats move => Client.step_beating beats (reach_staged reach) move)
    beats never later

/-- As long as the heartbeat thread is not told to stop, the time of the last frame passes
every point. That frame may be one whose write is yet to come, or has failed. -/
theorem outbound_goes_on (time : TimePasses run) (fair : run.Fair Action.OfHeartbeat) (t : Int) :
    run.LeadsTo (fun s => s.heartbeat ≠ .notStarted ∧ s.heartbeat ≠ .finished) (Client.Stamped t) := by
  intro i ⟨started, going⟩
  by_contra none
  have never : ∀ j ≥ i, ¬ Client.Stamped t (run.state j) := fun j later goal => none ⟨j, later, goal⟩
  obtain ⟨interval, agreed⟩ : ∃ interval, (run.state i).negotiatedHeartbeat = interval := ⟨_, rfl⟩
  have beats := beats_on ⟨started, going, agreed⟩ fun j later stop => never j later (.inl stop)
  obtain ⟨j, later, passed⟩ := time.later i (t + interval.toNat * 1000)
  have leads : run.LeadsTo (fun s => Client.Beating interval s ∧ t + interval.toNat * 1000 ≤ s.now)
      (Client.Stamped t) := by
    refine .of_waiting (fun s => s.heartbeat) Action.OfHeartbeat
      (fun s => s.heartbeat.untilStamp (t + interval.toNat * 1000)) ⟨?_, ?_⟩ fair ?_ ?_
    · intro s a s' _ ⟨beats, late⟩ mine move
      have later := late.trans (Client.step_clock move)
      cases a with
      | heartbeat input =>
        exact (Client.heartbeatStep_stamps beats late move).imp_right fun ⟨still, less⟩ => ⟨⟨still, later⟩, less⟩
      | _ => cases mine
    · intro s a s' reach ⟨beats, late⟩ other move
      obtain ⟨still, same⟩ := Client.step_beating_still beats (reach_staged reach) other move
      exact .inr ⟨⟨still, late.trans (Client.step_clock move)⟩, by rw [same]⟩
    · intro s a s' reach ⟨beats, _⟩ other move
      exact (Client.step_beating_still beats (reach_staged reach) other move).2
    · intro j _
      obtain ⟨k, later, able⟩ := heartbeat_able time j
      exact ⟨k, later, fun l after ⟨beats, _⟩ same => able l after beats.started beats.going same⟩
  obtain ⟨k, after, goal⟩ := leads j ⟨beats j later, passed j le_rfl⟩
  exact never k (later.trans after) goal

/-- While nothing more is handed over, the time of the last frame is bounded. -/
theorem outbound_bounded {i : Nat} {interval : UInt32} (beats : ∀ j ≥ i, Client.Beating interval (run.state j))
    (writes : ∀ n, Returns run (Client.InWrite n))
    (still : ∀ j ≥ i, (run.state j).wire.length = (run.state i).wire.length) :
    ∃ bound, ∀ j ≥ i, (run.state j).lastOutbound ≤ bound := by
  have stops : ∀ j ≥ i, ¬ (run.state j).wire.length < (run.state (j + 1)).wire.length := by
    intro j later
    rw [still j later, still (j + 1) (Nat.le_succ_of_le later)]
    exact Nat.lt_irrefl _
  -- A call inside `write_all` would come out of it, and its frame would have been handed over.
  have outside : ∀ j ≥ i, ∀ n, ¬ (run.state j).InWrite n := by
    intro j later n inside
    obtain ⟨k, after, gone⟩ := writes n j inside
    have stays : ∀ l ≥ j, (run.state l).InWrite n := by
      intro l beyond
      induction l, beyond using Nat.le_induction with
      | base => exact inside
      | succ l beyond ih => exact (Client.step_inWrite ih (run.move l)).resolve_right (stops l (later.trans beyond))
    exact gone (stays k after)
  obtain ⟨decided, stamp⟩ : ∃ bound : Int, ∀ now, (run.state i).heartbeat = .stamp now → now ≤ bound := by
    cases (run.state i).heartbeat with
    | stamp now =>
      refine ⟨now, ?_⟩
      rintro _ ⟨⟩
      exact le_rfl
    | _ => exact ⟨0, by simp⟩
  refine ⟨max (run.state i).lastOutbound decided, fun j later => ?_⟩
  have both : (run.state j).lastOutbound ≤ max (run.state i).lastOutbound decided ∧
      ∀ now, (run.state j).heartbeat = .stamp now → now ≤ max (run.state i).lastOutbound decided := by
    induction j, later using Nat.le_induction with
    | base => exact ⟨le_max_left _ _, fun now here => (stamp now here).trans (le_max_right _ _)⟩
    | succ j later ih =>
      have staged := reach_staged (run.reach j)
      have started := (beats j later).started
      constructor
      · rcases Client.step_stamps (run.move j) with same | ⟨n, inside⟩ | ⟨now, here, stamped⟩ | here
        · exact same ▸ ih.1
        · exact absurd inside (outside _ (Nat.le_succ_of_le later) n)
        · exact stamped ▸ ih.2 now here
        · rw [here] at staged
          exact absurd staged.2.2 started
      · intro now here
        exact ih.2 now ((Client.step_stampBehind staged started (run.move j) here).resolve_right (stops j later))
  exact both.1

theorem wire_settles {i N : Nat} (short : ∀ j ≥ i, (run.state j).wire.length < N) :
    ∃ j ≥ i, ∀ k ≥ j, (run.state k).wire.length = (run.state j).wire.length := by
  obtain ⟨_, ⟨j, later, rfl⟩, least⟩ := WellFounded.has_min Nat.lt_wfRel.wf
    {m | ∃ j ≥ i, N - (run.state j).wire.length = m} ⟨_, i, le_rfl, rfl⟩
  refine ⟨j, later, fun k after => ?_⟩
  have grown : (run.state j).wire.length ≤ (run.state k).wire.length := by
    induction k, after using Nat.le_induction with
    | base => exact le_rfl
    | succ k _ ih => exact ih.trans (Client.step_wire_length (run.move k))
  have smaller : ¬ N - (run.state k).wire.length < N - (run.state j).wire.length :=
    least _ ⟨k, later.trans after, rfl⟩
  have here := short k (later.trans after)
  omega

/-- The client does not fall silent: while the heartbeat thread runs, the number of frames handed
to `write_all` passes every bound, unless the thread is told to stop. Every `write_all` has to
return for that, those of the calls too: a call stamps the time before it writes, and from then
on the thread takes its frame for sent. -/
theorem frames_go_on (time : TimePasses run) (scheduled : Scheduled run Action.OfHeartbeat)
    (heartbeatWrite : Returns run fun s => ∃ now, s.heartbeat = .write now)
    (writes : ∀ n, Returns run (Client.InWrite n)) (N : Nat) :
    run.LeadsTo (fun s => s.heartbeat ≠ .notStarted ∧ s.heartbeat ≠ .finished)
      fun s => s.stopIo = true ∨ N ≤ s.wire.length := by
  intro i ⟨started, going⟩
  by_contra none
  have never : ∀ j ≥ i, (run.state j).stopIo ≠ true := fun j later stop => none ⟨j, later, .inl stop⟩
  obtain ⟨j, later, settled⟩ := wire_settles fun k after => Nat.not_le.mp fun long => none ⟨k, after, .inr long⟩
  have beats := beats_on ⟨started, going, rfl⟩ never
  obtain ⟨bound, bounded⟩ := outbound_bounded (fun k after => beats k (later.trans after)) writes settled
  obtain ⟨k, after, stop | recent⟩ := outbound_goes_on time (heartbeat_fair scheduled heartbeatWrite) (bound + 1) j
    ⟨(beats j later).started, (beats j later).going⟩
  · exact never k (later.trans after) stop
  · have old := bounded k after
    omega

/-- The steps of the destructor, with those by which the other threads end meanwhile. -/
def destruction (others : List Action) : List Action :=
  [.destroy, .control .none, .control .none] ++ others ++ List.replicate 3 (.control .none)

/-- One heartbeat, and then the end of the client. -/
theorem frames_go_on_once : ∃ run : (client {}).Endless, ∃ j,
    (run.state 0).heartbeat = .top ∧ ((run.state j).stopIo = true ∨ 6 ≤ (run.state j).wire.length) := by
  have ran : ((client {}).exec Machine.anyStep {} (opening (acceptingScript ⟨1048576, 60⟩))).any (fun s =>
      (decide (s.heartbeat = .top)) && ((client {}).exec Machine.anyStep s
          ([.heartbeat .none, .tick 60000] ++ List.replicate 3 (.heartbeat .none) ++
            [.heartbeat (.sent (.ok ())), .heartbeat .none] ++
            destruction [.io .none, .io .none, .heartbeat .none])).any fun s' =>
        s'.atRest) = true := by decide +kernel
  obtain ⟨s, opened, holds⟩ := (Option.any_eq_true _ _).mp ran
  rw [Bool.and_eq_true] at holds
  obtain ⟨s', went, rest⟩ := (Option.any_eq_true _ _).mp holds.2
  have idle := Client.exec_idle (by decide) (Client.exec_idle (by decide) (fun _ => rfl) opened) went
  obtain ⟨run, starts, rests, _⟩ := exists_resting (Machine.Reach.exec (.init rfl) opened) went
  have running : (run.state 0).heartbeat = .top := starts ▸ of_decide_eq_true holds.1
  obtain ⟨_, scheduled, returns⟩ := rests.threads (of_decide_eq_true rest)
  obtain ⟨j, _, more⟩ := frames_go_on rests.time scheduled.heartbeat returns.heartbeatWrite
    (fun n => (rests.call (by rw [idle]; rfl)).2) 6 0 (by simp [running])
  exact ⟨run, j, running, more⟩

/-! ## A silent peer is given up -/

namespace IoPc

def untilRead : IoPc → Nat
  | .arrived _ _ => 7
  | .stamped _ _ | .timedOut => 6
  | .reap _ _ => 5
  | .reaping _ _ => 4
  | .dispatch _ _ => 3
  | .dispatching _ _ => 2
  | .top => 1
  | _ => 0

def untilDeadline : IoPc → Nat
  | .reap _ _ => 5
  | .reaping _ _ => 4
  | .top => 3
  | .reading => 2
  | .timedOut => 1
  | _ => 0

def unheard : IoPc → Bool
  | .top | .reading | .timedOut | .reap _ .loop | .reaping _ .loop => true
  | _ => false

end IoPc

/-- No `recv` brings anything. -/
def Action.Unheard (a : Action) : Prop :=
  ∀ reply, a = .io (.read reply) → ∃ e, reply = .error e ∧ e.kind = .requestTimeout

namespace Client
variable {s s' : Client} {input : Input}

def loops (s : Client) : Prop := s.io ≠ .notStarted ∧ s.io.left = false

theorem step_inbound_still {a : Action} (staged : s.control.Staged s) (started : s.io ≠ .notStarted)
    (other : ¬ a.OfIo) (run : step cfg s a = some s') :
    s'.lastInbound = s.lastInbound ∧ s'.negotiatedHeartbeat = s.negotiatedHeartbeat ∧ s'.ended = s.ended := by
  rcases step_threads run with ⟨_, _, _, _, _, rfl⟩ | ⟨n, input, rfl, run⟩ | ⟨input, rfl, run⟩ |
    ⟨input, rfl, run⟩ | ⟨input, rfl, run⟩
  · exact ⟨rfl, rfl, rfl⟩
  · obtain ⟨_, _, _, _, rfl⟩ := callStep_writes run
    exact ⟨rfl, rfl, rfl⟩
  · cases controlStep_move run with
    | handshake here | connectStamp here =>
      rw [here] at staged
      exact absurd staged.2.1 started
    | _ => exact ⟨rfl, rfl, rfl⟩
  · exact absurd trivial other
  · obtain ⟨_, _, _, rfl⟩ := heartbeatStep_writes run
    exact ⟨rfl, rfl, rfl⟩

def turn (steps : IoPc → Nat) (s : Client) : Nat ×ₗ Nat := toLex (steps s.io, (s.dispatcher.held .io).length)

theorem turn_nearer {steps : IoPc → Nat} (less : steps s'.io < steps s.io) : s'.turn steps < s.turn steps :=
  Prod.Lex.toLex_lt_toLex.mpr (.inl less)

theorem turn_lighter {steps : IoPc → Nat} (same : s'.io = s.io)
    (less : (s'.dispatcher.held .io).length < (s.dispatcher.held .io).length) : s'.turn steps < s.turn steps :=
  Prod.Lex.toLex_lt_toLex.mpr (.inr ⟨congrArg steps same, less⟩)

theorem ioStep_reads (loops : s.loops) (elsewhere : s.io ≠ .reading) (run : ioStep s input = some s') :
    (s'.io.left = true ∨ s'.io = .reading) ∨ s'.loops ∧ s'.turn IoPc.untilRead < s.turn IoPc.untilRead := by
  obtain ⟨_, going⟩ := loops
  cases ioStep_move run with
  | top here =>
    cases stop : s.stopIo with
    | true => exact .inl (.inl (by simp [IoPc.left]))
    | false => exact .inl (.inr (by simp))
  | frame here | timeout here | readError here => exact absurd here elsewhere
  | deadline => exact .inl (.inl rfl)
  | expire here settle | answer here settle =>
    exact .inr ⟨⟨by simp [here], by simp [here, IoPc.left]⟩, turn_lighter rfl (Dispatcher.settle_shorter settle)⟩
  | @reaped _ next here =>
    cases next <;>
      exact .inr ⟨⟨by simp [afterReap], rfl⟩, turn_nearer (by simp [here, afterReap, IoPc.untilRead])⟩
  | wakeup here | stamp here | clock here | reap here | dispatch here | dispatched here =>
    exact .inr ⟨⟨by simp, rfl⟩, turn_nearer (by simp [here, IoPc.untilRead])⟩
  | fail here | failOne here | failedDeadline here | failedRead here | readClosing here | firedBefore here
  | fire here | fetchCallback here | leave here =>
    simp [here, IoPc.left] at going

structure Overdue (since : Int) (s : Client) : Prop where
  unheard : s.io.unheard = true
  inbound : s.lastInbound = since
  agreed : s.negotiatedHeartbeat > 0
  late : since + s.negotiatedHeartbeat.toNat * 2 * 1000 < s.now

theorem ioStep_overdue {since : Int} (overdue : Overdue since s) (run : ioStep s input = some s') :
    (s'.io.left = true ∨ s'.io.unheard = false) ∨
      Overdue since s' ∧ s'.turn IoPc.untilDeadline < s.turn IoPc.untilDeadline := by
  obtain ⟨unheard, inbound, agreed, late⟩ := overdue
  cases ioStep_move run with
  | top here =>
    cases stop : s.stopIo with
    | true => exact .inl (.inl (by simp [IoPc.left]))
    | false =>
      exact .inr ⟨⟨by simp [IoPc.unheard], inbound, agreed, late⟩, turn_nearer (by simp [here, IoPc.untilDeadline])⟩
  | frame => exact .inl (.inr rfl)
  | timeout here => exact .inr ⟨⟨rfl, inbound, agreed, late⟩, turn_nearer (by simp [here, IoPc.untilDeadline])⟩
  | readError | deadline => exact .inl (.inl rfl)
  | wakeup here alive =>
    refine absurd ⟨agreed, ?_⟩ alive
    rw [inbound]
    omega
  | @reap _ next here =>
    rw [here] at unheard
    cases next with
    | loop => exact .inr ⟨⟨rfl, inbound, agreed, late⟩, turn_nearer (by simp [here, IoPc.untilDeadline])⟩
    | dispatch => cases unheard
  | expire here settle =>
    exact .inr ⟨⟨unheard, inbound, agreed, late⟩, turn_lighter rfl (Dispatcher.settle_shorter settle)⟩
  | @reaped _ next here =>
    rw [here] at unheard
    cases next with
    | loop =>
      exact .inr ⟨⟨rfl, inbound, agreed, late⟩, turn_nearer (by simp [here, afterReap, IoPc.untilDeadline])⟩
    | dispatch => cases unheard
  | stamp here | clock here | dispatch here | answer here | dispatched here | fail here | failOne here
  | failedDeadline here | failedRead here | readClosing here | firedBefore here | fire here | fetchCallback here
  | leave here => simp [here, IoPc.unheard] at unheard

end Client

theorem io_reads (fair : run.Fair Action.OfIo) :
    run.LeadsTo Client.loops fun s => s.io.left = true ∨ s.io = .reading := by
  have leads : run.LeadsTo (fun s => s.loops ∧ s.io ≠ .reading) fun s => s.io.left = true ∨ s.io = .reading := by
    refine .of_measure_enabled Action.OfIo (Client.turn IoPc.untilRead) ⟨?_, ?_⟩ fair ?_
    · intro s a s' _ ⟨loops, elsewhere⟩ mine move
      cases a with
      | io input =>
        rcases Client.ioStep_reads loops elsewhere move with goal | ⟨still, less⟩
        · exact .inl goal
        · by_cases reading : s'.io = .reading
          · exact .inl (.inr reading)
          · exact .inr ⟨⟨still, reading⟩, less⟩
      | _ => cases mine
    · intro s a s' reach ⟨loops, elsewhere⟩ other move
      obtain ⟨io, held, _⟩ := Client.step_io_still (reach_staged reach) loops.1 other move
      refine .inr ⟨⟨⟨io ▸ loops.1, io ▸ loops.2⟩, io ▸ elsewhere⟩, ?_⟩
      rw [Client.turn, Client.turn, io, held]
    · intro s _ ⟨loops, _⟩
      have going : s.io ≠ .finished := by
        intro here
        have left := loops.2
        simp [here, IoPc.left] at left
      obtain ⟨input, able⟩ := Client.ioStep_enabled loops.1 going
      exact ⟨.io input, trivial, able⟩
  intro i loops
  by_cases reading : (run.state i).io = .reading
  · exact ⟨i, le_rfl, .inr reading⟩
  · exact leads i ⟨loops, reading⟩

namespace Client
variable {s s' : Client}

theorem step_loops {a : Action} (staged : s.control.Staged s) (loops : s.loops) (run : step cfg s a = some s') :
    s'.io.left = true ∨ s'.loops := by
  rw [or_iff_not_imp_left, Bool.not_eq_true]
  intro going
  refine ⟨?_, going⟩
  by_cases mine : a.OfIo
  · cases a with
    | io input => exact (ioStep_staged run).2.1
    | _ => cases mine
  · rw [(step_io_still staged loops.1 mine run).1]
    exact loops.1

theorem step_unheard {a : Action} (staged : s.control.Staged s) (loops : s.loops) (still : s.io.unheard = true)
    (nothing : a.Unheard) (run : step cfg s a = some s') : s'.io.left = true ∨
      s'.io.unheard = true ∧ s'.lastInbound = s.lastInbound ∧ s'.negotiatedHeartbeat = s.negotiatedHeartbeat := by
  by_cases mine : a.OfIo
  · cases a with
    | io input =>
      cases ioStep_move run with
      | top here =>
        cases stop : s.stopIo with
        | true => exact .inl (by simp [IoPc.left])
        | false => exact .inr ⟨by simp [IoPc.unheard], rfl, rfl⟩
      | frame =>
        obtain ⟨_, impossible, _⟩ := nothing _ rfl
        cases impossible
      | timeout => exact .inr ⟨rfl, rfl, rfl⟩
      | readError | deadline => exact .inl rfl
      | wakeup => exact .inr ⟨rfl, rfl, rfl⟩
      | expire | answer | failOne => exact .inr ⟨still, rfl, rfl⟩
      | @reap _ next here | @reaped _ next here =>
        rw [here] at still
        cases next with
        | loop => exact .inr ⟨rfl, rfl, rfl⟩
        | dispatch => cases still
      | stamp here | clock here | dispatch here | dispatched here | fail here | failedDeadline here | failedRead here
      | readClosing here | firedBefore here | fire here | fetchCallback here | leave here =>
        simp [here, IoPc.unheard] at still
    | _ => cases mine
  · obtain ⟨inbound, agreed, _⟩ := step_inbound_still staged loops.1 mine run
    rw [(step_io_still staged loops.1 mine run).1]
    exact .inr ⟨still, inbound, agreed⟩

theorem step_ended_unheard {a : Action} (nothing : a.Unheard) (run : step cfg s a = some s') :
    s'.ended = s.ended ∨ s'.ended = some (.heartbeat, heartbeatTimeout) := by
  rcases step_sides run with ⟨_, _, _, _, _, _, _, _, _, rfl⟩ | ⟨input, rfl, run⟩ | ⟨input, rfl, run⟩
  · exact .inl rfl
  · obtain ⟨_, _, _, _, _, _, _, _, _, _, _, _, _, _, _, rfl⟩ := controlStep_writes run
    exact .inl rfl
  · cases ioStep_move run with
    | readError _ kind =>
      obtain ⟨_, same, timedOut⟩ := nothing _ rfl
      cases same
      exact absurd timedOut kind
    | deadline => exact .inr rfl
    | _ => exact .inl rfl

end Client

theorem overdue_left (fair : run.Fair Action.OfIo) (since : Int) :
    run.LeadsTo (Client.Overdue since) fun s => s.io.left = true ∨ s.io.unheard = false := by
  have loops : ∀ s : Client, Client.Overdue since s → s.io ≠ .notStarted ∧ s.io ≠ .finished := by
    intro s overdue
    constructor <;> intro here <;> simpa [here, IoPc.unheard] using overdue.unheard
  refine .of_measure_enabled Action.OfIo (Client.turn IoPc.untilDeadline) ⟨?_, ?_⟩ fair ?_
  · intro s a s' _ overdue mine move
    cases a with
    | io input => exact Client.ioStep_overdue overdue move
    | _ => cases mine
  · intro s a s' reach overdue other move
    have staged := reach_staged reach
    have started := (loops s overdue).1
    obtain ⟨io, held, _⟩ := Client.step_io_still staged started other move
    obtain ⟨inbound, agreed, _⟩ := Client.step_inbound_still staged started other move
    refine .inr ⟨⟨io ▸ overdue.unheard, inbound.trans overdue.inbound, agreed ▸ overdue.agreed, ?_⟩, ?_⟩
    · rw [agreed]
      exact overdue.late.trans_le (Client.step_clock move)
    · rw [Client.turn, Client.turn, io, held]
  · intro s _ overdue
    obtain ⟨started, going⟩ := loops s overdue
    obtain ⟨input, able⟩ := Client.ioStep_enabled started going
    exact ⟨.io input, trivial, able⟩

theorem unheard_left (time : TimePasses run) (fair : run.Fair Action.OfIo) {i : Nat} (loops : (run.state i).loops)
    (agreed : (run.state i).negotiatedHeartbeat > 0) (nothing : ∀ j ≥ i, (run.label j).Unheard) :
    ∃ j ≥ i, (run.state j).io.left = true := by
  by_contra none
  have never : ∀ j ≥ i, ¬ (run.state j).io.left = true := fun j later left => none ⟨j, later, left⟩
  have turning : ∀ j ≥ i, (run.state j).loops := fun j later =>
    run.lasts_until (fun s a s' reach loops move => Client.step_loops (reach_staged reach) loops move) loops never
      later
  have kept : ∀ j ≥ i, (run.state j).negotiatedHeartbeat = (run.state i).negotiatedHeartbeat := by
    intro j later
    induction j, later using Nat.le_induction with
    | base => rfl
    | succ j later ih =>
      refine Eq.trans ?_ ih
      rcases Client.step_agreed (run.move j) with ⟨_, same⟩ | here
      · exact same
      · have staged := reach_staged (run.reach j)
        rw [here] at staged
        exact absurd staged.2.1 (turning j later).1
  obtain ⟨first, begins, reads⟩ := io_reads fair i loops
  have reading := reads.resolve_left (never first begins)
  -- From here on there are only turns without a frame.
  have silent : ∀ j ≥ first,
      (run.state j).io.unheard = true ∧ (run.state j).lastInbound = (run.state first).lastInbound := by
    intro j later
    induction j, later using Nat.le_induction with
    | base => exact ⟨by rw [reading]; rfl, rfl⟩
    | succ j later ih =>
      have beyond := begins.trans later
      obtain ⟨still, inbound, _⟩ := (Client.step_unheard (reach_staged (run.reach j)) (turning j beyond) ih.1
        (nothing j beyond) (run.move j)).resolve_left (never _ (Nat.le_succ_of_le beyond))
      exact ⟨still, inbound.trans ih.2⟩
  obtain ⟨j, later, passed⟩ := time.later first
    ((run.state first).lastInbound + (run.state i).negotiatedHeartbeat.toNat * 2 * 1000 + 1)
  have overdue : Client.Overdue (run.state first).lastInbound (run.state j) := by
    obtain ⟨still, inbound⟩ := silent j later
    have same := kept j (begins.trans later)
    refine ⟨still, inbound, same ▸ agreed, ?_⟩
    have now := passed j le_rfl
    rw [same]
    omega
  obtain ⟨k, after, left | heard⟩ := overdue_left fair _ j overdue
  · exact never k (begins.trans (later.trans after)) left
  · rw [(silent k (later.trans after)).1] at heard
    cases heard

/-- A peer from which nothing comes any more is given up for its silence, if a heartbeat was
agreed on and nobody ends the connection before. -/
theorem silent_peer_given_up (time : TimePasses run) (fair : run.Fair Action.OfIo) {i : Nat}
    (loops : (run.state i).loops) (agreed : (run.state i).negotiatedHeartbeat > 0)
    (nothing : ∀ j ≥ i, (run.label j).Unheard) :
    ∃ j ≥ i, (run.state j).io = .finished ∧
      ((run.state j).ended = some (.heartbeat, Client.heartbeatTimeout) ∨ (run.state j).stopIo = true) := by
  have ended : ∀ j ≥ i,
      (run.state j).ended = none ∨ (run.state j).ended = some (.heartbeat, Client.heartbeatTimeout) := by
    intro j later
    induction j, later using Nat.le_induction with
    | base => exact .inl ((reach_looping (run.reach i)).running loops.2)
    | succ j later ih =>
      rcases Client.step_ended_unheard (nothing j later) (run.move j) with same | ended
      · rwa [same]
      · exact .inr ended
  obtain ⟨j, later, left⟩ := unheard_left time fair loops agreed nothing
  obtain ⟨k, after, finished⟩ : ∃ k ≥ j, (run.state k).io = .finished := by
    by_cases already : (run.state j).io = .finished
    · exact ⟨j, le_rfl, already⟩
    · refine io_ends fair j ⟨fun here => ?_, already, .inr left⟩
      rw [here] at left
      cases left
  refine ⟨k, later.trans after, finished, ?_⟩
  rcases ended k (later.trans after) with nobody | timedOut
  · exact .inr ((reach_looping (run.reach k)).stopped (by rw [finished]; rfl) nobody)
  · exact .inl timedOut

/-- The peer falls silent right after the handshake. -/
theorem silent_peer_given_up_at_once : ∃ run : (client {}).Endless, ∃ j, (run.state 0).loops ∧
    (run.state j).io = .finished ∧
      ((run.state j).ended = some (.heartbeat, Client.heartbeatTimeout) ∨ (run.state j).stopIo = true) := by
  have ran : ((client {}).exec Machine.anyStep {} (opening (acceptingScript ⟨1048576, 60⟩))).any (fun s =>
      (decide ((s.io ≠ .notStarted ∧ s.io.left = false) ∧ s.negotiatedHeartbeat > 0)) &&
      ((client {}).exec Machine.anyStep s
          ([.tick 120001, .io .none, .io (.read (.error recvTimeout))] ++ List.replicate 6 (.io .none) ++
            destruction [.heartbeat .none])).any fun s' =>
        s'.atRest ∧ (s'.calls 0).busy = false) = true := by decide +kernel
  obtain ⟨run, _, begins, rests, rest, _, does⟩ := resting_of_exec 0 ran
  obtain ⟨fair, _⟩ := rests.threads rest
  obtain ⟨loops, agreed⟩ := of_decide_eq_true begins
  have nothing : ∀ j ≥ 0, (run.label j).Unheard := by
    intro j _ reply read
    have member := read ▸ does j
    simp [destruction] at member
    subst member
    exact ⟨recvTimeout, rfl, rfl⟩
  obtain ⟨j, _, finished⟩ := silent_peer_given_up rests.time fair.io loops agreed nothing
  exact ⟨run, j, loops, finished⟩

end RmqStream
