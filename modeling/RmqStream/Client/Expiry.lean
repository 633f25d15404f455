import RmqStream.Client.Correlation
import RmqStream.Client.Lifecycle
import RmqStream.Client.Progress

/-! No request outlives its deadline for ever.

`io_loop` takes expired entries out of the map after every read, also after one that timed
out. One `reap_expired` may have looked at the clock just before the deadline; the next one
has not. -/

set_option autoImplicit false

namespace RmqStream
open Library

variable {cfg : ConnectionConfig} {run : (client cfg).Endless}

/-- How many steps `io_loop` has before it at most until it takes an expired entry out of the
map. A `reap_expired` that has read the clock before the deadline leaves the entry there. -/
def IoPc.untilReaped (deadline : Int) : IoPc → Nat
  | .reap now _ => if now ≥ deadline then 1 else 9
  | .reaping _ _ => 8
  | .dispatch _ _ => 7
  | .dispatching _ _ => 6
  | .top => 5
  | .reading => 4
  | .arrived _ _ => 3
  | .stamped _ _ | .timedOut => 2
  | _ => 0

namespace Client
variable {e : PendingEntry} {s s' : Client} {input : Input}

structure Awaits (e : PendingEntry) (s : Client) : Prop where
  entry : e ∈ s.dispatcher.pending ∨ e ∈ s.dispatcher.held .io
  started : s.io ≠ .notStarted
  loops : s.io.left = false

/-- The promise is set, or the loop has been left for good. -/
def Resolves (e : PendingEntry) (s : Client) : Prop := (∃ x ∈ s.dispatcher.settled, x.entry = e) ∨ s.io.left = true

/-- The promise is set, and the entry is neither in the map nor in the hands of a thread any more. -/
structure Settled (e : PendingEntry) (s : Client) : Prop where
  promise : ∃ x ∈ s.dispatcher.settled, x.entry = e
  pending : e ∉ s.dispatcher.pending
  held : ∀ t, e ∉ s.dispatcher.held t

def reapMeasure (e : PendingEntry) (s : Client) : Nat ×ₗ Nat :=
  toLex (if e ∈ s.dispatcher.held .io then 0 else s.io.untilReaped e.deadline, (s.dispatcher.held .io).length)

theorem awaits_settle {table : Dispatcher} {pick : Nat} {cause : Cause} (awaits : Awaits e s)
    (settle : s.dispatcher.settle .io pick cause = some table) :
    Resolves e { s with dispatcher := table } ∨ Awaits e { s with dispatcher := table } ∧
      reapMeasure e { s with dispatcher := table } < reapMeasure e s := by
  have shorter := Dispatcher.settle_shorter settle
  obtain ⟨picked, _, perm, same⟩ := Dispatcher.settle_eq settle
  have pending : table.pending = s.dispatcher.pending := by rw [same]
  have settled : table.settled = s.dispatcher.settled ++ [⟨picked, cause⟩] := by rw [same]
  have members : e ∈ s.dispatcher.held .io ↔ e = picked ∨ e ∈ table.held .io := by
    rw [← perm.mem_iff, List.mem_cons]
  by_cases mine : e = picked
  · exact .inl (.inl ⟨⟨picked, cause⟩, by simp [settled], mine.symm⟩)
  · right
    have kept : e ∈ table.held .io ↔ e ∈ s.dispatcher.held .io := by simp [members, mine]
    refine ⟨⟨?_, awaits.started, awaits.loops⟩, Prod.Lex.toLex_lt_toLex.mpr (.inr ⟨?_, shorter⟩)⟩
    · rw [pending, kept]
      exact awaits.entry
    · simp only [kept]

theorem awaits_onward (awaits : Awaits e s) (empty : s.dispatcher.held .io = [])
    (table : s'.dispatcher = s.dispatcher) (started : s'.io ≠ .notStarted)
    (nearer : e.deadline ≤ s.now → s'.io.untilReaped e.deadline < s.io.untilReaped e.deadline) :
    Resolves e s' ∨ Awaits e s' ∧ (e.deadline ≤ s.now → reapMeasure e s' < reapMeasure e s) := by
  cases left : s'.io.left with
  | true => exact .inl (.inr left)
  | false =>
    refine .inr ⟨⟨table ▸ awaits.entry, started, left⟩, fun late => ?_⟩
    refine Prod.Lex.toLex_lt_toLex.mpr (.inl ?_)
    simpa [table, empty] using nearer late

theorem awaits_take (empty : s.dispatcher.held .io = []) (started : s'.io ≠ .notStarted)
    (loops : s'.io.left = false) (entry : e ∈ s'.dispatcher.pending ∨ e ∈ s'.dispatcher.held .io)
    (nearer : e ∉ s'.dispatcher.held .io → s'.io.untilReaped e.deadline < s.io.untilReaped e.deadline)
    (before : 0 < s.io.untilReaped e.deadline) : Awaits e s' ∧ reapMeasure e s' < reapMeasure e s := by
  refine ⟨⟨entry, started, loops⟩, Prod.Lex.toLex_lt_toLex.mpr (.inl ?_)⟩
  simp only [empty, List.not_mem_nil, ↓reduceIte]
  split
  · exact before
  next outside => exact nearer outside

theorem ioStep_awaits (held : s.io.Holds (s.dispatcher.held .io)) (awaits : Awaits e s)
    (run : ioStep s input = some s') : Resolves e s' ∨ Awaits e s' ∧
      (e.deadline ≤ s.now → reapMeasure e s' < reapMeasure e s) := by
  have waiting : s.dispatcher.held .io = [] → e ∈ s.dispatcher.pending := fun empty =>
    awaits.entry.resolve_right (by simp [empty])
  cases ioStep_move run with
  | expire here settle | answer here settle =>
    exact (awaits_settle awaits settle).imp_right fun ⟨still, less⟩ => ⟨still, fun _ => less⟩
  | @reap now next here =>
    rw [here] at held
    have entry := Dispatcher.mem_take .io (fun e => decide (now ≥ e.deadline)) (waiting held)
    refine .inr ((awaits_take held (by simp) rfl (entry.symm.imp And.right And.right) ?_ ?_).imp_right
      fun less _ => less)
    · intro outside
      have early := (entry.resolve_left fun inside => outside inside.2).1
      have early : ¬ now ≥ e.deadline := by simpa using early
      simp [here, IoPc.untilReaped, early]
    · simp only [here, IoPc.untilReaped]
      split <;> simp
  | @dispatch index frame here =>
    rw [here] at held
    refine .inr ((awaits_take held (by simp) rfl (Dispatcher.mem_dispatchTake frame (waiting held)) ?_ ?_).imp_right
      fun less _ => less)
    · simp [here, IoPc.untilReaped]
    · simp [here, IoPc.untilReaped]
  | @reaped _ next here done =>
    cases next with
    | loop | dispatch =>
      exact awaits_onward awaits done rfl (by simp [afterReap]) (by simp [here, afterReap, IoPc.untilReaped])
  | dispatched here done => exact awaits_onward awaits done rfl (by simp) (by simp [here, IoPc.untilReaped])
  | fail here | failOne here | failedDeadline here | failedRead here | readClosing here | firedBefore here
  | fire here | fetchCallback here | leave here =>
    have loops := awaits.loops
    simp [here, IoPc.left] at loops
  | top here =>
    rw [here] at held
    refine awaits_onward awaits held rfl ?_ fun _ => ?_ <;> simp only [here] <;> split <;> simp [IoPc.untilReaped]
  | wakeup here =>
    rw [here] at held
    exact awaits_onward awaits held rfl (by simp) fun late => by simp [here, IoPc.untilReaped, late]
  | clock here =>
    rw [here] at held
    exact awaits_onward awaits held rfl (by simp) fun late => by simp [here, IoPc.untilReaped, late]
  | frame here | timeout here | readError here | deadline here | stamp here =>
    rw [here] at held
    exact awaits_onward awaits held rfl (by simp) (by simp [here, IoPc.untilReaped])

/-- While the loop goes round nobody else takes entries out of the map. -/
theorem step_awaiting {a : Action} (ready : Ready s) (staged : s.control.Staged s) (awaits : Awaits e s)
    (other : ¬ a.OfIo) (run : step cfg s a = some s') : Awaits e s' ∧ reapMeasure e s' = reapMeasure e s := by
  obtain ⟨io, held, _⟩ := step_io_still staged awaits.started other run
  have pending : e ∈ s.dispatcher.pending → e ∈ s'.dispatcher.pending := by
    intro member
    rcases step_threads run with ⟨_, _, _, _, _, rfl⟩ | ⟨n, input, rfl, run⟩ | ⟨input, rfl, run⟩ |
      ⟨input, rfl, run⟩ | ⟨input, rfl, run⟩
    · exact member
    · cases callStep_move run with
      | register => exact Dispatcher.mem_register _ member
      | _ => exact member
    · cases controlStep_move run with
      | handshake => rwa [handshakeStep_dispatcher]
      | closeRegister => exact Dispatcher.mem_register _ member
      | closeFail here =>
        have loops := awaits.loops
        rw [ready.joined (by rw [here]; rfl)] at loops
        cases loops
      | closeFailOne here settle =>
        obtain ⟨_, _, _, rfl⟩ := Dispatcher.settle_eq settle
        exact member
      | _ => exact member
    · exact absurd trivial other
    · obtain ⟨_, _, _, rfl⟩ := heartbeatStep_writes run
      exact member
  refine ⟨⟨?_, io ▸ awaits.started, io ▸ awaits.loops⟩, by rw [reapMeasure, reapMeasure, io, held]⟩
  rw [held]
  exact awaits.entry.imp_left pending

end Client

theorem resolves_of_fair (time : TimePasses run) (fair : run.Fair Action.OfIo) (e : PendingEntry) :
    run.LeadsTo (fun s => e ∈ s.dispatcher.pending ∧ s.io ≠ .notStarted) (Client.Resolves e) := by
  intro i registered
  by_contra none
  have never : ∀ j ≥ i, ¬ Client.Resolves e (run.state j) := fun j later goal => none ⟨j, later, goal⟩
  have loops : ∀ {s}, ¬ Client.Resolves e s → s.io.left = false := fun unresolved =>
    Bool.eq_false_iff.mpr fun left => unresolved (.inr left)
  have keep : ∀ s a s', (client cfg).Reach Machine.anyStep s → Client.Awaits e s → (client cfg).step s a = some s' →
      Client.Resolves e s' ∨ Client.Awaits e s' := by
    intro s a s' reach awaits move
    by_cases mine : a.OfIo
    · cases a with
      | io input => exact (Client.ioStep_awaits (reach_linked reach).ioHeld awaits move).imp_right And.left
      | _ => cases mine
    · exact .inr (Client.step_awaiting (reach_ready reach) (reach_staged reach) awaits mine move).1
  -- From the deadline on the loop comes nearer to the entry with every step.
  obtain ⟨j, later, passed⟩ := time.later i e.deadline
  have awaits := run.lasts_until keep ⟨.inl registered.1, registered.2, loops (never i le_rfl)⟩ never later
  have leads : run.LeadsTo (fun s => Client.Awaits e s ∧ e.deadline ≤ s.now) (Client.Resolves e) := by
    refine .of_measure_enabled Action.OfIo (Client.reapMeasure e) ⟨?_, ?_⟩ fair ?_
    · intro s a s' reach ⟨awaits, late⟩ mine move
      have still := late.trans (Client.step_clock move)
      cases a with
      | io input =>
        refine (Client.ioStep_awaits (reach_linked reach).ioHeld awaits move).imp_right ?_
        exact fun ⟨awaits, less⟩ => ⟨⟨awaits, still⟩, less late⟩
      | _ => cases mine
    · intro s a s' reach ⟨awaits, late⟩ other move
      obtain ⟨awaits, same⟩ := Client.step_awaiting (reach_ready reach) (reach_staged reach) awaits other move
      exact .inr ⟨⟨awaits, late.trans (Client.step_clock move)⟩, same.le⟩
    · intro s _ ⟨awaits, _⟩
      have going : s.io ≠ .finished := by
        intro here
        have loops := awaits.loops
        rw [here] at loops
        cases loops
      obtain ⟨input, able⟩ := Client.ioStep_enabled awaits.started going
      exact ⟨.io input, trivial, able⟩
  obtain ⟨k, after, goal⟩ := leads j ⟨awaits, passed j le_rfl⟩
  exact never k (later.trans after) goal

/-- A request does not outlive its deadline for ever: its promise is set, by a response or by
`reap_expired`, and it is gone from the table, or `io_loop` comes to its end. That is so once the
loop runs, and as long as every `recv` returns: without a heartbeat only bytes end one. -/
theorem request_resolves (time : TimePasses run) (scheduled : Scheduled run Action.OfIo)
    (recv : Returns run fun s => s.io = .reading) (e : PendingEntry) :
    run.LeadsTo (fun s => e ∈ s.dispatcher.pending ∧ s.io ≠ .notStarted)
      fun s => Client.Settled e s ∨ s.io.left = true := by
  intro i registered
  obtain ⟨j, later, ⟨x, settled, same⟩ | left⟩ := resolves_of_fair time (io_fair scheduled recv) e i registered
  · obtain ⟨pending, held⟩ := (reach_linked (run.reach j)).table.settled_gone settled
    rw [same] at pending held
    exact ⟨j, later, .inl ⟨⟨x, settled, same⟩, pending, held⟩⟩
  · exact ⟨j, later, .inr left⟩

/-- A request that the peer does not answer. -/
theorem request_resolves_expired : ∃ run : (client {}).Endless, ∃ e j, e ∈ (run.state 0).dispatcher.pending ∧
    (Client.Settled e (run.state j) ∨ (run.state j).io.left = true) := by
  have ran : ((client {}).exec Machine.anyStep {}
        (opening (acceptingScript ⟨1048576, 0⟩) ++ request 0 (.deleteStream (text "a") false))).any (fun s =>
      (decide (⟨0, 100, 10000⟩ ∈ s.dispatcher.pending ∧ s.io ≠ .notStarted)) &&
      ((client {}).exec Machine.anyStep s ([.tick 10000, .io .none, .io (.read (.error recvTimeout))] ++
          List.replicate 2 (.io .none) ++ [.io (.pick 0), .io .none] ++ readFailure 0)).any fun s' =>
        s'.atRest ∧ (s'.calls 1).busy = false) = true := by decide +kernel
  obtain ⟨run, _, pending, rests, rest, _⟩ := resting_of_exec 1 ran
  have pending := of_decide_eq_true pending
  obtain ⟨_, scheduled, returns⟩ := rests.threads rest
  obtain ⟨j, _, resolved⟩ := request_resolves rests.time scheduled.io returns.recv ⟨0, 100, 10000⟩ 0 pending
  exact ⟨run, _, j, pending.1, resolved⟩

end RmqStream
