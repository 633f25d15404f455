import RmqStream.Client.Stages

/-! The connection state over whole runs: it only moves forward.

The state is written by the control thread and, at its very end, by the I/O thread, each
time in a critical section of its own. What makes the order safe is where the two threads
can stand relative to each other. -/

set_option autoImplicit false

namespace RmqStream
open Library

namespace ConnectionState

def next : ConnectionState → List ConnectionState
  | disconnected => [connecting]
  | connecting => [.open, closed]
  | «open» => [closing, closed]
  | closing => [closed]
  | closed => []

def rank : ConnectionState → Nat
  | disconnected => 0
  | connecting => 1
  | «open» => 2
  | closing => 3
  | closed => 4

theorem rank_lt_of_next {old new : ConnectionState} (edge : new ∈ old.next) : old.rank < new.rank := by
  cases old <;> cases new <;> simp_all [next, rank]

end ConnectionState

def ControlPc.joinedIo : ControlPc → Bool
  | .closeJoinHeartbeat | .closeFail | .closeFailing | .closeFinish => true
  | _ => false

def ControlPc.unconnected : ControlPc → Bool
  | .connectTcp | .connectAbort _ => true
  | _ => false

namespace Client

/-- What the control thread relies on when it reports an outcome. -/
structure Ready (s : Client) : Prop where
  joined : s.control.joinedIo = true → s.io = .finished
  socket : s.state = .disconnected ∨ s.control.unconnected = true → s.socketOpen = false

variable {cfg : ConnectionConfig} {s s' : Client} {input : Input}

theorem controlStep_ready (ready : Ready s) (staged : s.control.Staged s)
    (run : controlStep cfg s input = some s') : Ready s' := by
  obtain ⟨joined, socket⟩ := ready
  cases controlStep_move run with
  | @handshake replies here =>
    rw [here] at staged
    obtain ⟨frames, ⟨e, same⟩ | ⟨frameMax, interval, same⟩⟩ := handshakeStep_eq cfg s replies
    · rw [same]
      exact ⟨by simp [ControlPc.joinedIo], fun _ => rfl⟩
    · rw [same]
      exact ⟨by simp [ControlPc.joinedIo], by simp [staged.1, ControlPc.unconnected]⟩
  | _ =>
    constructor <;>
      simp_all [ControlPc.joinedIo, ControlPc.unconnected, ControlPc.Staged, finish, write]

theorem ready_begin {s : Client} (ready : Ready s) {pc : ControlPc} (joined : pc.joinedIo = false)
    (unconnected : pc.unconnected = false) (control : s'.control = pc) (state : s'.state = s.state)
    (socket : s'.socketOpen = s.socketOpen) : Ready s' := by
  constructor
  · simp [control, joined]
  · rw [control, unconnected, state, socket]
    intro early
    exact ready.socket (.inl (early.resolve_right (by simp)))

theorem step_ready {a : Action} (ready : Ready s) (staged : s.control.Staged s)
    (run : step cfg s a = some s') : Ready s' := by
  cases a with
  | tick | onUnexpectedClose =>
    cases run
    exact ⟨ready.joined, ready.socket⟩
  | invoke n op =>
    obtain ⟨_, rfl⟩ := step_invoke run
    exact ⟨ready.joined, ready.socket⟩
  | connect =>
    obtain ⟨_, ⟨e, rfl⟩ | rfl⟩ := step_connect run <;> exact ready_begin ready rfl rfl rfl rfl rfl
  | close n =>
    obtain ⟨_, _, rfl⟩ := step_close run
    exact ready_begin ready rfl rfl rfl rfl rfl
  | destroy =>
    obtain ⟨_, rfl⟩ := step_destroy run
    exact ready_begin ready rfl rfl rfl rfl rfl
  | call n input =>
    obtain ⟨_, _, _, _, rfl⟩ := callStep_writes run
    exact ⟨ready.joined, ready.socket⟩
  | control input => exact controlStep_ready ready staged run
  | io input =>
    -- A thread that has finished makes no further step, and `Disconnected` has no I/O thread.
    have ended : s.io ≠ .finished := by
      intro ended
      cases ioStep_move run <;> simp_all
    obtain ⟨_, _, state⟩ := ioStep_staged run
    obtain ⟨_, _, _, _, _, _, _, _, _, rfl⟩ := ioStep_writes run
    refine ⟨fun joined => absurd (ready.joined joined) ended, fun early => ready.socket ?_⟩
    exact early.imp_left fun disconnected => by grind
  | heartbeat input =>
    obtain ⟨_, _, _, rfl⟩ := heartbeatStep_writes run
    exact ⟨ready.joined, ready.socket⟩

/-! ## One step -/

theorem step_state {a : Action} (staged : s.control.Staged s) (run : step cfg s a = some s') :
    s'.state = s.state ∨ s'.state ∈ s.state.next := by
  rcases step_sides run with ⟨_, _, _, _, _, _, _, _, _, rfl⟩ | ⟨input, rfl, run⟩ | ⟨input, rfl, run⟩
  · exact .inl rfl
  · cases controlStep_move run with
    | handshake => exact .inl (handshakeStep_state _ _ _)
    | connectLock here state =>
      rw [state]
      exact .inr (by simp [ConnectionState.next])
    | connectAbort here | connectOpen here =>
      rw [here] at staged
      rw [staged.1]
      exact .inr (by simp [ConnectionState.next, finish])
    | closeLock here state =>
      rw [state]
      exact .inr (by simp [ConnectionState.next])
    | closeFinish here =>
      rw [here] at staged
      rw [staged.1]
      exact .inr (by simp [ConnectionState.next, finish])
    | _ => exact .inl rfl
  · -- The I/O thread exists only from `Open` on.
    obtain ⟨started, _, same | ⟨⟨notClosed, notClosing⟩, closed⟩⟩ := ioStep_staged run
    · exact .inl same
    · have opened : s.state = .open := by
        cases here : s.control <;> simp_all [ControlPc.Staged]
      rw [closed, opened]
      exact .inr (by simp [ConnectionState.next])

inductive Report (s s' : Client) : ControlCall × Result Unit → Prop where
  | refused {e : StreamError} (early : s.control = .idle ∨ s.control = .connectLock) :
    Report s s' (.connect, .error e)
  | failed {e : StreamError} (here : s.control = .connectAbort e) (state : s'.state = .closed)
      (socket : s'.socketOpen = s.socketOpen) : Report s s' (.connect, .error e)
  | connected (here : s.control = .connectStartHeartbeat) : Report s s' (.connect, .ok ())
  | notOpen {n : Nat} (here : s.control = .closeLock n) : Report s s' (.close, .error closeNotOpen)
  | closed (here : s.control = .closeFinish) (state : s'.state = .closed) (io : s'.io = s.io) :
    Report s s' (.close, .ok ())

theorem controlStep_returned (run : controlStep cfg s input = some s') :
    s'.returned = s.returned ∨ ∃ entry, s'.returned = s.returned ++ [entry] ∧ Report s s' entry := by
  cases controlStep_move run with
  | handshake => exact .inl (handshakeStep_returned _ _ _)
  | connectRefused here => exact .inr ⟨_, rfl, .refused (.inr here)⟩
  | connectAbort here => exact .inr ⟨_, rfl, .failed here rfl rfl⟩
  | startHeartbeat here => exact .inr ⟨_, rfl, .connected here⟩
  | closeRefused here => exact .inr ⟨_, rfl, .notOpen here⟩
  | closeFinish here => exact .inr ⟨_, rfl, .closed here rfl rfl⟩
  | _ => exact .inl rfl

theorem step_returned {a : Action} (run : step cfg s a = some s') :
    s'.returned = s.returned ∨ ∃ entry, s'.returned = s.returned ++ [entry] ∧ Report s s' entry := by
  cases a with
  | tick | onUnexpectedClose =>
    cases run
    exact .inl rfl
  | invoke n op =>
    obtain ⟨_, rfl⟩ := step_invoke run
    exact .inl rfl
  | connect =>
    obtain ⟨idle, ⟨e, rfl⟩ | rfl⟩ := step_connect run
    · exact .inr ⟨_, rfl, .refused (.inl idle)⟩
    · exact .inl rfl
  | close n =>
    obtain ⟨_, _, rfl⟩ := step_close run
    exact .inl rfl
  | destroy =>
    obtain ⟨_, rfl⟩ := step_destroy run
    exact .inl rfl
  | call n input =>
    obtain ⟨_, _, _, _, rfl⟩ := callStep_writes run
    exact .inl rfl
  | control input => exact controlStep_returned run
  | io input =>
    obtain ⟨_, _, _, _, _, _, _, _, _, rfl⟩ := ioStep_writes run
    exact .inl rfl
  | heartbeat input =>
    obtain ⟨_, _, _, rfl⟩ := heartbeatStep_writes run
    exact .inl rfl

theorem step_report {a : Action} {entry : ControlCall × Result Unit} (run : step cfg s a = some s')
    (returned : s'.returned = s.returned ++ [entry]) : Report s s' entry := by
  rcases step_returned run with same | ⟨other, grown, report⟩
  · rw [same] at returned
    simp at returned
  · rw [grown] at returned
    obtain rfl := List.singleton_inj.mp (List.append_cancel_left returned)
    exact report

/-- A `connect` has left `Disconnected` between these two states. -/
def passesCheck (s' s : Client) : Bool := s.control = .connectLock ∧ s'.control = .connectTcp

theorem step_passesCheck {a : Action} (run : step cfg s a = some s') (passes : passesCheck s' s = true) :
    s.state = .disconnected ∧ s'.state = .connecting := by
  obtain ⟨here, there⟩ := of_decide_eq_true passes
  rcases step_control run with same | idle | ⟨input, rfl⟩
  · rw [same, here] at there
    cases there
  · rw [idle] at here
    cases here
  · cases controlStep_move run with
    | connectLock here state => exact ⟨state, rfl⟩
    | _ => simp_all [finish]

end Client

theorem reach_ready {cfg : ConnectionConfig} {allowed : Client → Action → Prop} {s : Client}
    (reach : (client cfg).Reach allowed s) : s.Ready := by
  refine reach.invariant Client.Ready ?_ ?_
  · rintro _ rfl
    exact ⟨by simp [ControlPc.joinedIo], fun _ => rfl⟩
  · intro s a s' before ready _ run
    exact Client.step_ready ready (reach_staged before) run

/-! ## Whole runs -/

def connectsPassed : List Client → Nat
  | s' :: s :: past => connectsPassed (s :: past) + if Client.passesCheck s' s then 1 else 0
  | _ => 0

/-- The states of a run, the latest first, and what its last step reports. -/
structure Forward (run : List Client) : Prop where
  edges : (run.map Client.state).IsChain fun new old =>
    new = old ∨ new ∈ old.next ∧ old.rank < new.rank
  ordered : (run.map Client.state).Pairwise fun new old => old.rank ≤ new.rank
  final : (run.map Client.state).Pairwise fun new old => old = .closed → new = .closed
  connect_failed : ∀ s' s past e, run = s' :: s :: past →
    s'.returned = s.returned ++ [(.connect, .error e)] → s.control ≠ .idle → s.control ≠ .connectLock →
      s'.state = .closed ∧ s'.socketOpen = false ∧ ∀ t ∈ run, t.state ≠ .open
  close_ok : ∀ s' s past, run = s' :: s :: past → s'.returned = s.returned ++ [(.close, .ok ())] →
    s'.state = .closed ∧ s'.io = .finished
  one_connect : connectsPassed run ≤ 1

section Runs
variable {cfg : ConnectionConfig} {allowed : Client → Action → Prop} {run : List Client}

theorem path_edges (path : (client cfg).Path allowed run) :
    (run.map Client.state).IsChain fun new old => new = old ∨ new ∈ old.next ∧ old.rank < new.rank := by
  induction path with
  | init => simp
  | step before _ move ih =>
    have staged := reach_staged (before.reach List.mem_cons_self)
    refine List.IsChain.cons_cons ?_ ih
    exact (Client.step_state staged move).imp_right fun edge => ⟨edge, ConnectionState.rank_lt_of_next edge⟩

theorem path_ordered (path : (client cfg).Path allowed run) :
    (run.map Client.state).Pairwise fun new old => old.rank ≤ new.rank := by
  have trans : IsTrans ConnectionState fun new old => old.rank ≤ new.rank :=
    ⟨fun _ _ _ first second => second.trans first⟩
  refine List.isChain_iff_pairwise.mp ((path_edges path).imp ?_)
  rintro new old (rfl | ⟨_, less⟩)
  · exact Nat.le_refl _
  · exact less.le

theorem path_connects (path : (client cfg).Path allowed run) :
    connectsPassed run ≤ 1 ∧ (run.head?.map Client.state = some .disconnected → connectsPassed run = 0) := by
  induction path with
  | init => simp [connectsPassed]
  | @step s s' past a before allow move ih =>
    have forward := Client.step_state (reach_staged (before.reach List.mem_cons_self)) move
    simp only [List.head?_cons, Option.map_some, Option.some.injEq] at ih ⊢
    unfold connectsPassed
    by_cases passes : Client.passesCheck s' s = true
    · obtain ⟨first, second⟩ := Client.step_passesCheck move passes
      simp [passes, ih.2 first, second]
    · refine ⟨by simpa [passes] using ih.1, fun still => ?_⟩
      -- Nothing leads back to `Disconnected`.
      have was : s.state = .disconnected := by
        rcases forward with same | edge
        · rw [← same, still]
        · rw [still] at edge
          cases here : s.state <;> simp [here, ConnectionState.next] at edge
      simpa [passes] using ih.2 was

/-- In every run of a client, with any order of `connect` and `close` and any outcome of
TCP connect, handshake and reads, the connection state only moves forward. -/
theorem connection_moves_forward (path : (client cfg).Path Machine.anyStep run) : Forward run where
  edges := path_edges path
  ordered := path_ordered path
  final := by
    refine (path_ordered path).imp ?_
    rintro new old less rfl
    cases new <;> simp [ConnectionState.rank] at less ⊢
  connect_failed := by
    rintro s' s past e rfl returned busy checked
    cases path with
    | step before _ move =>
      have reach := before.reach List.mem_cons_self
      cases Client.step_report move returned with
      | refused early => exact absurd early (not_or.mpr ⟨busy, checked⟩)
      | failed here state socket =>
        have staged := reach_staged reach
        have closed := (reach_ready reach).socket (.inr (by rw [here]; rfl))
        rw [here] at staged
        refine ⟨state, socket.trans closed, ?_⟩
        intro t member opened
        rcases List.mem_cons.mp member with rfl | earlier
        · rw [state] at opened
          cases opened
        · -- The ranks only grow, so no state before this one was Open.
          have before_s : t.state.rank ≤ s.state.rank := by
            rcases List.mem_cons.mp earlier with rfl | older
            · exact Nat.le_refl _
            · exact (List.pairwise_cons.mp (path_ordered before)).1 _ (List.mem_map_of_mem older)
          rw [staged.1, opened] at before_s
          simp [ConnectionState.rank] at before_s
  close_ok := by
    rintro s' s past rfl returned
    cases path with
    | step before _ move =>
      have reach := before.reach List.mem_cons_self
      cases Client.step_report move returned with
      | closed here state io =>
        exact ⟨state, io.trans ((reach_ready reach).joined (by rw [here]; rfl))⟩
  one_connect := (path_connects path).1

end Runs

/-- A connection that is opened, closed and asked to connect again. -/
theorem connection_moves_forward_closed : ∃ run, (client {}).Path Machine.anyStep run ∧
    run.head?.map Client.state = some .closed ∧
    run.head?.map (fun s => s.returned.length) = some 3 ∧ Forward run := by
  have ran : ((client {}).exec Machine.anyStep {} (opening (acceptingScript ⟨1048576, 0⟩) ++
      (closeRequest 0 ++ .tick 10000 :: closeRest [.io .none, .io .none] 1) ++ [.connect, .control .none])).any
      (fun s => s.state = .closed ∧ s.returned.length = 3) = true := by decide +kernel
  obtain ⟨s, reach, holds⟩ := Machine.reach_of_exec rfl ran
  obtain ⟨state, returned⟩ := of_decide_eq_true holds
  obtain ⟨past, path⟩ := reach.path
  exact ⟨s :: past, path, by simp [state], by simp [returned], connection_moves_forward path⟩

end RmqStream
