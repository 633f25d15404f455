import RmqStream.Client.Pending

/-! How `close` resolves the requests that are outstanding when it begins.

`close` fails them with `ConnectionClosed` once it has joined the I/O thread, but it closes
the socket before that. A read that fails on the closed socket makes `io_loop` fail the
same requests first, with the error of the read. The requests are resolved as promised in
the runs where no read fails in such a way while one of them is in the map. -/

set_option autoImplicit false

namespace RmqStream
open Library

/-- The ways a request may be resolved while the connection is closed: by a response with
its id, by its deadline, or with `ConnectionClosed`. -/
def Cause.Graceful (entry : PendingEntry) (cause : Cause) : Prop :=
  cause.Valid entry ∧ ∀ error, cause = .failed error → error.kind = .connectionClosed

namespace Client

def outstanding (s : Client) : List PendingEntry := s.dispatcher.pending ++ s.dispatcher.held .io

/-- The I/O thread is about to fail this entry with another error than `ConnectionClosed`. -/
def Dooms (s : Client) (e : PendingEntry) : Prop :=
  match s.io with
  | .fail error _ => error.kind ≠ .connectionClosed ∧ e ∈ s.dispatcher.pending
  | .failing error _ => error.kind ≠ .connectionClosed ∧ e ∈ s.dispatcher.held .io
  | _ => False

def readError : Action → Option StreamError
  | .io (.read (.error e)) => some e
  | _ => none

/-- A read that fails with another error than a timeout or `ConnectionClosed` finds none of
these entries in the map. -/
def ReadsGracefully (entries : List PendingEntry) (s : Client) (a : Action) : Prop :=
  ∀ error ∈ readError a, error.kind ≠ .requestTimeout → error.kind ≠ .connectionClosed →
    ∀ e ∈ entries, e ∉ s.dispatcher.pending

instance (entries : List PendingEntry) (s : Client) (a : Action) : Decidable (ReadsGracefully entries s a) :=
  inferInstanceAs (Decidable (∀ error ∈ readError a, error.kind ≠ .requestTimeout →
    error.kind ≠ .connectionClosed → ∀ e ∈ entries, e ∉ s.dispatcher.pending))

variable {cfg : ConnectionConfig} {s s' : Client} {input : Input}

theorem live_dispatchTake {d : Dispatcher} {e : PendingEntry} (live : d.Live e) (frame : IncomingFrame) :
    (d.dispatchTake frame).Live e := by
  unfold Dispatcher.dispatchTake
  split
  · split
    · exact live
    · exact live.take _ _
  · exact live

theorem step_live {a : Action} {e : PendingEntry} (live : s.dispatcher.Live e) (run : step cfg s a = some s') :
    s'.dispatcher.Live e := by
  rcases step_threads run with ⟨_, _, _, _, _, rfl⟩ | ⟨n, input, rfl, run⟩ | ⟨input, rfl, run⟩ |
    ⟨input, rfl, run⟩ | ⟨input, rfl, run⟩
  · exact live
  · cases callStep_move run with
    | register => exact live.register _
    | _ => exact live
  · cases controlStep_move run with
    | handshake =>
      rw [handshakeStep_dispatcher]
      exact live
    | closeRegister => exact live.register _
    | closeFail => exact live.take _ _
    | closeFailOne _ settle => exact live.settle settle
    | _ => exact live
  · cases ioStep_move run with
    | reap | fail => exact live.take _ _
    | dispatch => exact live_dispatchTake live _
    | expire _ settle | answer _ settle | failOne _ settle => exact live.settle settle
    | _ => exact live
  · obtain ⟨_, _, _, rfl⟩ := heartbeatStep_writes run
    exact live

theorem step_pending_old {a : Action} {e : PendingEntry} (linked : Linked s) (live : s.dispatcher.Live e)
    (run : step cfg s a = some s') (member : e ∈ s'.dispatcher.pending) : e ∈ s.dispatcher.pending := by
  obtain ⟨k, registered, _⟩ := linked.table.owned e live.mem_entries
  rcases mapChange_mem (step_mapChange run) member with old | ⟨_, op, here⟩ | ⟨_, here⟩
  · exact old
  · have mine := linked.calls e.owner
    rw [here, registered] at mine
    obtain ⟨j, other, _⟩ := mine
    cases other
  · have mine := linked.control
    rw [here] at mine
    obtain ⟨_, j, other, _⟩ := mine
    rw [registered] at other
    cases other

/-- Only a read that fails in its own way dooms an entry. -/
theorem ioStep_undoomed {e : PendingEntry} (linked : Linked s) (undoomed : ¬ s.Dooms e)
    (reads : ∀ error, input = .read (.error error) → error.kind ≠ .requestTimeout →
      error.kind ≠ .connectionClosed → e ∉ s.dispatcher.pending)
    (run : ioStep s input = some s') : ¬ s'.Dooms e := by
  unfold Dooms at undoomed
  cases ioStep_move run with
  | readError here kind =>
    rintro ⟨other, member⟩
    exact reads _ rfl kind other member
  | deadline =>
    rintro ⟨other, _⟩
    exact other rfl
  | fail here =>
    -- The thread takes the whole map, with empty hands before.
    have empty : s.dispatcher.held .io = [] := by
      have held := linked.ioHeld
      rwa [here] at held
    rw [here] at undoomed
    rintro ⟨other, member⟩
    simp only [Dispatcher.failAllTake, Dispatcher.take, Function.update_self, empty, List.nil_append] at member
    exact undoomed ⟨other, (List.mem_filter.mp member).1⟩
  | failOne here settle =>
    rw [here] at undoomed
    obtain ⟨picked, _, perm, same⟩ := Dispatcher.settle_eq settle
    simp only [Dooms, here]
    rintro ⟨other, member⟩
    exact undoomed ⟨other, perm.mem_iff.mp (List.mem_cons_of_mem _ member)⟩
  | expire here | answer here => simp [Dooms, here]
  | @reaped _ next => cases next <;> exact id
  | top => cases s.stopIo <;> exact id
  | readClosing => cases s.closing <;> exact id
  | _ => exact id

theorem step_undoomed {a : Action} {entries : List PendingEntry} {e : PendingEntry} (linked : Linked s)
    (live : s.dispatcher.Live e) (undoomed : ¬ s.Dooms e) (member : e ∈ entries)
    (reads : ReadsGracefully entries s a) (run : step cfg s a = some s') : ¬ s'.Dooms e := by
  by_cases io : ∃ input, a = .io input
  · obtain ⟨input, rfl⟩ := io
    refine ioStep_undoomed linked undoomed ?_ run
    rintro error rfl timeout closed
    exact reads error rfl timeout closed e member
  · obtain ⟨threads, held, _, _⟩ := step_aside (fun input same => io ⟨input, same⟩) run
    intro dooms
    rcases threads with same | fresh
    · refine undoomed ?_
      unfold Dooms at dooms ⊢
      rw [same, held] at dooms
      cases here : s.io with
      | fail error ending =>
        rw [here] at dooms
        exact ⟨dooms.1, step_pending_old linked live run dooms.2⟩
      | failing error ending =>
        rw [here] at dooms
        exact dooms
      | _ =>
        rw [here] at dooms
        exact dooms
    · rw [Dooms, fresh] at dooms
      exact dooms

/-! ## The run of a `close` -/

def emptiedMap (s : Client) : Prop := s.state = .closed ∨ s.control = .closeFailing ∨ s.control = .closeFinish

structure Resolving (entries : List PendingEntry) (s : Client) : Prop where
  live : ∀ e ∈ entries, s.dispatcher.Live e
  undoomed : ∀ e ∈ entries, ¬ s.Dooms e
  graceful : ∀ x ∈ s.dispatcher.settled, x.entry ∈ entries → ∀ error, x.cause = .failed error →
    error.kind = .connectionClosed
  state : s.state = .closing ∨ s.state = .closed
  emptied : s.emptiedMap → s.io = .finished ∧ ∀ e ∈ entries, e ∉ s.dispatcher.pending

theorem settles_graceful {entries : List PendingEntry} {x : Settlement} (undoomed : ∀ e ∈ entries, ¬ s.Dooms e)
    (settles : Settles s x) (member : x.entry ∈ entries) {error : StreamError} (failed : x.cause = .failed error) :
    error.kind = .connectionClosed := by
  cases settles with
  | expired => cases failed
  | answered => cases failed
  | failed here held =>
    cases failed
    by_contra other
    refine undoomed _ member ?_
    rw [Dooms, here]
    exact ⟨other, held⟩
  | closed =>
    cases failed
    rfl

theorem step_closed {a : Action} (staged : s.control.Staged s) (closing : s.state = .closing)
    (run : step cfg s a = some s') (closed : s'.state = .closed) : s.control = .closeFinish := by
  rcases step_sides run with ⟨_, _, _, _, _, _, _, _, _, rfl⟩ | ⟨input, rfl, run⟩ | ⟨input, rfl, run⟩
  · simp [closing] at closed
  · cases controlStep_move run with
    | closeFinish here => exact here
    | connectAbort here =>
      rw [here, ControlPc.Staged, closing] at staged
      cases staged.1
    | connectLock | connectOpen | closeLock => cases closed
    | _ => simp [closing, finish, write] at closed
  · -- The I/O thread does not touch the state of a connection that is closing.
    obtain ⟨_, _, same | ⟨⟨_, other⟩, _⟩⟩ := ioStep_staged run
    · simp [same, closing] at closed
    · exact absurd closing other

theorem step_finished {a : Action} (staged : s.control.Staged s) (finished : s.io = .finished)
    (run : step cfg s a = some s') : s'.io = .finished := by
  rcases step_sides run with ⟨_, _, _, _, _, _, _, _, _, rfl⟩ | ⟨input, rfl, run⟩ | ⟨input, rfl, run⟩
  · exact finished
  · cases controlStep_move run with
    | handshake => rwa [handshakeStep_io]
    | startIo here =>
      rw [here, ControlPc.Staged, finished] at staged
      cases staged.2.1
    | _ => exact finished
  · cases ioStep_move run <;> simp_all

/-- The control thread empties the map after it has joined the I/O thread. -/
theorem step_emptied {a : Action} (ready : Ready s) (staged : s.control.Staged s) (closing : s.state = .closing)
    (before : ¬ s.emptiedMap) (run : step cfg s a = some s') (after : s'.emptiedMap) :
    s'.io = .finished ∧ s'.dispatcher.pending = [] := by
  rcases after with closed | taken
  · exact absurd (.inr (.inr (step_closed staged closing run closed))) before
  · rcases step_control run with same | idle | ⟨input, rfl⟩
    · rw [same] at taken
      exact absurd (.inr taken) before
    · simp [idle, ControlPc.Staged, closing] at staged
    · cases controlStep_move run with
      | closeFail here => exact ⟨ready.joined (by rw [here]; rfl), Dispatcher.pending_failAllTake _ _⟩
      | closeFailOne here | closeFailed here => exact absurd (.inr (.inl here)) before
      | @handshake replies here =>
        rw [here, ControlPc.Staged, closing] at staged
        cases staged.1
      | _ => simp_all [finish]

theorem step_resolving {a : Action} {entries : List PendingEntry} (resolving : Resolving entries s)
    (linked : Linked s) (ready : Ready s) (staged : s.control.Staged s) (reads : ReadsGracefully entries s a)
    (run : step cfg s a = some s') : Resolving entries s' where
  live := fun e member => step_live (resolving.live e member) run
  undoomed := fun e member =>
    step_undoomed linked (resolving.live e member) (resolving.undoomed e member) member reads run
  graceful := by
    intro x settled member error failed
    rcases step_settles run with same | ⟨y, grown, settles⟩
    · rw [same] at settled
      exact resolving.graceful x settled member error failed
    · rw [grown] at settled
      rcases List.mem_append.mp settled with old | new
      · exact resolving.graceful x old member error failed
      · obtain rfl := List.mem_singleton.mp new
        exact settles_graceful resolving.undoomed settles member failed
  state := by
    -- From Closing there is one way on, and from Closed none.
    rcases resolving.state with state | state <;> rcases step_state staged run with same | edge
    · exact .inl (same.trans state)
    · simp only [state, ConnectionState.next, List.mem_singleton] at edge
      exact .inr edge
    · exact .inr (same.trans state)
    · simp [state, ConnectionState.next] at edge
  emptied := by
    intro after
    -- Once empty the map stays empty; otherwise this is the step that empties it.
    by_cases before : s.emptiedMap
    · obtain ⟨finished, gone⟩ := resolving.emptied before
      refine ⟨step_finished staged finished run, fun e member again => gone e member ?_⟩
      exact step_pending_old linked (resolving.live e member) run again
    · have closing := resolving.state.resolve_right fun closed => before (.inl closed)
      obtain ⟨finished, empty⟩ := step_emptied ready staged closing before run after
      exact ⟨finished, by simp [empty]⟩

theorem resolving_begin {s₀ s₁ : Client} {n : Nat} (linked : Linked s₀) (here : s₀.control = .closeLock n)
    (opened : s₀.state = .open) (undoomed : ∀ e ∈ s₀.outstanding, ¬ s₀.Dooms e)
    (begun : step cfg s₀ (.control .none) = some s₁) : Resolving s₀.outstanding s₁ := by
  cases controlStep_move begun with
  | closeLock =>
    constructor
    case live =>
      intro e member
      rcases List.mem_append.mp member with waiting | held
      · exact .inl waiting
      · exact .inr (.inl ⟨.io, held⟩)
    case undoomed => exact undoomed
    case graceful =>
      intro x settled member
      exact absurd rfl (linked.table.unresolved member settled)
    case state => exact .inl rfl
    case emptied => rintro (closed | failing | finish) <;> contradiction
  | _ => simp_all

end Client

/-- These entries are resolved as `close` promises, and all of them once it has returned. -/
structure ResolvedByClose (entries : List PendingEntry) (s : Client) : Prop where
  graceful : ∀ x ∈ s.dispatcher.settled, x.entry ∈ entries → x.cause.Graceful x.entry
  resolved : s.state = .closed → ∀ e ∈ entries, ∃ x ∈ s.dispatcher.settled, x.entry = e

/-- Of the requests outstanding when `close` moves the state to `Closing`, each is resolved
by its response, by its deadline or with `ConnectionClosed`, in every run in which no read
fails with another error while one of them is in the map. -/
theorem close_resolves_outstanding {cfg : ConnectionConfig} {s₀ s₁ s : Client} {n : Nat}
    (reach : (client cfg).Reach Machine.anyStep s₀) (here : s₀.control = .closeLock n)
    (opened : s₀.state = .open) (undoomed : ∀ e ∈ s₀.outstanding, ¬ s₀.Dooms e)
    (begun : (client cfg).step s₀ (.control .none) = some s₁)
    (run : ((client cfg).startingAt s₁).Reach (Client.ReadsGracefully s₀.outstanding) s) :
    ResolvedByClose s₀.outstanding s := by
  have closing : (client cfg).Reach Machine.anyStep s₁ := .step reach trivial begun
  have resolving : Client.Resolving s₀.outstanding s := by
    refine run.invariant (Client.Resolving s₀.outstanding) ?_ ?_
    · rintro _ rfl
      exact Client.resolving_begin (reach_linked reach) here opened undoomed begun
    · intro s a s' before resolving reads move
      have whole := closing.extend (fun _ _ _ => trivial) before
      exact Client.step_resolving resolving (reach_linked whole) (reach_ready whole) (reach_staged whole) reads move
  have whole := closing.extend (fun _ _ _ => trivial) run
  have linked := reach_linked whole
  refine ⟨fun x member mine => ⟨linked.table.valid x member, resolving.graceful x member mine⟩, ?_⟩
  intro closed e member
  obtain ⟨finished, gone⟩ := resolving.emptied (.inl closed)
  rcases resolving.live e member with waiting | ⟨t, held⟩ | settled
  · exact absurd waiting (gone e member)
  · -- Both threads have empty hands by then.
    have hands : s.dispatcher.held t = [] := by
      cases t with
      | io =>
        have empty := linked.ioHeld
        rwa [finished] at empty
      | control =>
        refine linked.controlHeld fun failing => ?_
        have staged := reach_staged whole
        rw [failing, ControlPc.Staged, closed] at staged
        cases staged.1
    rw [hands] at held
    cases held
  · exact settled

theorem closing_of_exec {cfg : ConnectionConfig} {allowed : Client → Client → Action → Prop}
    [∀ s₀ s a, Decidable (allowed s₀ s a)] {before after : List Action} {property : Client → Client → Bool}
    (ran : ((client cfg).exec Machine.anyStep {} before).any (fun s₀ =>
      ((client cfg).step s₀ (.control .none)).any fun s₁ =>
        (((client cfg).startingAt s₁).exec (allowed s₀) s₁ after).any (property s₀)) = true) :
    ∃ s₀ s₁ s, (client cfg).Reach Machine.anyStep s₀ ∧ (client cfg).step s₀ (.control .none) = some s₁ ∧
      ((client cfg).startingAt s₁).Reach (allowed s₀) s ∧ property s₀ s = true := by
  obtain ⟨s₀, reach, ran⟩ := Machine.reach_of_exec rfl ran
  obtain ⟨s₁, begun, ran⟩ := (Option.any_eq_true _ _).mp ran
  obtain ⟨s, run, holds⟩ := Machine.reach_of_exec rfl ran
  exact ⟨s₀, s₁, s, reach, begun, run, holds⟩

/-- A `delete_stream` waits when `close` is called; the I/O thread waits in its read. -/
def closeWhileWaiting : List Action :=
  opening (acceptingScript ⟨1048576, 0⟩) ++ request 0 (.deleteStream (text "a") false) ++ [.close 1]

/-- `close` sends its request and gets its response, then stops the I/O thread and closes
the socket, with these steps of the I/O thread before the response is acted upon. -/
def closeAnswered (meanwhile : List Action) : List Action :=
  List.replicate 3 (.control .none) ++ [.control (.sent (.ok ())), .control .none] ++
    delivery ⟨Key.responseOf Key.close, 1, [0, 1], some 101⟩ ++ meanwhile ++ List.replicate 3 (.control .none)

/-- The I/O thread finds the stop flag and ends; `close` fails the request. -/
theorem close_resolves_outstanding_waiting : ∃ s₀ s₁ s,
    (client {}).step s₀ (.control .none) = some s₁ ∧ ((client {}).startingAt s₁).Reach Machine.anyStep s ∧
    s₀.outstanding.length = 1 ∧ s.state = .closed ∧ ResolvedByClose s₀.outstanding s := by
  have ran : ((client {}).exec Machine.anyStep {} closeWhileWaiting).any (fun s₀ =>
      ((client {}).step s₀ (.control .none)).any fun s₁ =>
        (((client {}).startingAt s₁).exec (Client.ReadsGracefully s₀.outstanding) s₁
          (closeAnswered [] ++ [.io .none, .io .none] ++ List.replicate 3 (.control .none) ++
            [.control (.pick 0), .control .none, .control .none])).any fun s =>
          s₀.control = .closeLock 1 ∧ s₀.state = .open ∧ s₀.io = .top ∧ s₀.outstanding.length = 1 ∧
            s.state = .closed) = true := by decide +kernel
  obtain ⟨s₀, s₁, s, reach, begun, run, holds⟩ := closing_of_exec ran
  obtain ⟨here, opened, top, one, closed⟩ := of_decide_eq_true holds
  have undoomed : ∀ e ∈ s₀.outstanding, ¬ s₀.Dooms e := by simp [Client.Dooms, top]
  exact ⟨s₀, s₁, s, begun, run.mono fun _ _ _ => trivial, one, closed,
    close_resolves_outstanding reach here opened undoomed begun run⟩

def badDescriptor : StreamError := recvFailed (text "Bad file descriptor")

def readReply : Action → Option Reply
  | .io (.read reply) => some reply
  | _ => none

def ReadsClosedSocket (s : Client) (a : Action) : Prop :=
  s.socketOpen = false → ∀ reply ∈ readReply a, reply = .error badDescriptor

instance (s : Client) (a : Action) : Decidable (ReadsClosedSocket s a) :=
  inferInstanceAs (Decidable (s.socketOpen = false → ∀ reply ∈ readReply a, reply = .error badDescriptor))

/-- The I/O thread has gone back to its read when `close` closes the socket, and fails the
request with `IoError`. -/
theorem outstanding_failed_otherwise :
    ¬ ∀ (cfg : ConnectionConfig) (s₀ s₁ s : Client) (n : Nat), (client cfg).Reach Machine.anyStep s₀ →
      s₀.control = .closeLock n → s₀.state = .open → (client cfg).step s₀ (.control .none) = some s₁ →
      ((client cfg).startingAt s₁).Reach ReadsClosedSocket s → ResolvedByClose s₀.outstanding s := by
  intro claimed
  have ran : ((client {}).exec Machine.anyStep {} closeWhileWaiting).any (fun s₀ =>
      ((client {}).step s₀ (.control .none)).any fun s₁ =>
        (((client {}).startingAt s₁).exec ReadsClosedSocket s₁ (closeAnswered [.io .none] ++
          [.io (.read (.error badDescriptor)), .io .none, .io (.pick 0)])).any fun s =>
          s₀.control = .closeLock 1 ∧ s₀.state = .open ∧
            ∃ x ∈ s.dispatcher.settled, x.entry ∈ s₀.outstanding ∧ x.cause = .failed badDescriptor) = true := by
    decide +kernel
  obtain ⟨s₀, s₁, s, reach, begun, run, holds⟩ := closing_of_exec ran
  obtain ⟨here, opened, x, settled, member, cause⟩ := of_decide_eq_true holds
  have kind := ((claimed {} s₀ s₁ s 1 reach here opened begun run).graceful x settled member).2 _ cause
  cases kind

end RmqStream
