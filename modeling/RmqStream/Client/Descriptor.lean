import RmqStream.Client.Lifecycle
import RmqStream.Descriptors

/-! The descriptor of a client, from `connect` to the end of its destructor.

`sock_` is assigned what `connect_with_timeout` returns, and closed after a failed handshake, by
`close` and by the destructor. The kernel answers as it likes. -/

set_option autoImplicit false

namespace RmqStream
open Library

/-- A client with its `sock_` and the calls into the kernel so far. -/
structure Holding where
  client : Client := {}
  sock : Socket := {}
  calls : Trace := []

inductive HoldingOp where
  /-- `connect_with_timeout`, and the assignment of what it returns. -/
  | connectTcp
  | other (a : Action)
  deriving DecidableEq, Repr

namespace Holding

/-- `sock_ = std::move(sock_r).value()`; the temporary is destroyed at the end of `connect`. -/
def moveIn (k : Kernel) (sock result : Socket) : Sys Socket := do
  let (sock, temporary) ← sock.assign k result
  let _ ← temporary.close k
  pure sock

def effect (k : Kernel) (before : Client) (a : Action) (after : Client) (sock : Socket) : Sys Socket :=
  match a, before.control with
  | .control (.script _), .connectHandshake =>
    match after.control with
    | .connectAbort _ => sock.close k
    | _ => pure sock
  | .control .none, .closeSocket => sock.close k
  | .control .none, .destroySocket => do
    let sock ← sock.close k
    -- The destructor of the member.
    sock.close k
  | _, _ => pure sock

def perform (m : Sys Socket) (client : Client) (calls : Trace) : Option Holding :=
  match m.run calls with
  | (.ok sock, calls) => some ⟨client, sock, calls⟩
  | (.error _, _) => none

def step (k : Kernel) (resolver : HostResolver) (timeout : Int) (cfg : ConnectionConfig) (s : Holding) :
    HoldingOp → Option Holding
  | .connectTcp =>
    let found := (connectWithTimeout k cfg.host cfg.port timeout resolver).run s.calls
    match found.1 with
    | .error e => (s.client.step cfg (.control (.tcp (.error e)))).map fun client => ⟨client, s.sock, found.2⟩
    | .ok result => (s.client.step cfg (.control (.tcp (.ok ())))).bind fun client =>
      perform (moveIn k s.sock result) client found.2
  | .other (.control (.tcp _)) => none
  | .other a => (s.client.step cfg a).bind fun client => perform (effect k s.client a client s.sock) client s.calls

end Holding

def holding (k : Kernel) (resolver : HostResolver) (timeout : Int) (cfg : ConnectionConfig) :
    Machine Holding HoldingOp where
  init s := s = {}
  step := Holding.step k resolver timeout cfg

/-! ## Where the descriptor is open -/

/-- The points of the control thread at which the descriptor was given back, or never obtained. -/
def ControlPc.released : ControlPc → Bool
  | .connectAbort _ | .closeJoinIo | .closeJoinHeartbeat | .closeFail | .closeFailing | .closeFinish
  | .destroyed => true
  | _ => false

def ControlPc.connected : ControlPc → Bool
  | .connectHandshake | .connectOpen => true
  | _ => false

def ControlPc.destroysAlone : ControlPc → Bool
  | .destroyJoinHeartbeat | .destroySocket => true
  | _ => false

namespace Client

structure Descriptive (s : Client) : Prop where
  released : s.control.released = true → s.socketOpen = false
  connected : s.control.connected = true → s.socketOpen = true
  «open» : s.state = .open → s.socketOpen = true
  alone : s.control.destroysAlone = true → s.io = .finished ∨ s.io = .notStarted
  finished : s.io = .finished → s.state ≠ .open

/-- The descriptor is closed, and nothing will open another. -/
structure Released (s : Client) : Prop where
  closed : s.socketOpen = false
  late : 2 ≤ s.state.rank ∨ s.control.released = true

variable {cfg : ConnectionConfig} {s s' : Client}

theorem controlStep_descriptive {input : Input} (descriptive : Descriptive s) (staged : s.control.Staged s)
    (ready : Ready s) (run : controlStep cfg s input = some s') : Descriptive s' := by
  obtain ⟨released, connected, opened, alone, finished⟩ := descriptive
  obtain ⟨joined, socket⟩ := ready
  cases controlStep_move run with
  | @handshake replies here =>
    rw [here] at staged
    obtain ⟨frames, ⟨e, same⟩ | ⟨frameMax, interval, same⟩⟩ := handshakeStep_eq cfg s replies <;> rw [same] <;>
      constructor <;> simp_all [ControlPc.released, ControlPc.connected, ControlPc.destroysAlone, ControlPc.Staged]
  | destroySocket here =>
    rw [here] at staged alone
    -- The I/O thread has ended, and it takes the connection out of `Open`.
    have left : s.state ≠ .open := by
      rcases alone rfl with ended | never
      · exact finished ended
      · simp [ControlPc.Staged, never] at staged
        rcases staged with ⟨state, _⟩ | state <;> simp [state]
    constructor
    case released => exact fun _ => rfl
    case «open» => exact fun state => absurd state left
    case finished => exact finished
    all_goals simp [ControlPc.connected, ControlPc.destroysAlone]
  | _ =>
    constructor <;>
      simp_all [ControlPc.released, ControlPc.connected, ControlPc.destroysAlone, ControlPc.Staged,
        ControlPc.unconnected, finish, write]

theorem ioStep_descriptive {input : Input} (descriptive : Descriptive s) (run : ioStep s input = some s') :
    Descriptive s' := by
  obtain ⟨released, connected, opened, alone, finished⟩ := descriptive
  obtain ⟨started, _, state⟩ := ioStep_staged run
  have running : s.io ≠ .finished := by
    intro ended
    cases ioStep_move run <;> simp_all
  have ends : s'.io = .finished → s'.state ≠ .open := by
    intro ended
    cases ioStep_move run with
    | leave =>
      simp only
      split_ifs with outside
      · nofun
      · exact fun same => outside (by simp [same])
    | top | readClosing =>
      simp only at ended
      split at ended <;> cases ended
    | @reaped _ next => cases next <;> cases ended
    | _ => simp_all
  obtain ⟨_, _, _, _, _, _, _, _, _, rfl⟩ := ioStep_writes run
  refine ⟨released, connected, fun now => ?_, fun here => ?_, ends⟩
  · rcases state with same | ⟨_, closed⟩
    · exact opened (same.symm.trans now)
    · exact absurd (closed.symm.trans now) (by simp)
  · exact absurd (alone here) (not_or.mpr ⟨running, started⟩)

theorem step_descriptive {a : Action} (descriptive : Descriptive s) (staged : s.control.Staged s) (ready : Ready s)
    (run : step cfg s a = some s') : Descriptive s' := by
  obtain ⟨released, connected, opened, alone, finished⟩ := descriptive
  cases a with
  | tick | onUnexpectedClose =>
    cases run
    exact ⟨released, connected, opened, alone, finished⟩
  | invoke n op =>
    obtain ⟨_, rfl⟩ := step_invoke run
    exact ⟨released, connected, opened, alone, finished⟩
  | connect =>
    obtain ⟨_, ⟨e, rfl⟩ | rfl⟩ := step_connect run <;> exact ⟨nofun, nofun, opened, nofun, finished⟩
  | close n =>
    obtain ⟨_, _, rfl⟩ := step_close run
    exact ⟨nofun, nofun, opened, nofun, finished⟩
  | destroy =>
    obtain ⟨_, rfl⟩ := step_destroy run
    exact ⟨nofun, nofun, opened, nofun, finished⟩
  | call n input =>
    obtain ⟨_, _, _, _, rfl⟩ := callStep_writes run
    exact ⟨released, connected, opened, alone, finished⟩
  | heartbeat input =>
    obtain ⟨_, _, _, rfl⟩ := heartbeatStep_writes run
    exact ⟨released, connected, opened, alone, finished⟩
  | control input => exact controlStep_descriptive ⟨released, connected, opened, alone, finished⟩ staged ready run
  | io input => exact ioStep_descriptive ⟨released, connected, opened, alone, finished⟩ run

theorem step_released {a : Action} (released : Released s) (staged : s.control.Staged s)
    (run : step cfg s a = some s') : Released s' := by
  obtain ⟨closed, late⟩ := released
  have grows : 2 ≤ s.state.rank → 2 ≤ s'.state.rank := by
    intro opened
    rcases step_state staged run with same | edge
    · rwa [same]
    · exact opened.trans (ConnectionState.rank_lt_of_next edge).le
  have later : 2 ≤ s'.state.rank ∨ s'.control.released = true := by
    rcases late with opened | released
    · exact .inl (grows opened)
    · rcases step_control run with same | idle | ⟨input, rfl⟩
      · exact .inr (same ▸ released)
      · rw [idle] at released
        cases released
      · cases controlStep_move run with
        | _ => simp_all [ControlPc.released, finish, ConnectionState.rank]
  refine ⟨?_, later⟩
  rcases step_sides run with ⟨_, _, _, _, _, _, _, _, _, rfl⟩ | ⟨input, rfl, moved⟩ | ⟨input, rfl, moved⟩
  · exact closed
  · cases controlStep_move moved with
    | tcp here =>
      rw [here] at staged late
      simp [staged.1, ConnectionState.rank, ControlPc.released] at late
    | @handshake replies =>
      obtain ⟨frames, ⟨e, same⟩ | ⟨frameMax, interval, same⟩⟩ := handshakeStep_eq cfg s replies <;> simp [same, closed]
    | closeSocket | destroySocket => rfl
    | _ => exact closed
  · obtain ⟨_, _, _, _, _, _, _, _, _, rfl⟩ := ioStep_writes moved
    exact closed

end Client

/-! ## One step -/

namespace Holding
variable {k : Kernel} {resolver : HostResolver} {timeout : Int} {cfg : ConnectionConfig} {s s' : Holding}

structure Owning (client : Client) (sock : Socket) (calls : Trace) : Prop where
  held : held Called.use calls = some (owns (some sock))
  socketOpen : client.socketOpen = true ↔ sock.fd ≠ -1

theorem close_run {sock : Socket} {calls : Trace} (before : held Called.use calls = some (owns (some sock))) :
    ∃ after, (sock.close k).run calls = (.ok {}, after) ∧ held Called.use after = some [] := by
  by_cases valid : sock.fd = -1
  · have same : sock.close k = pure sock := if_neg (not_not.mpr valid)
    have empty : sock = {} := congrArg Socket.mk valid
    refine ⟨calls, by rw [same, empty]; rfl, ?_⟩
    rw [before, owns, if_pos valid]
  · have closes : sock.close k = (do let _ ← k.sys (.close sock.fd); pure { sock with fd := -1 }) := if_pos valid
    refine ⟨_, by rw [closes]; rfl, ?_⟩
    rw [owns, if_neg valid] at before
    exact held_gives before rfl

theorem effect_owning {client after : Client} {sock : Socket} {calls : Trace} {a : Action}
    (owning : Owning client sock calls) (other : ∀ result, a ≠ .control (.tcp result))
    (run : client.step cfg a = some after) :
    ∃ sock' calls', (effect k client a after sock).run calls = (.ok sock', calls') ∧ Owning after sock' calls' := by
  have keeps : ∀ later : Client, later.socketOpen = client.socketOpen → Owning later sock calls :=
    fun later same => ⟨owning.held, same ▸ owning.socketOpen⟩
  obtain ⟨closed, closes, nothing⟩ := close_run (k := k) owning.held
  cases a with
  | tick | onUnexpectedClose =>
    cases run
    exact ⟨sock, calls, rfl, keeps _ rfl⟩
  | invoke n op =>
    obtain ⟨_, rfl⟩ := Client.step_invoke run
    exact ⟨sock, calls, rfl, keeps _ rfl⟩
  | connect =>
    obtain ⟨_, ⟨e, rfl⟩ | rfl⟩ := Client.step_connect run <;> exact ⟨sock, calls, rfl, keeps _ rfl⟩
  | close n =>
    obtain ⟨_, _, rfl⟩ := Client.step_close run
    exact ⟨sock, calls, rfl, keeps _ rfl⟩
  | destroy =>
    obtain ⟨_, rfl⟩ := Client.step_destroy run
    exact ⟨sock, calls, rfl, keeps _ rfl⟩
  | call n input =>
    obtain ⟨_, _, _, _, rfl⟩ := Client.callStep_writes run
    exact ⟨sock, calls, rfl, keeps _ rfl⟩
  | io input =>
    obtain ⟨_, _, _, _, _, _, _, _, _, rfl⟩ := Client.ioStep_writes run
    exact ⟨sock, calls, rfl, keeps _ rfl⟩
  | heartbeat input =>
    obtain ⟨_, _, _, rfl⟩ := Client.heartbeatStep_writes run
    exact ⟨sock, calls, rfl, keeps _ rfl⟩
  | control input =>
    cases Client.controlStep_move run with
    | tcpFailed | tcp => exact absurd rfl (other _)
    | @handshake replies here =>
      obtain ⟨frames, ⟨e, same⟩ | ⟨frameMax, interval, same⟩⟩ := Client.handshakeStep_eq cfg client replies
      · rw [same]
        exact ⟨{}, closed, by simpa only [effect, here] using closes, nothing, by simp⟩
      · rw [same]
        exact ⟨sock, calls, by simp only [effect, here]; rfl, keeps _ rfl⟩
    | closeSocket here => exact ⟨{}, closed, by simpa only [effect, here] using closes, nothing, by simp⟩
    | destroySocket here =>
      refine ⟨{}, closed, ?_, nothing, by simp⟩
      simp only [effect, here]
      rw [Fallible.bind_ok closes]
      rfl
    | _ => exact ⟨sock, calls, by simp_all [effect], keeps _ rfl⟩

theorem moveIn_run {result : Socket} {calls : Trace} : (moveIn k {} result).run calls = (.ok result, calls) := rfl

theorem connectTcp_owning (owning : Owning s.client s.sock s.calls) (ready : s.client.Ready)
    (run : step k resolver timeout cfg s .connectTcp = some s') :
    (∃ a, s.client.step cfg a = some s'.client) ∧ Owning s'.client s'.sock s'.calls := by
  have ensures : Fallible.Ensures (connectWithTimeout k cfg.host cfg.port timeout resolver) Idle
    (fun owner => Found (some owner)) Idle := connectWithTimeout_ensures
  have unconnected : ∀ {result after}, s.client.step cfg (.control (.tcp result)) = some after →
      s.client.control = .connectTcp := by
    intro result after moved
    cases Client.controlStep_move moved <;> assumption
  have empty : s.client.control = .connectTcp → s.sock = {} ∧ s.client.socketOpen = false := by
    intro here
    have closed := ready.socket (.inr (by rw [here]; rfl))
    refine ⟨?_, closed⟩
    by_contra valid
    have opened := owning.socketOpen.mpr fun same => valid (congrArg Socket.mk same)
    simp [closed] at opened
  have start : s.client.control = .connectTcp → Idle s.calls := fun here => by
    have holds := owning.held
    rwa [(empty here).1] at holds
  simp only [step] at run
  rcases found : (connectWithTimeout k cfg.host cfg.port timeout resolver).run s.calls with ⟨e | result, calls⟩ <;>
    rw [found] at run
  · obtain ⟨client, moved, rfl⟩ := Option.map_eq_some_iff.mp run
    have here := unconnected moved
    have idle := ensures s.calls (start here)
    rw [found] at idle
    refine ⟨⟨_, moved⟩, ?_⟩
    cases Client.controlStep_move moved with
    | tcpFailed => exact ⟨(empty here).1 ▸ idle, owning.socketOpen⟩
  · obtain ⟨client, moved, run⟩ := Option.bind_eq_some_iff.mp run
    have here := unconnected moved
    have obtained := ensures s.calls (start here)
    rw [found] at obtained
    obtain ⟨after, obtained, _⟩ := obtained
    have valid : result.fd ≠ -1 := fun same => absurd (same ▸ obtained.valid) (by decide)
    rw [(empty here).1, perform, moveIn_run] at run
    cases run
    refine ⟨⟨_, moved⟩, ?_⟩
    cases Client.controlStep_move moved with
    | tcp => exact ⟨by rw [owns, if_neg valid]; exact obtained.alone, by simp [valid]⟩

theorem step_owning {op : HoldingOp} (owning : Owning s.client s.sock s.calls) (ready : s.client.Ready)
    (run : step k resolver timeout cfg s op = some s') :
    (∃ a, s.client.step cfg a = some s'.client) ∧ Owning s'.client s'.sock s'.calls := by
  cases op with
  | connectTcp => exact connectTcp_owning owning ready run
  | other a =>
    have other : ∀ result, a ≠ .control (.tcp result) := by
      rintro result rfl
      cases run
    have same : step k resolver timeout cfg s (.other a) = (s.client.step cfg a).bind fun client =>
        perform (effect k s.client a client s.sock) client s.calls := by
      unfold step
      split
      next equal => cases equal
      next equal =>
        cases equal
        exact absurd rfl (other _)
      next equal =>
        cases equal
        rfl
    rw [same] at run
    obtain ⟨client, moved, performed⟩ := Option.bind_eq_some_iff.mp run
    obtain ⟨sock, calls, effected, holds⟩ := effect_owning (k := k) owning other moved
    rw [perform, effected] at performed
    cases performed
    exact ⟨⟨a, moved⟩, holds⟩

end Holding

/-! ## Whole runs -/

section Runs
variable {k : Kernel} {resolver : HostResolver} {timeout : Int} {cfg : ConnectionConfig}

theorem reach_holding {s : Holding} (reach : (holding k resolver timeout cfg).Reach Machine.anyStep s) :
    (client cfg).Reach Machine.anyStep s.client ∧ Holding.Owning s.client s.sock s.calls ∧ s.client.Descriptive := by
  refine reach.invariant (fun s => (client cfg).Reach Machine.anyStep s.client ∧
    Holding.Owning s.client s.sock s.calls ∧ s.client.Descriptive) ?_ ?_
  · rintro _ rfl
    exact ⟨.init rfl, ⟨rfl, by simp⟩, ⟨nofun, nofun, nofun, nofun, nofun⟩⟩
  · rintro s op s' _ ⟨reached, owning, descriptive⟩ _ run
    obtain ⟨⟨a, moved⟩, holds⟩ := Holding.step_owning owning (reach_ready reached) run
    exact ⟨reached.step trivial moved, holds,
      Client.step_descriptive descriptive (reach_staged reached) (reach_ready reached) moved⟩

theorem path_released {run : List Holding} (path : (holding k resolver timeout cfg).Path Machine.anyStep run) :
    ∀ s ∈ run.head?, ∀ earlier ∈ run, earlier.client.control.released = true → s.client.Released := by
  have here : ∀ s : Holding, (holding k resolver timeout cfg).Reach Machine.anyStep s →
      s.client.control.released = true → s.client.Released :=
    fun s reach released => ⟨(reach_holding reach).2.2.released released, .inr released⟩
  induction path with
  | init first =>
    rintro s ⟨⟩ earlier member released
    rw [List.mem_singleton.mp member] at released
    exact here _ (.init first) released
  | @step before after past op path allow move ih =>
    rintro s ⟨⟩ earlier member released
    have reach := path.reach List.mem_cons_self
    rcases List.mem_cons.mp member with rfl | older
    · exact here _ (reach.step allow move) released
    · obtain ⟨reached, owning, _⟩ := reach_holding reach
      obtain ⟨⟨a, moved⟩, _⟩ := Holding.step_owning owning (reach_ready reached) move
      exact Client.step_released (ih before rfl earlier older released) (reach_staged reached) moved

structure DescriptorLife (s : Holding) (past : List Holding) : Prop where
  /-- Every `close` was of an open descriptor, and none is open but the one in `sock_`. -/
  owned : held Called.use s.calls = some (if s.client.socketOpen then [s.sock.fd] else [])
  closed_once : ∀ fd, taken Called.use fd s.calls =
    given Called.use fd s.calls + if s.client.socketOpen ∧ s.sock.fd = fd then 1 else 0
  «open» : s.client.state = .open → held Called.use s.calls = some [s.sock.fd]
  /-- After a `connect` that failed, a `close` and the destructor nothing is open for good. -/
  released : ∀ earlier ∈ s :: past, earlier.client.control.released = true → held Called.use s.calls = some []

/-- For every kernel, every list of addresses and every order of the calls and threads of a client. -/
theorem descriptor_life {s : Holding} {past : List Holding}
    (path : (holding k resolver timeout cfg).Path Machine.anyStep (s :: past)) : DescriptorLife s past := by
  obtain ⟨_, owning, descriptive⟩ := reach_holding (path.reach List.mem_cons_self)
  have owned : held Called.use s.calls = some (if s.client.socketOpen then [s.sock.fd] else []) := by
    rw [owning.held]
    by_cases valid : s.sock.fd = -1
    · simp [owns, valid, owning.socketOpen]
    · simp [owns, valid, owning.socketOpen.mpr valid]
  constructor
  case owned => exact owned
  case closed_once =>
    intro fd
    rw [taken_eq_given owned]
    cases s.client.socketOpen
    · simp
    · simp [List.count_singleton]
  case «open» =>
    intro state
    rw [owned, if_pos (descriptive.open state)]
  case released =>
    intro earlier member released
    rw [owned, (path_released path s rfl earlier member released).closed]
    rfl

end Runs

def wholeLife : List HoldingOp :=
  [.other .connect, .other (.control .none), .connectTcp] ++
    (Action.control (.script (acceptingScript ⟨1048576, 0⟩)) :: List.replicate 5 (Action.control .none) ++
      Action.destroy :: List.replicate 2 (Action.control .none) ++ List.replicate 2 (Action.io .none) ++
      List.replicate 3 (Action.control .none)).map .other

theorem descriptor_life_whole :
    ∃ s past, (holding lowestFree (fun _ _ => .ok [⟨2, 1, 6, []⟩]) 5000 {}).Path Machine.anyStep (s :: past) ∧
      s.client.control = .destroyed ∧ taken Called.use 0 s.calls = 1 ∧ given Called.use 0 s.calls = 1 ∧
      DescriptorLife s past := by
  have ran : ((holding lowestFree (fun _ _ => .ok [⟨2, 1, 6, []⟩]) 5000 {}).exec Machine.anyStep {} wholeLife).any
      (fun s => s.client.control = .destroyed ∧ taken Called.use 0 s.calls = 1 ∧ given Called.use 0 s.calls = 1) =
        true := by decide +kernel
  obtain ⟨s, final, holds⟩ := (Option.any_eq_true _ _).mp ran
  obtain ⟨destroyed, opened, closed⟩ := of_decide_eq_true holds
  obtain ⟨past, path, _⟩ := Machine.Path.exec (.init rfl) final
  exact ⟨s, past, path, destroyed, opened, closed, descriptor_life path⟩

end RmqStream
