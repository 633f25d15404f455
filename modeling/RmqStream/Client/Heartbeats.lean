import RmqStream.Client.Wire
import RmqStream.Client.Watchdog

/-! How often the client sends heartbeats.

The heartbeat thread goes by `last_outbound_at_`, which the lifecycle calls move as well, and it
sets it to the time of its decision, which may be earlier than what a call has put there. Still
two of its decisions are apart by the negotiated interval in every run. -/

set_option autoImplicit false

namespace RmqStream
open Library Commands

namespace Client
variable {cfg : ConnectionConfig} {s s' : Client} {begin : Int}

def beats (s : Client) : Nat := s.wire.countP fun w => w.source = .heartbeat

def interval (s : Client) : Int := s.negotiatedHeartbeat.toNat * 1000

/-- The decision that the heartbeat thread has in hand. -/
def decision (s : Client) : Option Int :=
  match s.heartbeat with
  | .compare now | .write now | .stamp now => some now
  | _ => none

/-- `last_outbound_at_` is set, and not to be overwritten by a decision in hand. -/
def settledOutbound (s : Client) : Prop :=
  match s.heartbeat with
  | .top | .sleeping _ | .woken | .compare _ => True
  | .notStarted => s.control = .connectFlags ∨ s.control = .connectStartIo ∨ s.control = .connectStartHeartbeat
  | _ => False

/-- Where the heartbeats stand in a run: so many of them are counted, and each of these was
decided on by the interval after the one before. -/
structure Paced (begin : Int) (q : Int) (s : Client) : Prop where
  now : begin ≤ s.now
  past : ∀ decided ∈ s.decision, decided ≤ s.now
  compare : ∀ decided, s.heartbeat = .compare decided → 0 ≤ q + 1 → begin ≤ decided
  write : ∀ decided, s.heartbeat = .write decided → 0 ≤ q + 1 → begin + (q + 1) * s.interval ≤ decided
  stamp : ∀ decided, s.heartbeat = .stamp decided → 0 ≤ q → begin + q * s.interval ≤ decided
  outbound : s.settledOutbound → 0 ≤ q → begin + q * s.interval ≤ s.lastOutbound
  reached : 0 ≤ q → begin + q * s.interval ≤ s.now

theorem heartbeatStep_paced {input : Input} {q : Int} (paced : Paced begin q s)
    (run : heartbeatStep s input = some s') : Paced begin (q + (s'.beats - s.beats)) s' := by
  obtain ⟨now, past, compare, write, stamp, outbound, reached⟩ := paced
  cases heartbeatStep_move run with
  | top here =>
    simp only [settledOutbound, here, forall_const] at outbound
    simp only [beats, sub_self, add_zero]
    refine ⟨now, ?_, ?_, ?_, ?_, fun _ => outbound, reached⟩ <;> cases s.stopIo <;> simp [decision]
  | wake here =>
    simp only [settledOutbound, here, forall_const] at outbound
    simp only [beats, sub_self, add_zero]
    exact ⟨now, by simp [decision], by simp, by simp, by simp, fun _ => outbound, reached⟩
  | woken here =>
    simp only [settledOutbound, here, forall_const] at outbound
    simp only [beats, sub_self, add_zero]
    refine ⟨now, ?_, ?_, ?_, ?_, fun _ => outbound, reached⟩ <;> cases s.stopIo <;> simp [decision, now]
  | @compare decided here =>
    have before := past decided (by simp [decision, here])
    have begun := compare decided here
    simp only [settledOutbound, here, forall_const] at outbound
    simp only [beats, sub_self, add_zero]
    by_cases due : decided - s.lastOutbound ≥ (s.negotiatedHeartbeat.toNat : Int) * 1000
    · simp only [due, ↓reduceIte]
      refine ⟨now, ?_, by simp, ?_, by simp, by simp [settledOutbound], reached⟩
      · simpa [decision] using before
      · rintro _ ⟨⟩ enough
        show begin + (q + 1) * s.interval ≤ decided
        by_cases first : q + 1 = 0
        · rw [first]
          have := begun enough
          omega
        · have last := outbound (by omega)
          have apart : s.interval ≤ decided - s.lastOutbound := due
          rw [add_mul, one_mul]
          omega
    · simp only [due, ↓reduceIte]
      exact ⟨now, by simp [decision], by simp, by simp, by simp, fun _ => outbound, reached⟩
  | @write decided _ here =>
    have before := past decided (by simp [decision, here])
    have due := write decided here
    have one : q + (((s.write .heartbeat heartbeatFrame).beats : Int) - s.beats) = q + 1 := by
      simp [beats, Client.write]
    have counted : (beats { s.write .heartbeat heartbeatFrame with heartbeat := .stamp decided } : Int) =
      (s.write .heartbeat heartbeatFrame).beats := rfl
    rw [counted, one]
    refine ⟨now, ?_, by simp, by simp, ?_, by simp [settledOutbound], ?_⟩
    · simpa [decision, Client.write] using before
    · rintro _ ⟨⟩
      exact due
    · intro enough
      exact (due enough).trans before
  | @stamp decided here =>
    have due := stamp decided here
    simp only [beats, sub_self, add_zero]
    exact ⟨now, by simp [decision], by simp, by simp, by simp, fun _ => due, reached⟩

theorem paced_frame {q : Int} (paced : Paced begin q s) (later : s.now ≤ s'.now) (same : s'.heartbeat = s.heartbeat)
    (agreed : s'.negotiatedHeartbeat = s.negotiatedHeartbeat)
    (outbound : s'.settledOutbound → s.settledOutbound ∧ s'.lastOutbound = s.lastOutbound ∨ s'.lastOutbound = s.now) :
    Paced begin q s' := by
  have interval : s'.interval = s.interval := by rw [Client.interval, agreed, Client.interval]
  constructor
  case now => exact paced.now.trans later
  case past =>
    intro decided found
    rw [decision, same] at found
    exact (paced.past decided found).trans later
  case compare => exact fun decided here => paced.compare decided (same ▸ here)
  case write =>
    intro decided here
    rw [interval]
    exact paced.write decided (same ▸ here)
  case stamp =>
    intro decided here
    rw [interval]
    exact paced.stamp decided (same ▸ here)
  case outbound =>
    intro settled enough
    rw [interval]
    rcases outbound settled with ⟨before, kept⟩ | stamped
    · rw [kept]
      exact paced.outbound before enough
    · rw [stamped]
      exact paced.reached enough
  case reached =>
    intro enough
    rw [interval]
    exact (paced.reached enough).trans later

/-- Before its start the heartbeat thread goes by the time of `connect`. -/
theorem controlStep_paced {input : Input} {q : Int} (paced : Paced begin q s) (staged : s.control.Staged s)
    (early : s.control = .connectHandshake → q ≤ 0) (run : controlStep cfg s input = some s') : Paced begin q s' := by
  cases controlStep_move run with
  | @handshake replies here =>
    -- Nothing has been counted yet, so that the interval does not matter.
    have none := early here
    rw [here] at staged
    have still := staged.2.2
    have now : (handshakeStep cfg s replies).now = s.now := by
      obtain ⟨_, _, _, _, _, same⟩ := handshakeStep_writes cfg s replies
      rw [same]
    refine ⟨now ▸ paced.now, by simp [decision, still], by simp [still], by simp [still], by simp [still], ?_, ?_⟩
    · rcases handshakeStep_control cfg s replies with opened | ⟨e, failed⟩ <;> simp_all [settledOutbound]
    · intro enough
      rw [le_antisymm none enough, zero_mul, add_zero, now]
      exact paced.now
  | startHeartbeat here =>
    rw [here] at staged
    have outbound := paced.outbound (by simp [settledOutbound, staged.2.2, here])
    refine ⟨paced.now, ?_, ?_, ?_, ?_, fun _ => outbound, paced.reached⟩ <;>
      by_cases on : s.negotiatedHeartbeat > 0 <;> simp [decision, finish, on]
  | connectStamp here => exact paced_frame paced (le_refl _) rfl rfl fun _ => .inr rfl
  | connectFlags here | startIo here =>
    refine paced_frame paced (le_refl _) rfl rfl fun settled => .inl ⟨?_, rfl⟩
    cases beating : s.heartbeat <;> simp_all [settledOutbound]
  | _ =>
    refine paced_frame paced (le_refl _) rfl rfl fun settled => .inl ⟨?_, rfl⟩
    cases beating : s.heartbeat <;> simp_all [settledOutbound, finish, Client.write]

theorem step_beats {a : Action} (run : step cfg s a = some s') (other : ∀ input, a ≠ .heartbeat input) :
    s'.beats = s.beats := by
  obtain ⟨more, handover, grown⟩ := step_handover run
  rw [beats, grown, List.countP_append, ← beats]
  have none : more.countP (fun w => w.source = .heartbeat) = 0 := by
    rw [List.countP_eq_zero]
    intro w member
    cases handover with
    | nothing => cases member
    | handshake => simp [(handshake_entry member).1]
    | call | close => simp [List.mem_singleton.mp member]
    | heartbeat => exact absurd rfl (other _)
  rw [none, add_zero]

theorem step_paced {a : Action} {q : Int} (paced : Paced begin q s) (staged : s.control.Staged s)
    (early : s.control = .connectHandshake → q ≤ 0) (run : step cfg s a = some s') :
    Paced begin (q + (s'.beats - s.beats)) s' := by
  by_cases own : ∃ input, a = .heartbeat input
  · obtain ⟨input, rfl⟩ := own
    exact heartbeatStep_paced paced run
  · rw [step_beats run fun input same => own ⟨input, same⟩, sub_self, add_zero]
    by_cases control : ∃ input, a = .control input
    · obtain ⟨input, rfl⟩ := control
      exact controlStep_paced paced staged early run
    have later := step_clock run
    have begins := step_begins run
    rcases step_threads run with ⟨_, _, _, _, _, rfl⟩ | ⟨n, input, rfl, moved⟩ | ⟨input, rfl, moved⟩ |
      ⟨input, rfl, moved⟩ | ⟨input, rfl, moved⟩
    · refine paced_frame paced later rfl rfl fun settled => .inl ⟨?_, rfl⟩
      rcases begins with same | early | mine
      · cases beating : s.heartbeat <;> simp_all [settledOutbound]
      · cases beating : s.heartbeat <;> simp_all [settledOutbound]
        rcases settled with same | same | same <;> simp [same, ControlPc.begins] at early
      · exact absurd mine control
    · cases callStep_move moved with
      | touch => exact paced_frame paced later rfl rfl fun _ => .inr rfl
      | _ => exact paced_frame paced later rfl rfl fun settled => .inl ⟨settled, rfl⟩
    · exact absurd ⟨input, rfl⟩ control
    · obtain ⟨_, _, _, _, _, _, _, _, _, rfl⟩ := ioStep_writes moved
      exact paced_frame paced later rfl rfl fun settled => .inl ⟨settled, rfl⟩
    · exact absurd ⟨input, rfl⟩ own

theorem step_unbeaten {a : Action} (none : s.heartbeat = .notStarted → s.beats = 0) (staged : s.control.Staged s)
    (run : step cfg s a = some s') (still : s'.heartbeat = .notStarted) : s'.beats = 0 := by
  by_cases own : ∃ input, a = .heartbeat input
  · obtain ⟨input, rfl⟩ := own
    exact absurd still (heartbeatStep_staged run).2
  · rw [step_beats run fun input same => own ⟨input, same⟩]
    refine none ?_
    rcases step_threads run with ⟨_, _, _, _, _, rfl⟩ | ⟨n, input, rfl, moved⟩ | ⟨input, rfl, moved⟩ |
      ⟨input, rfl, moved⟩ | ⟨input, rfl, moved⟩
    · exact still
    · obtain ⟨_, _, _, _, rfl⟩ := callStep_writes moved
      exact still
    · cases controlStep_move moved with
      | handshake => rwa [handshakeStep_heartbeat] at still
      | startHeartbeat here =>
        rw [here] at staged
        exact staged.2.2
      | _ => exact still
    · obtain ⟨_, _, _, _, _, _, _, _, _, rfl⟩ := ioStep_writes moved
      exact still
    · exact absurd ⟨input, rfl⟩ own

theorem heartbeat_early (staged : s.control.Staged s) (early : s.state.rank < 2) :
    s.heartbeat = .notStarted ∧ ¬ s.settledOutbound := by
  cases at_ : s.control <;> simp_all [ControlPc.Staged, ConnectionState.rank, settledOutbound] <;>
    grind [ConnectionState.rank]

end Client

theorem reach_unbeaten {cfg : ConnectionConfig} {allowed : Client → Action → Prop} {s : Client}
    (reach : (client cfg).Reach allowed s) : s.heartbeat = .notStarted → s.beats = 0 := by
  refine reach.invariant (fun s => s.heartbeat = .notStarted → s.beats = 0) ?_ ?_
  · rintro _ rfl _
    rfl
  · intro s a s' before none _ run
    exact Client.step_unbeaten none (reach_staged before) run

theorem handshake_unbeaten {cfg : ConnectionConfig} {allowed : Client → Action → Prop} {s : Client}
    (reach : (client cfg).Reach allowed s) (here : s.control = .connectHandshake) : s.beats = 0 := by
  have staged := reach_staged reach
  rw [here] at staged
  exact reach_unbeaten reach staged.2.2

theorem reach_paced {cfg : ConnectionConfig} {allowed : Client → Action → Prop} {s : Client}
    (reach : (client cfg).Reach allowed s) : Client.Paced 0 s.beats s := by
  refine reach.invariant (fun s => Client.Paced 0 s.beats s) ?_ ?_
  · rintro _ rfl
    constructor <;> simp [Client.decision, Client.settledOutbound, Client.interval]
  · intro s a s' before paced _ run
    have moved := Client.step_paced paced (reach_staged before)
      (fun here => by simp [handshake_unbeaten before here]) run
    rwa [add_sub_cancel] at moved

/-! ## Along a run -/

/-- The heartbeats between two moments of a run, against the time between them in intervals: no more
than these from a moment before `Open`, one more from a moment with no decision in hand, and two
more from any moment. The second may follow the one decided on before as soon as that has gone out. -/
structure HeartbeatRate (s earlier : Client) : Prop where
  fromConnect : earlier.state.rank < 2 → (s.beats : Int) * s.interval ≤ s.now - earlier.now
  undecided : earlier.decision = none → ((s.beats : Int) - earlier.beats - 1) * s.interval ≤ s.now - earlier.now
  between : ((s.beats : Int) - earlier.beats - 2) * s.interval ≤ s.now - earlier.now

/-- A count that begins at any moment of a run, at zero or below. -/
theorem path_paced {cfg : ConnectionConfig} {run : List Client} (path : (client cfg).Path Machine.anyStep run) :
    ∀ s ∈ run.head?, ∀ earlier ∈ run, ∀ q ≤ 0, Client.Paced earlier.now q earlier →
      Client.Paced earlier.now (q + ((s.beats : Int) - earlier.beats)) s := by
  induction path with
  | init first =>
    rintro s ⟨⟩ earlier member q _ paced
    rw [List.mem_singleton.mp member] at paced ⊢
    rwa [sub_self, add_zero]
  | @step before after past a path allow move ih =>
    rintro s ⟨⟩ earlier member q negative paced
    rcases List.mem_cons.mp member with rfl | older
    · rwa [sub_self, add_zero]
    · have reach := path.reach List.mem_cons_self
      have counted := ih before rfl earlier older q negative paced
      have none := handshake_unbeaten reach
      have moved := Client.step_paced counted (reach_staged reach) (fun here => by rw [none here]; omega) move
      have same : q + ((before.beats : Int) - earlier.beats) + ((after.beats : Int) - before.beats) =
          q + ((after.beats : Int) - earlier.beats) := by omega
      rwa [same] at moved

theorem Client.Paced.rate {s : Client} {begin q : Int} (paced : Client.Paced begin q s) :
    q * s.interval ≤ s.now - begin := by
  by_cases enough : 0 ≤ q
  · have reached := paced.reached enough
    omega
  · have interval : 0 ≤ s.interval := by
      unfold Client.interval
      omega
    have nothing := mul_nonpos_of_nonpos_of_nonneg (le_of_not_ge enough) interval
    have now := paced.now
    omega

/-- In any window of a run the heartbeats are at most two more than the intervals in it, and at most
one more when the heartbeat thread has no decision in hand at its beginning. -/
theorem heartbeat_rate {cfg : ConnectionConfig} {s : Client} {past : List Client}
    (path : (client cfg).Path Machine.anyStep (s :: past)) : ∀ earlier ∈ past, HeartbeatRate s earlier := by
  intro earlier member
  have reach := path.reach (List.mem_cons_of_mem _ member)
  have old := (reach_paced reach).past
  have counted := path_paced path s rfl earlier (List.mem_cons_of_mem _ member)
  constructor
  case fromConnect =>
    intro early
    obtain ⟨still, unsettled⟩ := Client.heartbeat_early (reach_staged reach) early
    have paced : Client.Paced earlier.now 0 earlier := by
      refine ⟨le_refl _, old, ?_, ?_, ?_, fun settled => absurd settled unsettled, ?_⟩ <;> simp [still]
    have rate := (counted 0 (le_refl _) paced).rate
    rwa [reach_unbeaten reach still, Nat.cast_zero, sub_zero, zero_add] at rate
  case undecided =>
    intro undecided
    have paced : Client.Paced earlier.now (-1) earlier := by
      refine ⟨le_refl _, old, ?_, ?_, ?_, by omega, by omega⟩ <;> intro decided here <;>
        simp [Client.decision, here] at undecided
    have rate := (counted (-1) (by omega) paced).rate
    rwa [neg_add_eq_sub] at rate
  case between =>
    have paced : Client.Paced earlier.now (-2) earlier := by
      refine ⟨le_refl _, old, ?_, ?_, ?_, ?_, ?_⟩ <;> intros <;> omega
    have rate := (counted (-2) (by omega) paced).rate
    rwa [neg_add_eq_sub] at rate

def beat : List Action :=
  [.heartbeat .none, .tick 60000, .heartbeat .none, .heartbeat .none, .heartbeat .none, .heartbeat (.sent (.ok ())),
    .heartbeat .none]

theorem heartbeat_rate_two : ∃ s past, (client {}).Path Machine.anyStep (s :: past) ∧ s.beats = 2 ∧
    ({} : Client) ∈ past ∧ HeartbeatRate s {} := by
  have ran : ((client {}).exec Machine.anyStep {} (opening (acceptingScript ⟨1048576, 60⟩) ++ beat ++ beat)).any
      (fun s => s.beats = 2) = true := by decide +kernel
  obtain ⟨s, final, holds⟩ := (Option.any_eq_true _ _).mp ran
  have two := of_decide_eq_true holds
  obtain ⟨past, path, before⟩ := Machine.Path.exec (.init rfl) final
  have member : ({} : Client) ∈ past := by
    rcases List.mem_cons.mp (before.subset List.mem_cons_self) with same | inside
    · rw [← same] at two
      cases two
    · exact inside
  exact ⟨s, past, path, two, member, heartbeat_rate path {} member⟩

end RmqStream
