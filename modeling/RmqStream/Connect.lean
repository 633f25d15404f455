import RmqStream.Config
import RmqStream.Library.Fallible
import RmqStream.Library.Ledger

/-! `connect_with_timeout` and the `Socket` it returns, of `src/socket.cpp`.

The kernel answers each call as it likes, and may look at everything called before. What the
function does to descriptors is read off the trace of its calls. -/

set_option autoImplicit false

namespace RmqStream
open Library

inductive Syscall where
  | socket (family socktype protocol : Int32)
  | getFlags (fd : Int32)
  | setFlags (fd flags : Int32)
  | connect (fd : Int32) (sockaddr : Bytes)
  /-- For writability. -/
  | poll (fd milliseconds : Int32)
  /-- `getsockopt` of `SO_ERROR`. -/
  | socketError (fd : Int32)
  | close (fd : Int32)
  deriving DecidableEq, Repr

structure Answer where
  value : Int32
  errno : Int32 := 0
  stored : Int32 := 0
  deriving DecidableEq, Repr

structure Called where
  call : Syscall
  answer : Answer
  deriving DecidableEq, Repr

abbrev Trace := List Called

structure Kernel where
  /-- `O_NONBLOCK` and `EINPROGRESS`. -/
  nonblock : Int32
  inProgress : Int32
  answer : Trace → Syscall → Answer

abbrev Sys (α : Type) := Fallible Trace StreamError α

def Kernel.sys (k : Kernel) (call : Syscall) : Sys Answer := ⟨fun trace =>
  (.ok (k.answer trace call), trace ++ [⟨call, k.answer trace call⟩])⟩

structure Socket where
  fd : Int32 := -1
  deriving DecidableEq, Repr

namespace Socket

def release (s : Socket) : Int32 × Socket := (s.fd, { s with fd := -1 })

def move (other : Socket) : Socket × Socket := (⟨other.release.1⟩, other.release.2)

/-- Also what the destructor does. -/
def close (k : Kernel) (s : Socket) : Sys Socket := do
  if s.fd ≠ -1 then
    let _ ← k.sys (.close s.fd)
    pure { s with fd := -1 }
  else pure s

end Socket

/-- `Result<Socket>::ok(Socket(fd))`: the result is moved from a temporary, which is then
destroyed. -/
def ownDescriptor (k : Kernel) (fd : Int32) : Sys Socket := do
  let (owner, temporary) := Socket.move ⟨fd⟩
  let _ ← temporary.close k
  pure owner

structure ResolvedAddr where
  family : Int32 := 0
  socktype : Int32 := 0
  protocol : Int32 := 0
  sockaddr : Bytes
  deriving DecidableEq, Repr

abbrev HostResolver := Bytes → UInt16 → Result (List ResolvedAddr)

def connectTimedOut (host : Bytes) : StreamError := ⟨.connectFailed, text "connect timed out to " ++ host, none⟩

def couldNotConnect (host : Bytes) (port : UInt16) : StreamError :=
  ⟨.connectFailed, text "could not connect to " ++ host ++ text ":" ++ text (toString port.toNat), none⟩

section Connect
variable (k : Kernel) (host : Bytes) (port : UInt16) (timeout : Int)

/-- The flags before, unless one of the two calls failed. -/
def setNonblocking (fd : Int32) : Sys (Option Int32) := do
  let flags ← k.sys (.getFlags fd)
  if flags.value < 0 then pure none
  else
    let set ← k.sys (.setFlags fd (flags.value ||| k.nonblock))
    pure (if set.value < 0 then none else some flags.value)

/-- `continue` after `close`. -/
def giveUp (fd : Int32) : Sys (Option Socket) := do
  let _ ← k.sys (.close fd)
  pure none

/-- Blocking again; whether that works is not looked at. -/
def connected (fd flags : Int32) : Sys (Option Socket) := do
  let _ ← k.sys (.setFlags fd flags)
  let owner ← ownDescriptor k fd
  pure (some owner)

def pollMilliseconds : Int32 := Int32.ofInt (min timeout 2147483647)

/-- A timeout ends the search, however many addresses are left. -/
def awaitConnect (fd flags : Int32) : Sys (Option Socket) := do
  let ready ← k.sys (.poll fd (pollMilliseconds timeout))
  if ready.value ≤ 0 then
    let _ ← k.sys (.close fd)
    if ready.value = 0 then Fallible.fail (connectTimedOut host) else pure none
  else
    let checked ← k.sys (.socketError fd)
    if checked.value < 0 ∨ checked.stored ≠ 0 then giveUp k fd else connected k fd flags

def connectNonblocking (fd : Int32) (sockaddr : Bytes) (flags : Int32) : Sys (Option Socket) := do
  let rc ← k.sys (.connect fd sockaddr)
  if rc.value = 0 then connected k fd flags
  else if rc.errno ≠ k.inProgress then giveUp k fd
  else awaitConnect k host timeout fd flags

def tryAddress (addr : ResolvedAddr) : Sys (Option Socket) := do
  let opened ← k.sys (.socket addr.family addr.socktype addr.protocol)
  if opened.value < 0 then pure none
  else
    match ← setNonblocking k opened.value with
    | none => giveUp k opened.value
    | some flags => connectNonblocking k host timeout opened.value addr.sockaddr flags

def tryAddresses : List ResolvedAddr → Sys Socket
  | [] => Fallible.fail (couldNotConnect host port)
  | addr :: addrs => do
    match ← tryAddress k host timeout addr with
    | some owner => pure owner
    | none => tryAddresses addrs

def connectWithTimeout (resolver : HostResolver) : Sys Socket := do
  let addrs ← Fallible.ofExcept (resolver host port)
  tryAddresses k host port timeout addrs

end Connect

def Called.use (c : Called) : Use Int32 :=
  match c.call with
  | .socket _ _ _ => if c.answer.value < 0 then .neither else .takes c.answer.value
  | .close fd => .gives fd
  | _ => .neither

/-- `fd` is the descriptor obtained last and the only one open; `after` are the calls since. -/
structure Obtained (fd : Int32) (after trace : Trace) : Prop where
  alone : held Called.use trace = some [fd]
  last : ∃ before opened, trace = before ++ opened :: after ∧ opened.use = .takes fd
  quiet : ∀ c ∈ after, c.use = .neither

/-- `connect` returned 0, or `poll` reported the descriptor and its `SO_ERROR` was 0. -/
def ConnectSucceeded (fd : Int32) (calls : Trace) : Prop :=
  (∃ sockaddr answer, ⟨.connect fd sockaddr, answer⟩ ∈ calls ∧ answer.value = 0) ∨
    (∃ milliseconds answer, ⟨.poll fd milliseconds, answer⟩ ∈ calls ∧ 0 < answer.value) ∧
      ∃ answer, ⟨.socketError fd, answer⟩ ∈ calls ∧ 0 ≤ answer.value ∧ answer.stored = 0

theorem ConnectSucceeded.mono {fd : Int32} {calls more : Trace} (succeeded : ConnectSucceeded fd calls)
    (sub : calls ⊆ more) : ConnectSucceeded fd more := by
  rcases succeeded with ⟨sockaddr, answer, member, zero⟩ | ⟨⟨ms, ready, polled, positive⟩, answer, member, clear⟩
  · exact .inl ⟨sockaddr, answer, sub member, zero⟩
  · exact .inr ⟨⟨ms, ready, sub polled, positive⟩, answer, sub member, clear⟩

theorem Obtained.snoc {fd : Int32} {after trace : Trace} (obtained : Obtained fd after trace) {c : Called}
    (neither : c.use = .neither) : Obtained fd (after ++ [c]) (trace ++ [c]) where
  alone := held_neither obtained.alone neither
  last := by
    obtain ⟨before, opened, split, takes⟩ := obtained.last
    exact ⟨before, opened, by rw [split, List.append_assoc, List.cons_append], takes⟩
  quiet := by
    intro other member
    rcases List.mem_append.mp member with earlier | new
    · exact obtained.quiet other earlier
    · rw [List.mem_singleton.mp new]
      exact neither

theorem Obtained.valid {fd : Int32} {after trace : Trace} (obtained : Obtained fd after trace) : 0 ≤ fd := by
  obtain ⟨_, opened, _, takes⟩ := obtained.last
  unfold Called.use at takes
  split at takes
  · split at takes
    · cases takes
    next positive =>
      cases takes
      exact Int32.not_lt.mp positive
  · cases takes
  · cases takes

/-! ## What each part does to them -/

def Idle (trace : Trace) : Prop := held Called.use trace = some []

def Trying (fd : Int32) (known trace : Trace) : Prop := ∃ after, Obtained fd after trace ∧ known ⊆ after

def Found : Option Socket → Trace → Prop
  | none => Idle
  | some owner => fun trace => ∃ after, Obtained owner.fd after trace ∧ ConnectSucceeded owner.fd after

section Descriptors
open Fallible
variable {k : Kernel} {fd : Int32} {known : Trace}

theorem sys_trying {call : Syscall} {error : Trace → Prop} (neither : ∀ answer, Called.use ⟨call, answer⟩ = .neither) :
    Ensures (k.sys call) (Trying fd known) (fun answer => Trying fd (⟨call, answer⟩ :: known)) error := by
  intro trace ⟨after, obtained, sub⟩
  refine ⟨_, obtained.snoc (neither _), ?_⟩
  rintro c (_ | ⟨_, member⟩)
  · exact List.mem_append_right after List.mem_cons_self
  · exact List.mem_append_left _ (sub member)

theorem sys_close {error : Trace → Prop} :
    Ensures (k.sys (.close fd)) (Trying fd known) (fun _ => Idle) error :=
  fun _ ⟨_, obtained, _⟩ => held_gives obtained.alone rfl

theorem giveUp_ensures : Ensures (giveUp k fd) (Trying fd known) Found Idle :=
  sys_close.bind fun _ => .pure fun _ idle => idle

/-- Nothing is left in the temporary for its destructor to close. -/
theorem ownDescriptor_eq : ownDescriptor k fd = pure ⟨fd⟩ := rfl

theorem connected_ensures {flags : Int32} (succeeded : ConnectSucceeded fd known) :
    Ensures (connected k fd flags) (Trying fd known) Found Idle := by
  refine (sys_trying fun _ => rfl).bind fun answer => ?_
  rw [ownDescriptor_eq]
  rintro trace ⟨after, obtained, sub⟩
  exact ⟨after, obtained, succeeded.mono fun c member => sub (List.mem_cons_of_mem _ member)⟩

theorem awaitConnect_ensures {host : Bytes} {timeout : Int} {flags : Int32} :
    Ensures (awaitConnect k host timeout fd flags) (Trying fd known) Found Idle := by
  refine (sys_trying fun _ => rfl).bind fun ready => ?_
  by_cases negative : ready.value ≤ 0
  · rw [if_pos negative]
    refine sys_close.bind fun _ => ?_
    by_cases zero : ready.value = 0
    · rw [if_pos zero]
      exact .fail fun _ idle => idle
    · rw [if_neg zero]
      exact .pure fun _ idle => idle
  rw [if_neg negative]
  refine (sys_trying fun _ => rfl).bind fun checked => ?_
  by_cases bad : checked.value < 0 ∨ checked.stored ≠ 0
  · rw [if_pos bad]
    exact giveUp_ensures
  · rw [if_neg bad]
    rw [not_or, not_not] at bad
    have polled : ∃ milliseconds answer, ⟨.poll fd milliseconds, answer⟩ ∈
        (⟨.socketError fd, checked⟩ :: ⟨.poll fd (pollMilliseconds timeout), ready⟩ :: known : Trace) ∧
          0 < answer.value :=
      ⟨_, ready, List.mem_cons_of_mem _ List.mem_cons_self, Int32.not_le.mp negative⟩
    exact connected_ensures
      (.inr ⟨polled, checked, List.mem_cons_self, Int32.not_lt.mp bad.1, bad.2⟩)

theorem connectNonblocking_ensures {host sockaddr : Bytes} {timeout : Int} {flags : Int32} :
    Ensures (connectNonblocking k host timeout fd sockaddr flags) (Trying fd known) Found Idle := by
  refine (sys_trying fun _ => rfl).bind fun rc => ?_
  by_cases zero : rc.value = 0
  · rw [if_pos zero]
    exact connected_ensures (.inl ⟨sockaddr, rc, List.mem_cons_self, zero⟩)
  rw [if_neg zero]
  by_cases failed : rc.errno ≠ k.inProgress
  · rw [if_pos failed]
    exact giveUp_ensures
  · rw [if_neg failed]
    exact awaitConnect_ensures

/-- Whatever comes of it, the descriptor stays open. -/
theorem setNonblocking_ensures {error : Trace → Prop} :
    Ensures (setNonblocking k fd) (Trying fd []) (fun _ trace => ∃ known, Trying fd known trace) error := by
  refine (sys_trying fun _ => rfl).bind fun flags => ?_
  by_cases negative : flags.value < 0
  · rw [if_pos negative]
    exact .pure fun _ trying => ⟨_, trying⟩
  · rw [if_neg negative]
    exact (sys_trying fun _ => rfl).bind fun set => .pure fun _ trying => ⟨_, trying⟩

theorem tryAddress_ensures {host : Bytes} {timeout : Int} {addr : ResolvedAddr} :
    Ensures (tryAddress k host timeout addr) Idle Found Idle := by
  have opens : Ensures (k.sys (.socket addr.family addr.socktype addr.protocol)) Idle
      (fun opened trace => if opened.value < 0 then Idle trace else Trying opened.value [] trace) Idle := by
    intro trace idle
    show if _ then _ else _
    split
    next failed => exact held_neither idle (if_pos failed)
    next opened => exact ⟨[], ⟨held_takes idle (if_neg opened), ⟨trace, _, rfl, if_neg opened⟩, nofun⟩, nofun⟩
  refine opens.bind fun opened => ?_
  by_cases failed : opened.value < 0
  · simp only [if_pos failed]
    exact .pure fun _ idle => idle
  simp only [if_neg failed]
  refine setNonblocking_ensures.bind fun flags => ?_
  rintro trace ⟨known, trying⟩
  cases flags with
  | none => exact giveUp_ensures trace trying
  | some flags => exact connectNonblocking_ensures trace trying

/-- One address after the other: each failure leaves nothing open. -/
theorem tryAddresses_ensures {host : Bytes} {port : UInt16} {timeout : Int} (addrs : List ResolvedAddr) :
    Ensures (tryAddresses k host port timeout addrs) Idle (fun owner => Found (some owner)) Idle := by
  induction addrs with
  | nil => exact .fail fun _ idle => idle
  | cons addr addrs ih =>
    refine tryAddress_ensures.bind fun found => ?_
    cases found with
    | none => exact ih
    | some owner => exact .pure fun _ found => found

theorem connectWithTimeout_ensures {host : Bytes} {port : UInt16} {timeout : Int} {resolver : HostResolver} :
    Ensures (connectWithTimeout k host port timeout resolver) Idle (fun owner => Found (some owner)) Idle := by
  unfold connectWithTimeout
  cases resolver host port with
  | error e => exact fun _ idle => idle
  | ok addrs => exact tryAddresses_ensures addrs

end Descriptors

def owned : Result Socket → List Int32
  | .ok owner => [owner.fd]
  | .error _ => []

/-- A call that ended like this has given back all descriptors but the one it returns. -/
structure NoLeak (outcome : Result Socket) (trace : Trace) : Prop where
  /-- Every `close` is of an open descriptor. -/
  ledger : held Called.use trace = some (owned outcome)
  closed_once : ∀ fd, taken Called.use fd trace = given Called.use fd trace + (owned outcome).count fd
  succeeded : ∀ owner, outcome = .ok owner → 0 ≤ owner.fd ∧
    ∃ after, Obtained owner.fd after trace ∧ ConnectSucceeded owner.fd after

/-- Whatever the kernel answers, for every list of addresses. -/
theorem connectWithTimeout_never_leaks (k : Kernel) (host : Bytes) (port : UInt16) (timeout : Int)
    (resolver : HostResolver) :
    NoLeak ((connectWithTimeout k host port timeout resolver).run []).1
      ((connectWithTimeout k host port timeout resolver).run []).2 := by
  have ensures : Fallible.Ensures (connectWithTimeout k host port timeout resolver) Idle
    (fun owner => Found (some owner)) Idle := connectWithTimeout_ensures
  have done := ensures [] rfl
  rcases run : (connectWithTimeout k host port timeout resolver).run [] with ⟨e | owner, trace⟩ <;> rw [run] at done
  · exact ⟨done, taken_eq_given done, nofun⟩
  · obtain ⟨after, obtained, succeeded⟩ := done
    refine ⟨obtained.alone, taken_eq_given obtained.alone, ?_⟩
    rintro _ ⟨⟩
    exact ⟨obtained.valid, after, obtained, succeeded⟩

end RmqStream
