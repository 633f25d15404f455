import RmqStream.Frame
import RmqStream.Socket
import RmqStream.Library.Transition

/-! The correlation table: `Dispatcher` of `src/dispatcher.cpp` together with the
counter `next_app_cid_` that feeds it.

Every operation of the source that takes entries out of the map does so under the
lock and completes their promises afterwards, one at a time. An entry is therefore
in the map, in the hands of the thread that removed it, or settled. `ticket` is not
in the source: it numbers the allocations and remembers which operation made them. -/

set_option autoImplicit false

namespace RmqStream
open Library

/-- The map key, the deadline, and the operation whose future waits for the promise. -/
structure PendingEntry where
  owner : Nat
  correlationId : UInt32
  deadline : Int
  deriving DecidableEq, Repr

/-- Why a promise was set. Inbound frames are numbered in the order they were read. -/
inductive Cause where
  | response (index : Nat) (frame : IncomingFrame)
  | expired (now : Int)
  | failed (error : StreamError)
  deriving DecidableEq, Repr

def requestTimedOut : StreamError := ⟨.requestTimeout, text "request timed out", none⟩

def Cause.result : Cause → Result IncomingFrame
  | .response _ frame => .ok frame
  | .expired _ => .error requestTimedOut
  | .failed error => .error error

def Cause.index : Cause → Option Nat
  | .response index _ => some index
  | _ => none

structure Settlement where
  entry : PendingEntry
  cause : Cause
  deriving DecidableEq, Repr

def Cause.Valid (entry : PendingEntry) : Cause → Prop
  | .response _ frame => Key.isResponse frame.key = true ∧ frame.correlationId = some entry.correlationId
  | .expired now => now ≥ entry.deadline
  | .failed _ => True

/-- The threads that take entries out of the map. -/
inductive Thread where
  | io | control
  deriving DecidableEq, Repr

inductive Ticket where
  | fresh
  | allocated (index : Nat)
  | registered (index : Nat)
  deriving DecidableEq, Repr

def Ticket.index : Ticket → Option Nat
  | .fresh => none
  | .allocated k => some k
  | .registered k => some k

/-- Ids start at 100 and wrap at 32 bits. -/
def appCid (index : Nat) : UInt32 := UInt32.ofNat (100 + index)

structure Dispatcher where
  nextAppCid : UInt32 := 100
  pending : List PendingEntry := []
  held : Thread → List PendingEntry := fun _ => []
  settled : List Settlement := []
  /-- Promises destroyed without a value. -/
  broken : List PendingEntry := []
  allocated : Nat := 0
  ticket : Nat → Ticket := fun _ => .fresh

namespace Dispatcher

/-- `next_app_cid_++` under `cid_mu_`. -/
def allocate (d : Dispatcher) (owner : Nat) : Dispatcher :=
  { d with
    nextAppCid := d.nextAppCid + 1
    allocated := d.allocated + 1
    ticket := Function.update d.ticket owner (.allocated d.allocated) }

def contains (d : Dispatcher) (cid : UInt32) : Bool := d.pending.any fun e => e.correlationId == cid

def redeem (d : Dispatcher) (owner : Nat) : Nat → Ticket :=
  match d.ticket owner with
  | .allocated k => Function.update d.ticket owner (.registered k)
  | _ => d.ticket

/-- `emplace` inserts nothing when the key is present; the entry is then destroyed. -/
def registerPending (d : Dispatcher) (e : PendingEntry) : Dispatcher :=
  if d.contains e.correlationId then { d with broken := e :: d.broken, ticket := d.redeem e.owner }
  else { d with pending := e :: d.pending, ticket := d.redeem e.owner }

def take (d : Dispatcher) (t : Thread) (wanted : PendingEntry → Bool) : Dispatcher :=
  { d with
    pending := d.pending.filter fun e => !wanted e
    held := Function.update d.held t (d.held t ++ d.pending.filter wanted) }

/-- The locked part of `dispatch`. Only a response with a correlation id looks at the map;
other frames are dropped, as the client registers no handler for them. -/
def dispatchTake (d : Dispatcher) (frame : IncomingFrame) : Dispatcher :=
  if Key.isResponse frame.key then
    match frame.correlationId with
    | none => d
    | some cid => d.take .io fun e => e.correlationId == cid
  else d

def failAllTake (d : Dispatcher) (t : Thread) : Dispatcher := d.take t fun _ => true

def reapTake (d : Dispatcher) (now : Int) : Dispatcher := d.take .io fun e => decide (now ≥ e.deadline)

/-- One `set_value` of an operation under way. The iteration order of the map is not
specified, so any of the entries in hand may be next. -/
def settle (d : Dispatcher) (t : Thread) (pick : Nat) (cause : Cause) : Option Dispatcher :=
  match (d.held t)[pick]? with
  | none => none
  | some e => some { d with
      held := Function.update d.held t ((d.held t).eraseIdx pick)
      settled := d.settled ++ [⟨e, cause⟩] }

def value (d : Dispatcher) (owner : Nat) : Option (Result IncomingFrame) :=
  (d.settled.find? fun x => x.entry.owner == owner).map fun x => x.cause.result

def isBroken (d : Dispatcher) (owner : Nat) : Bool := d.broken.any fun e => e.owner == owner

/-- The inbound frames that have set a promise, one entry for each promise set. -/
def used (d : Dispatcher) : List Nat := d.settled.filterMap fun x => x.cause.index

/-! ## The table is in order -/

/-- Every entry ever registered, wherever it is now. -/
def entries (d : Dispatcher) : List PendingEntry :=
  d.pending ++ (d.held .io ++ (d.held .control ++ (d.settled.map Settlement.entry ++ d.broken)))

theorem mem_entries_held {d : Dispatcher} {e : PendingEntry} (member : e ∈ d.held .io) : e ∈ d.entries :=
  List.mem_append_right _ (List.mem_append_left _ member)

theorem mem_entries_settled {d : Dispatcher} {x : Settlement} (member : x ∈ d.settled) : x.entry ∈ d.entries := by
  unfold entries
  simp only [List.mem_append, List.mem_map]
  exact .inr (.inr (.inr (.inl ⟨x, member, rfl⟩)))

/-- Ids follow the counter, every allocation belongs to one operation, and every
registered operation has exactly one entry, under its own id. -/
structure Sound (d : Dispatcher) : Prop where
  counter : d.nextAppCid = appCid d.allocated
  bounded : ∀ n k, (d.ticket n).index = some k → k < d.allocated
  distinct : ∀ n m k, (d.ticket n).index = some k → (d.ticket m).index = some k → n = m
  keys : (d.pending.map PendingEntry.correlationId).Nodup
  owned : ∀ e ∈ d.entries, ∃ k, d.ticket e.owner = .registered k ∧ e.correlationId = appCid k
  single : (d.entries.map PendingEntry.owner).Nodup
  present : ∀ n k, d.ticket n = .registered k → ∃ e ∈ d.entries, e.owner = n
  valid : ∀ x ∈ d.settled, x.cause.Valid x.entry
  intact : d.allocated ≤ 2 ^ 32 → d.broken = []

theorem sound_init : Sound {} where
  counter := rfl
  bounded := nofun
  distinct := nofun
  keys := List.nodup_nil
  owned := nofun
  single := List.nodup_nil
  present := nofun
  valid := nofun
  intact := fun _ => rfl

theorem appCid_succ (k : Nat) : appCid k + 1 = appCid (k + 1) := by
  simp [appCid, ← Nat.add_assoc, UInt32.ofNat_add]

/-- Below the wrap, ids name their allocation. -/
theorem appCid_injective {j k : Nat} (hj : j < 2 ^ 32) (hk : k < 2 ^ 32) (same : appCid j = appCid k) : j = k := by
  have values := congrArg UInt32.toNat same
  simp only [appCid, UInt32.toNat_ofNat'] at values
  omega

theorem Sound.allocate {d : Dispatcher} (sound : d.Sound) {n : Nat} (fresh : d.ticket n = .fresh) :
    (d.allocate n).Sound where
  counter := by rw [Dispatcher.allocate, sound.counter, appCid_succ]
  bounded := by
    intro m k index
    by_cases same : m = n
    · subst same
      simp only [Dispatcher.allocate, Function.update_self, Ticket.index, Option.some.injEq] at index ⊢
      omega
    · simp only [Dispatcher.allocate, Function.update_of_ne same] at index ⊢
      exact Nat.lt_succ_of_lt (sound.bounded m k index)
  distinct := by
    intro m m' k first second
    -- The new index is above every older one.
    by_cases same : m = n <;> by_cases same' : m' = n
    · rw [same, same']
    · subst same
      simp only [Dispatcher.allocate, Function.update_self, Function.update_of_ne same', Ticket.index,
        Option.some.injEq] at first second
      have := sound.bounded m' k second
      omega
    · subst same'
      simp only [Dispatcher.allocate, Function.update_self, Function.update_of_ne same, Ticket.index,
        Option.some.injEq] at first second
      have := sound.bounded m k first
      omega
    · simp only [Dispatcher.allocate, Function.update_of_ne same, Function.update_of_ne same'] at first second
      exact sound.distinct m m' k first second
  keys := sound.keys
  owned := by
    intro e member
    obtain ⟨k, registered, cid⟩ := sound.owned e member
    have other : e.owner ≠ n := by
      intro same
      rw [same, fresh] at registered
      simp at registered
    exact ⟨k, by simp only [Dispatcher.allocate, Function.update_of_ne other, registered], cid⟩
  single := sound.single
  present := by
    intro m k registered
    have other : m ≠ n := by
      rintro rfl
      simp [Dispatcher.allocate] at registered
    simp only [Dispatcher.allocate, Function.update_of_ne other] at registered
    exact sound.present m k registered
  valid := sound.valid
  intact := fun small => sound.intact (by simp only [Dispatcher.allocate] at small; omega)

theorem redeem_self {d : Dispatcher} {n k : Nat} (ticket : d.ticket n = .allocated k) :
    d.redeem n = Function.update d.ticket n (.registered k) := by
  simp only [redeem, ticket]

/-- Registering under a fresh id never meets it in the map, as long as ids do not wrap. -/
theorem Sound.not_contains {d : Dispatcher} (sound : d.Sound) {n k : Nat} (ticket : d.ticket n = .allocated k)
    (small : d.allocated ≤ 2 ^ 32) : d.contains (appCid k) = false := by
  rw [contains, List.any_eq_false]
  intro e member same
  obtain ⟨j, registered, cid⟩ := sound.owned e (List.mem_append_left _ member)
  rw [beq_iff_eq, cid] at same
  have hj := sound.bounded e.owner j (by rw [registered]; rfl)
  have hk := sound.bounded n k (by rw [ticket]; rfl)
  have index := appCid_injective (by omega) (by omega) same
  have owner : e.owner = n := sound.distinct _ _ j (by rw [registered]; rfl) (by rw [ticket, index]; rfl)
  rw [owner, ticket] at registered
  simp at registered

theorem entries_register (d : Dispatcher) (e : PendingEntry) :
    ((d.registerPending e).entries).Perm (e :: d.entries) := by
  unfold registerPending
  split
  · have moved : (d.pending ++ (d.held .io ++ (d.held .control ++
        (d.settled.map Settlement.entry ++ e :: d.broken)))).Perm (e :: d.entries) := by
      unfold entries
      simp only [← List.append_assoc]
      exact List.perm_middle
    exact moved
  · exact List.Perm.refl _

theorem ticket_register {d : Dispatcher} {e : PendingEntry} {k : Nat} (ticket : d.ticket e.owner = .allocated k) :
    (d.registerPending e).ticket = Function.update d.ticket e.owner (.registered k) := by
  unfold registerPending
  split <;> exact redeem_self ticket

@[simp] theorem held_register (d : Dispatcher) (e : PendingEntry) : (d.registerPending e).held = d.held := by
  unfold registerPending
  split <;> rfl

@[simp] theorem settled_register (d : Dispatcher) (e : PendingEntry) :
    (d.registerPending e).settled = d.settled := by
  unfold registerPending
  split <;> rfl

@[simp] theorem allocated_register (d : Dispatcher) (e : PendingEntry) :
    (d.registerPending e).allocated = d.allocated := by
  unfold registerPending
  split <;> rfl

theorem Sound.register {d : Dispatcher} (sound : d.Sound) {e : PendingEntry} {k : Nat}
    (ticket : d.ticket e.owner = .allocated k) (cid : e.correlationId = appCid k) :
    (d.registerPending e).Sound := by
  have perm := entries_register d e
  have tickets := ticket_register ticket
  have index : ∀ n, ((d.registerPending e).ticket n).index = (d.ticket n).index := by
    intro n
    by_cases same : n = e.owner
    · rw [tickets, same, Function.update_self, ticket]
      rfl
    · rw [tickets, Function.update_of_ne same]
  have allocated := allocated_register d e
  -- An entry of this owner would already have redeemed its ticket.
  have new : ∀ other ∈ d.entries, other.owner ≠ e.owner := by
    intro other member same
    obtain ⟨j, registered, _⟩ := sound.owned other member
    rw [same, ticket] at registered
    simp at registered
  constructor
  case counter =>
    rw [allocated, ← sound.counter]
    unfold registerPending
    split <;> rfl
  case bounded =>
    intro n j found
    rw [index] at found
    rw [allocated]
    exact sound.bounded n j found
  case distinct =>
    intro n m j first second
    rw [index] at first second
    exact sound.distinct n m j first second
  case keys =>
    unfold registerPending
    split
    · exact sound.keys
    next absent =>
      refine List.nodup_cons.mpr ⟨?_, sound.keys⟩
      intro member
      obtain ⟨other, inside, same⟩ := List.mem_map.mp member
      rw [Bool.not_eq_true, contains, List.any_eq_false] at absent
      exact absent other inside (beq_iff_eq.mpr same)
  case owned =>
    intro other member
    rw [perm.mem_iff, List.mem_cons] at member
    rcases member with rfl | member
    · exact ⟨k, by rw [tickets, Function.update_self], cid⟩
    · obtain ⟨j, registered, same⟩ := sound.owned other member
      exact ⟨j, by rw [tickets, Function.update_of_ne (new other member), registered], same⟩
  case single =>
    rw [(perm.map _).nodup_iff, List.map_cons, List.nodup_cons]
    refine ⟨?_, sound.single⟩
    intro member
    obtain ⟨other, inside, same⟩ := List.mem_map.mp member
    exact new other inside same
  case present =>
    intro n j registered
    by_cases same : n = e.owner
    · exact ⟨e, perm.mem_iff.mpr List.mem_cons_self, same.symm⟩
    · rw [tickets, Function.update_of_ne same] at registered
      obtain ⟨other, member, owner⟩ := sound.present n j registered
      exact ⟨other, perm.mem_iff.mpr (List.mem_cons_of_mem _ member), owner⟩
  case valid =>
    rw [settled_register]
    exact sound.valid
  case intact =>
    intro small
    rw [allocated] at small
    -- Below 2 ^ 32 allocations no id is used twice, so the key is free.
    have absent := sound.not_contains ticket small
    rw [← cid] at absent
    simp only [registerPending, absent, Bool.false_eq_true, ↓reduceIte]
    exact sound.intact small

theorem entries_take (d : Dispatcher) (t : Thread) (wanted : PendingEntry → Bool) :
    (d.take t wanted).entries.Perm d.entries := by
  refine List.perm_iff_count.mpr fun e => ?_
  have split := (List.filter_append_perm wanted d.pending).count_eq e
  rw [List.count_append] at split
  cases t with
  | io =>
    simp only [entries, Dispatcher.take, Function.update_self, ne_eq, reduceCtorEq, not_false_eq_true,
      Function.update_of_ne, List.count_append]
    omega
  | control =>
    simp only [entries, Dispatcher.take, Function.update_self, ne_eq, reduceCtorEq, not_false_eq_true,
      Function.update_of_ne, List.count_append]
    omega

theorem settle_eq {d d' : Dispatcher} {t : Thread} {pick : Nat} {cause : Cause}
    (run : d.settle t pick cause = some d') : ∃ e ∈ d.held t, (e :: d'.held t).Perm (d.held t) ∧
      d' = { d with
        held := Function.update d.held t ((d.held t).eraseIdx pick), settled := d.settled ++ [⟨e, cause⟩] } := by
  unfold settle at run
  split at run
  · simp at run
  next e found =>
    cases run
    obtain ⟨inside, rfl⟩ := List.getElem?_eq_some_iff.mp found
    refine ⟨_, List.getElem_mem inside, ?_, rfl⟩
    simp only [Function.update_self]
    exact List.getElem_cons_eraseIdx_perm inside

theorem settle_shorter {d d' : Dispatcher} {t : Thread} {pick : Nat} {cause : Cause}
    (run : d.settle t pick cause = some d') : (d'.held t).length < (d.held t).length := by
  obtain ⟨e, _, perm, _⟩ := settle_eq run
  rw [← perm.length_eq, List.length_cons]
  exact Nat.lt_succ_self _

theorem entries_settle {d d' : Dispatcher} {t : Thread} {pick : Nat} {cause : Cause}
    (run : d.settle t pick cause = some d') : d'.entries.Perm d.entries := by
  obtain ⟨e, _, perm, same⟩ := settle_eq run
  refine List.perm_iff_count.mpr fun other => ?_
  have split := perm.count_eq other
  rw [same] at split ⊢
  cases t with
  | io =>
    simp only [entries, Function.update_self, ne_eq, reduceCtorEq, not_false_eq_true, Function.update_of_ne,
      List.count_append, List.map_append, List.map_cons, List.map_nil, List.count_cons,
      List.count_nil] at split ⊢
    omega
  | control =>
    simp only [entries, Function.update_self, ne_eq, reduceCtorEq, not_false_eq_true, Function.update_of_ne,
      List.count_append, List.map_append, List.map_cons, List.map_nil, List.count_cons,
      List.count_nil] at split ⊢
    omega

theorem Sound.ofPerm {d d' : Dispatcher} (sound : d.Sound) (perm : d'.entries.Perm d.entries)
    (counter : d'.nextAppCid = d.nextAppCid) (allocated : d'.allocated = d.allocated)
    (ticket : d'.ticket = d.ticket) (keys : (d'.pending.map PendingEntry.correlationId).Nodup)
    (valid : ∀ x ∈ d'.settled, x.cause.Valid x.entry) (broken : d'.broken = d.broken) : d'.Sound where
  counter := by rw [counter, allocated, sound.counter]
  bounded := by rw [ticket, allocated]; exact sound.bounded
  distinct := by rw [ticket]; exact sound.distinct
  keys := keys
  owned := fun e member => by rw [ticket]; exact sound.owned e (perm.mem_iff.mp member)
  single := (perm.map _).nodup_iff.mpr sound.single
  present := by
    intro n k registered
    rw [ticket] at registered
    obtain ⟨e, member, owner⟩ := sound.present n k registered
    exact ⟨e, perm.mem_iff.mpr member, owner⟩
  valid := valid
  intact := by rw [allocated, broken]; exact sound.intact

theorem Sound.take {d : Dispatcher} (sound : d.Sound) (t : Thread) (wanted : PendingEntry → Bool) :
    (d.take t wanted).Sound :=
  sound.ofPerm (entries_take d t wanted) rfl rfl rfl
    (sound.keys.sublist (List.filter_sublist.map _)) sound.valid rfl

theorem Sound.settle {d d' : Dispatcher} (sound : d.Sound) {t : Thread} {pick : Nat} {cause : Cause}
    (run : d.settle t pick cause = some d') (valid : ∀ e ∈ d.held t, cause.Valid e) : d'.Sound := by
  have perm := entries_settle run
  obtain ⟨e, held, _, rfl⟩ := settle_eq run
  refine sound.ofPerm perm rfl rfl rfl sound.keys ?_ rfl
  intro x member
  rcases List.mem_append.mp member with old | new
  · exact sound.valid x old
  · obtain rfl := List.mem_singleton.mp new
    exact valid e held

theorem pending_register (d : Dispatcher) (e : PendingEntry) :
    (d.contains e.correlationId = true ∧ (d.registerPending e).pending = d.pending) ∨
      (d.contains e.correlationId = false ∧ (d.registerPending e).pending = e :: d.pending) := by
  unfold registerPending
  split
  next taken => exact .inl ⟨taken, rfl⟩
  next free => exact .inr ⟨Bool.eq_false_iff.mpr free, rfl⟩

theorem pending_reapTake (d : Dispatcher) (now : Int) :
    (d.reapTake now).pending = d.pending.filter fun e => now < e.deadline := by
  refine List.filter_congr fun e _ => ?_
  rw [← decide_not, decide_eq_decide]
  exact not_le

theorem pending_take_cid (d : Dispatcher) (t : Thread) (cid : UInt32) :
    (d.take t fun e => e.correlationId == cid).pending = d.pending.filter fun e => e.correlationId ≠ cid := by
  refine List.filter_congr fun e _ => ?_
  simp only [beq_eq_decide, ne_eq, decide_not]

theorem pending_failAllTake (d : Dispatcher) (t : Thread) : (d.failAllTake t).pending = [] := by
  simp [failAllTake, Dispatcher.take]

theorem pending_dispatchTake {d : Dispatcher} {frame : IncomingFrame} {e : PendingEntry}
    (member : e ∈ (d.dispatchTake frame).pending) : e ∈ d.pending := by
  unfold dispatchTake at member
  split at member
  · split at member
    · exact member
    · exact (List.mem_filter.mp member).1
  · exact member

@[simp] theorem settled_dispatchTake (d : Dispatcher) (frame : IncomingFrame) :
    (d.dispatchTake frame).settled = d.settled := by
  unfold dispatchTake
  split
  · split <;> rfl
  · rfl

theorem mem_register {d : Dispatcher} {e : PendingEntry} (new : PendingEntry) (member : e ∈ d.pending) :
    e ∈ (d.registerPending new).pending := by
  rcases pending_register d new with ⟨_, same⟩ | ⟨_, grown⟩
  · rwa [same]
  · rw [grown]
    exact List.mem_cons_of_mem _ member

theorem mem_take {d : Dispatcher} {e : PendingEntry} (t : Thread) (wanted : PendingEntry → Bool)
    (member : e ∈ d.pending) : wanted e = true ∧ e ∈ (d.take t wanted).held t ∨
      wanted e = false ∧ e ∈ (d.take t wanted).pending := by
  cases taken : wanted e with
  | false => exact .inr ⟨rfl, List.mem_filter.mpr ⟨member, by simp [taken]⟩⟩
  | true =>
    refine .inl ⟨rfl, ?_⟩
    simp only [Dispatcher.take, Function.update_self]
    exact List.mem_append_right _ (List.mem_filter.mpr ⟨member, taken⟩)

theorem mem_dispatchTake {d : Dispatcher} {e : PendingEntry} (frame : IncomingFrame) (member : e ∈ d.pending) :
    e ∈ (d.dispatchTake frame).pending ∨ e ∈ (d.dispatchTake frame).held .io := by
  unfold dispatchTake
  split
  · split
    · exact .inl member
    · exact (mem_take .io _ member).symm.imp And.right And.right
  · exact .inl member

theorem held_dispatchTake (d : Dispatcher) (frame : IncomingFrame) :
    (d.dispatchTake frame).held .control = d.held .control := by
  unfold dispatchTake
  split
  · split <;> rfl
  · rfl

theorem used_settle {d d' : Dispatcher} {t : Thread} {pick : Nat} {cause : Cause}
    (run : d.settle t pick cause = some d') : d'.used = d.used ++ cause.index.toList := by
  obtain ⟨e, _, _, rfl⟩ := settle_eq run
  simp only [used, List.filterMap_append]
  cases cause <;> rfl

theorem value_append {d d' : Dispatcher} {more : List Settlement} (grown : d'.settled = d.settled ++ more)
    {n : Nat} {result : Result IncomingFrame} (found : d.value n = some result) : d'.value n = some result := by
  obtain ⟨x, first, rfl⟩ := Option.map_eq_some_iff.mp found
  rw [value, grown, List.find?_append, first]
  rfl

theorem value_settled {d : Dispatcher} {n : Nat} {result : Result IncomingFrame} (found : d.value n = some result) :
    ∃ x ∈ d.settled, x.entry.owner = n ∧ x.cause.result = result := by
  obtain ⟨x, first, same⟩ := Option.map_eq_some_iff.mp found
  have owner := List.find?_some first
  exact ⟨x, List.mem_of_find?_eq_some first, by simpa using owner, same⟩

def Live (d : Dispatcher) (e : PendingEntry) : Prop :=
  e ∈ d.pending ∨ (∃ t, e ∈ d.held t) ∨ ∃ x ∈ d.settled, x.entry = e

theorem Live.mem_entries {d : Dispatcher} {e : PendingEntry} (live : d.Live e) : e ∈ d.entries := by
  unfold entries
  simp only [List.mem_append, List.mem_map]
  rcases live with waiting | ⟨t, held⟩ | settled
  · exact .inl waiting
  · cases t with
    | io => exact .inr (.inl held)
    | control => exact .inr (.inr (.inl held))
  · exact .inr (.inr (.inr (.inl settled)))

theorem Live.register {d : Dispatcher} {e : PendingEntry} (live : d.Live e) (new : PendingEntry) :
    (d.registerPending new).Live e := by
  rw [Live, held_register, settled_register]
  refine live.imp_left fun waiting => ?_
  rcases pending_register d new with ⟨_, same⟩ | ⟨_, grown⟩
  · rwa [same]
  · rw [grown]
    exact List.mem_cons_of_mem _ waiting

theorem Live.take {d : Dispatcher} {e : PendingEntry} (live : d.Live e) (t : Thread) (wanted : PendingEntry → Bool) :
    (d.take t wanted).Live e := by
  rcases live with waiting | ⟨other, held⟩ | settled
  · cases taken : wanted e with
    | false => exact .inl (List.mem_filter.mpr ⟨waiting, by simp [taken]⟩)
    | true =>
      refine .inr (.inl ⟨t, ?_⟩)
      simp only [Dispatcher.take, Function.update_self]
      exact List.mem_append_right _ (List.mem_filter.mpr ⟨waiting, taken⟩)
  · refine .inr (.inl ⟨other, ?_⟩)
    by_cases same : other = t
    · subst same
      simp only [Dispatcher.take, Function.update_self]
      exact List.mem_append_left _ held
    · simpa only [Dispatcher.take, Function.update_of_ne same] using held
  · exact .inr (.inr settled)

theorem Live.settle {d d' : Dispatcher} {e : PendingEntry} (live : d.Live e) {t : Thread} {pick : Nat} {cause : Cause}
    (run : d.settle t pick cause = some d') : d'.Live e := by
  obtain ⟨picked, _, perm, same⟩ := settle_eq run
  have settled : d'.settled = d.settled ++ [⟨picked, cause⟩] := by rw [same]
  rcases live with waiting | ⟨other, held⟩ | ⟨x, member, entry⟩
  · exact .inl (by rw [same]; exact waiting)
  · by_cases mine : other = t
    · -- It was picked, or it is still in the same hands.
      subst mine
      rcases List.mem_cons.mp (perm.mem_iff.mpr held) with rfl | still
      · exact .inr (.inr ⟨_, by rw [settled]; exact List.mem_append_right _ List.mem_cons_self, rfl⟩)
      · exact .inr (.inl ⟨_, still⟩)
    · refine .inr (.inl ⟨other, ?_⟩)
      rw [same]
      simpa only [Function.update_of_ne mine] using held
  · exact .inr (.inr ⟨x, by rw [settled]; exact List.mem_append_left _ member, entry⟩)

theorem Sound.matching_length {d : Dispatcher} (sound : d.Sound) (cid : UInt32) :
    (d.pending.filter fun e => e.correlationId == cid).length ≤ 1 := by
  have distinct := sound.keys.sublist
    ((List.filter_sublist (p := fun e => e.correlationId == cid) (l := d.pending)).map PendingEntry.correlationId)
  have equal : (d.pending.filter fun e => e.correlationId == cid).map PendingEntry.correlationId =
      List.replicate (d.pending.filter fun e => e.correlationId == cid).length cid := by
    refine List.eq_replicate_iff.mpr ⟨List.length_map _, ?_⟩
    intro other member
    obtain ⟨e, inside, rfl⟩ := List.mem_map.mp member
    exact beq_iff_eq.mp (List.mem_filter.mp inside).2
  rw [equal, List.nodup_replicate] at distinct
  exact distinct

theorem Sound.unset {d : Dispatcher} (sound : d.Sound) {e : PendingEntry} (member : e ∈ d.pending) :
    d.value e.owner = none ∧ d.isBroken e.owner = false := by
  have apart : ∀ other ∈ d.settled.map Settlement.entry ++ d.broken, e.owner ≠ other.owner := by
    intro other elsewhere
    have single := sound.single
    rw [entries, List.map_append, List.nodup_append] at single
    refine single.2.2 _ (List.mem_map_of_mem member) _ (List.mem_map_of_mem ?_)
    exact List.mem_append_right _ (List.mem_append_right _ elsewhere)
  constructor
  · rw [Option.eq_none_iff_forall_not_mem]
    intro result found
    obtain ⟨x, inside, owner, _⟩ := value_settled found
    exact apart x.entry (List.mem_append_left _ (List.mem_map_of_mem inside)) owner.symm
  · rw [isBroken, List.any_eq_false]
    intro other inside same
    exact apart other (List.mem_append_right _ inside) (beq_iff_eq.mp same).symm

theorem Sound.settled_gone {d : Dispatcher} (sound : d.Sound) {x : Settlement} (settled : x ∈ d.settled) :
    x.entry ∉ d.pending ∧ ∀ t, x.entry ∉ d.held t := by
  have single := sound.single
  rw [entries, ← List.append_assoc, ← List.append_assoc, List.map_append, List.nodup_append] at single
  have gone : x.entry ∉ d.pending ++ d.held .io ++ d.held .control := fun member =>
    single.2.2 _ (List.mem_map_of_mem member) _
      (List.mem_map_of_mem (List.mem_append_left _ (List.mem_map_of_mem settled))) rfl
  simp only [List.mem_append, not_or] at gone
  refine ⟨gone.1.1, fun t => ?_⟩
  cases t with
  | io => exact gone.1.2
  | control => exact gone.2

theorem Sound.unresolved {d : Dispatcher} (sound : d.Sound) {e : PendingEntry} (member : e ∈ d.pending ++ d.held .io)
    {x : Settlement} (settled : x ∈ d.settled) : x.entry ≠ e := by
  rintro rfl
  obtain ⟨pending, held⟩ := sound.settled_gone settled
  exact (List.mem_append.mp member).elim pending (held .io)

theorem Sound.settled_once {d : Dispatcher} (sound : d.Sound) :
    (d.settled.map fun x => x.entry.owner).Nodup := by
  have part : (d.settled.map Settlement.entry).Sublist d.entries :=
    ((List.sublist_append_left _ _).trans (List.sublist_append_right _ _)).trans
      ((List.sublist_append_right _ _).trans (List.sublist_append_right _ _))
  have owners := sound.single.sublist (part.map PendingEntry.owner)
  rwa [List.map_map] at owners

end Dispatcher
end RmqStream
