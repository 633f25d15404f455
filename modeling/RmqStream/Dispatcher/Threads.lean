import RmqStream.Dispatcher
import RmqStream.Library.Linear

/-! `Dispatcher` of `src/dispatcher.cpp` in the hands of any number of threads, with all of
its operations and what they return.

An operation works on the map and the counter in one critical section, or with one atomic
access, and fulfils promises afterwards, one at a time and in any order. The handlers of
one-way frames are registered before. -/

set_option autoImplicit false

namespace RmqStream
open Library

structure Handlers where
  heartbeat : Bool := false
  metadataUpdate : Bool := false

/-- What becomes of a promise: it is fulfilled, or destroyed before. -/
inductive Fate where
  | set (result : Result IncomingFrame)
  | broken
  deriving DecidableEq, Repr

/-- The owner of an entry is its promise. -/
structure RequestTable where
  nextId : UInt32 := 1
  pending : List PendingEntry := []
  /-- The number of promises made. -/
  created : Nat := 0
  fates : Nat → Option Fate := fun _ => none
  /-- The one-way frames that handlers were called with. -/
  handled : List IncomingFrame := []

inductive TableOp where
  | nextCorrelationId
  | registerPending (correlationId : UInt32) (deadline : Int)
  | dispatch (frame : IncomingFrame)
  | failAllPending (error : StreamError)
  | reapExpired (now : Int)
  deriving DecidableEq, Repr

inductive TableAnswer where
  | correlationId (id : UInt32)
  | future (promise : Nat)
  | accepted (yes : Bool)
  | nothing
  | reaped (count : Nat)
  deriving DecidableEq, Repr

abbrev Due := Nat × Fate

/-- Critical section of an operation: its answer, the table it leaves, and the promises that
it still has to deal with. -/
structure Section where
  answer : TableAnswer
  table : RequestTable
  due : List Due := []

namespace RequestTable

def registerPending (t : RequestTable) (correlationId : UInt32) (deadline : Int) : Section :=
  if t.pending.any fun e => e.correlationId == correlationId then
    ⟨.future t.created, { t with created := t.created + 1 }, [(t.created, .broken)]⟩
  else
    ⟨.future t.created,
      { t with created := t.created + 1, pending := ⟨t.created, correlationId, deadline⟩ :: t.pending }, []⟩

/-- A response goes to the entry with its correlation id, a one-way frame to its handler. -/
def dispatch (handlers : Handlers) (t : RequestTable) (frame : IncomingFrame) : Section :=
  if Key.isResponse frame.key then
    match frame.correlationId with
    | none => ⟨.accepted false, t, []⟩
    | some cid =>
      match t.pending.find? fun e => e.correlationId == cid with
      | none => ⟨.accepted false, t, []⟩
      | some e =>
        ⟨.accepted true, { t with pending := t.pending.eraseP fun e => e.correlationId == cid },
          [(e.owner, .set (.ok frame))]⟩
  else if Key.requestOf frame.key = Key.heartbeat ∧ handlers.heartbeat ∨
      Key.requestOf frame.key = Key.metadataUpdate ∧ handlers.metadataUpdate then
    ⟨.accepted true, { t with handled := t.handled ++ [frame] }, []⟩
  else ⟨.accepted false, t, []⟩

def failAllPending (t : RequestTable) (error : StreamError) : Section :=
  ⟨.nothing, { t with pending := [] }, t.pending.map fun e => (e.owner, .set (.error error))⟩

def reapExpired (t : RequestTable) (now : Int) : Section :=
  ⟨.reaped (t.pending.filter fun e => now ≥ e.deadline).length,
    { t with pending := t.pending.filter fun e => !decide (now ≥ e.deadline) },
    (t.pending.filter fun e => now ≥ e.deadline).map fun e => (e.owner, .set (.error requestTimedOut))⟩

def perform (handlers : Handlers) (t : RequestTable) : TableOp → Section
  | .nextCorrelationId => ⟨.correlationId t.nextId, { t with nextId := t.nextId + 1 }, []⟩
  | .registerPending correlationId deadline => t.registerPending correlationId deadline
  | .dispatch frame => t.dispatch handlers frame
  | .failAllPending error => t.failAllPending error
  | .reapExpired now => t.reapExpired now

end RequestTable

def settleAll (fates : Nat → Option Fate) (due : List Due) : Nat → Option Fate :=
  due.foldl (fun fates x => Function.update fates x.1 (some x.2)) fates

/-- The dispatcher for one thread: an operation is over with all its promises. -/
def requestTable (handlers : Handlers) : Sequential RequestTable TableOp TableAnswer where
  start := {}
  apply t op :=
    let done := t.perform handlers op
    (done.answer, { done.table with fates := settleAll done.table.fates done.due })

structure SharedDispatcher where
  table : RequestTable := {}
  threads : Nat → Phase TableOp TableAnswer := fun _ => .outside
  /-- The promises that the threads have in hand. -/
  due : List (Nat × Due) := []
  -- Only recorded.
  history : List (Moment TableOp TableAnswer) := []

inductive DispatcherStep where
  | call (n : Nat) (op : TableOp)
  | critical (n : Nat)
  | fulfil (pick : Nat)
  | ret (n : Nat)
  deriving DecidableEq, Repr

namespace SharedDispatcher

def step (handlers : Handlers) (s : SharedDispatcher) : DispatcherStep → Option SharedDispatcher
  | .call n op =>
    match s.threads n with
    | .outside => some { s with
        threads := Function.update s.threads n (.before op), history := s.history ++ [.called n op] }
    | _ => none
  | .critical n =>
    match s.threads n with
    | .before op =>
      let done := s.table.perform handlers op
      some { s with
        table := done.table
        threads := Function.update s.threads n (.behind op done.answer)
        due := s.due ++ done.due.map fun x => (n, x)
        history := s.history ++ [.effected n op done.answer] }
    | _ => none
  | .fulfil pick =>
    match s.due[pick]? with
    | some (_, promise, fate) => some { s with
        table := { s.table with fates := Function.update s.table.fates promise (some fate) }
        due := s.due.eraseIdx pick }
    | none => none
  -- An operation returns when it has nothing left in hand.
  | .ret n =>
    match s.threads n with
    | .behind _ answer =>
      if ∀ x ∈ s.due, x.1 ≠ n then some { s with
        threads := Function.update s.threads n .outside, history := s.history ++ [.returned n answer] }
      else none
    | _ => none

/-- The table as it will be once the promises in hand are settled. -/
def atomic (s : SharedDispatcher) : RequestTable :=
  { s.table with fates := settleAll s.table.fates (s.due.map Prod.snd) }

def undecided (s : SharedDispatcher) : List Nat :=
  s.table.pending.map PendingEntry.owner ++ s.due.map fun x => x.2.1

end SharedDispatcher

def sharedDispatcher (handlers : Handlers) : Machine SharedDispatcher DispatcherStep where
  init s := s = {}
  step := SharedDispatcher.step handlers

/-! ## One operation -/

section Settle
variable {fates : Nat → Option Fate} {due : List Due} {promise : Nat} {fate : Fate}

theorem settleAll_append (fates : Nat → Option Fate) (first second : List Due) :
    settleAll fates (first ++ second) = settleAll (settleAll fates first) second := List.foldl_append

theorem settleAll_other (outside : promise ∉ due.map Prod.fst) : settleAll fates due promise = fates promise := by
  induction due generalizing fates with
  | nil => rfl
  | cons x due ih =>
    rw [List.map_cons, List.mem_cons, not_or] at outside
    show settleAll (Function.update fates x.1 (some x.2)) due promise = _
    rw [ih outside.2, Function.update_of_ne outside.1]

theorem settleAll_due (single : (due.map Prod.fst).Nodup) (member : (promise, fate) ∈ due) :
    settleAll fates due promise = some fate := by
  induction due generalizing fates with
  | nil => cases member
  | cons x due ih =>
    rw [List.map_cons, List.nodup_cons] at single
    show settleAll (Function.update fates x.1 (some x.2)) due promise = _
    rcases List.mem_cons.mp member with rfl | later
    · rw [settleAll_other single.1, Function.update_self]
    · exact ih single.2 later

/-- The order is of no account. -/
theorem settleAll_pick {pick : Nat} (single : (due.map Prod.fst).Nodup) (found : due[pick]? = some (promise, fate)) :
    settleAll (Function.update fates promise (some fate)) (due.eraseIdx pick) = settleAll fates due := by
  obtain ⟨inside, here⟩ := List.getElem?_eq_some_iff.mp found
  have perm : ((promise, fate) :: due.eraseIdx pick).Perm due := here ▸ List.getElem_cons_eraseIdx_perm inside
  have split : (promise :: (due.eraseIdx pick).map Prod.fst).Nodup := (perm.map Prod.fst).nodup_iff.mpr single
  funext other
  by_cases same : other = promise
  · subst same
    rw [settleAll_other (List.nodup_cons.mp split).1, Function.update_self,
      settleAll_due single (perm.mem_iff.mp List.mem_cons_self)]
  by_cases waiting : other ∈ (due.eraseIdx pick).map Prod.fst
  · obtain ⟨⟨_, later⟩, member, rfl⟩ := List.mem_map.mp waiting
    rw [settleAll_due (List.nodup_cons.mp split).2 member,
      settleAll_due single (perm.mem_iff.mp (List.mem_cons_of_mem _ member))]
  · have outside : other ∉ due.map Prod.fst := fun member =>
      ((perm.map Prod.fst).mem_iff.mpr member |> List.mem_cons.mp).elim same waiting
    rw [settleAll_other waiting, settleAll_other outside, Function.update_of_ne same]

end Settle

namespace RequestTable
variable {handlers : Handlers} {t : RequestTable} {op : TableOp}

theorem perform_fates (handlers : Handlers) (t : RequestTable) (op : TableOp) (fates : Nat → Option Fate) :
    { t with fates := fates }.perform handlers op =
      { t.perform handlers op with table := { (t.perform handlers op).table with fates := fates } } := by
  cases op with
  | nextCorrelationId | failAllPending | reapExpired => rfl
  | registerPending correlationId deadline =>
    simp only [perform, registerPending]
    split <;> rfl
  | dispatch frame =>
    simp only [perform, dispatch]
    split
    · split
      · rfl
      · split <;> rfl
    · split <;> rfl

theorem perform_keeps_fates : (t.perform handlers op).table.fates = t.fates := by
  have same := perform_fates handlers t op t.fates
  exact congrArg (fun done => done.table.fates) same

theorem dispatch_cases (handlers : Handlers) (t : RequestTable) (frame : IncomingFrame) :
    (∃ yes handled, t.dispatch handlers frame = ⟨.accepted yes, { t with handled := handled }, []⟩) ∨
    ∃ e, Key.isResponse frame.key = true ∧ frame.correlationId = some e.correlationId ∧
      t.pending.find? (fun other => other.correlationId == e.correlationId) = some e ∧
      t.dispatch handlers frame = ⟨.accepted true,
        { t with pending := t.pending.eraseP fun other => other.correlationId == e.correlationId },
        [(e.owner, .set (.ok frame))]⟩ := by
  unfold dispatch
  split
  next response =>
    split
    · exact .inl ⟨_, _, rfl⟩
    next cid carries =>
      split
      · exact .inl ⟨_, _, rfl⟩
      next e found =>
        have wanted := List.find?_some found
        obtain rfl : e.correlationId = cid := beq_iff_eq.mp wanted
        exact .inr ⟨e, response, carries, found, rfl⟩
  · split <;> exact .inl ⟨_, _, rfl⟩

theorem perm_eraseP {α : Type} {wanted : α → Bool} {all : List α} {x : α} (found : all.find? wanted = some x) :
    (all.eraseP wanted ++ [x]).Perm all := by
  obtain ⟨right, front, back, rfl, others⟩ := List.find?_eq_some_iff_append.mp found
  have passed : ∀ y ∈ front, ¬ wanted y = true := fun y member => by simpa using others y member
  rw [List.eraseP_append_right _ passed, List.eraseP_cons_of_pos right, List.append_assoc]
  exact (List.perm_append_singleton x back).append_left front

/-- Promises leave the map into the hands of the thread, and only `register_pending` makes
one. -/
theorem perform_promises (handlers : Handlers) (t : RequestTable) (op : TableOp) :
    ∃ new : List Nat, (∀ p ∈ new, p = t.created ∧ t.created < (t.perform handlers op).table.created) ∧ new.Nodup ∧
      t.created ≤ (t.perform handlers op).table.created ∧
      ((t.perform handlers op).table.pending.map PendingEntry.owner ++ (t.perform handlers op).due.map Prod.fst).Perm
        (new ++ t.pending.map PendingEntry.owner) := by
  cases op with
  | nextCorrelationId => exact ⟨[], by simp, List.nodup_nil, le_rfl, by simp [perform]⟩
  | registerPending correlationId deadline =>
    refine ⟨[t.created], ?_, List.nodup_singleton _, ?_, ?_⟩ <;> simp only [perform, registerPending] <;> split
    · simp
    · simp
    · exact Nat.le_succ _
    · exact Nat.le_succ _
    · exact List.perm_append_comm
    · simp
  | failAllPending error =>
    refine ⟨[], by simp, List.nodup_nil, le_rfl, ?_⟩
    simp [perform, failAllPending, Function.comp_def]
  | reapExpired now =>
    refine ⟨[], by simp, List.nodup_nil, le_rfl, ?_⟩
    simp only [perform, reapExpired, List.map_map, Function.comp_def, List.nil_append]
    rw [← List.map_append]
    exact (List.perm_append_comm.trans (List.filter_append_perm _ _)).map _
  | dispatch frame =>
    refine ⟨[], by simp, List.nodup_nil, ?_⟩
    rw [perform, List.nil_append]
    rcases dispatch_cases handlers t frame with ⟨yes, handled, done⟩ | ⟨e, _, _, found, done⟩
    · simp [done]
    · rw [done]
      exact ⟨le_rfl, by simpa using (perm_eraseP found).map PendingEntry.owner⟩

end RequestTable

/-! ## The steps of the threads -/

namespace SharedDispatcher
variable {handlers : Handlers} {s s' : SharedDispatcher}

inductive Move (handlers : Handlers) (s : SharedDispatcher) : SharedDispatcher → Prop where
  | call {n : Nat} (op : TableOp) (outside : s.threads n = .outside) : Move handlers s { s with
      threads := Function.update s.threads n (.before op), history := s.history ++ [.called n op] }
  | critical {n : Nat} {op : TableOp} (before : s.threads n = .before op) : Move handlers s { s with
      table := (s.table.perform handlers op).table
      threads := Function.update s.threads n (.behind op (s.table.perform handlers op).answer)
      due := s.due ++ (s.table.perform handlers op).due.map fun x => (n, x)
      history := s.history ++ [.effected n op (s.table.perform handlers op).answer] }
  | fulfil {n pick promise : Nat} {fate : Fate} (found : s.due[pick]? = some (n, promise, fate)) :
    Move handlers s { s with
      table := { s.table with fates := Function.update s.table.fates promise (some fate) }
      due := s.due.eraseIdx pick }
  | ret {n : Nat} {op : TableOp} {answer : TableAnswer} (behind : s.threads n = .behind op answer)
      (done : ∀ x ∈ s.due, x.1 ≠ n) : Move handlers s { s with
        threads := Function.update s.threads n .outside, history := s.history ++ [.returned n answer] }

theorem step_move {a : DispatcherStep} (run : step handlers s a = some s') : Move handlers s s' := by
  cases a with
  | call n op =>
    simp only [step] at run
    split at run <;> cases run
    next outside => exact .call op outside
  | critical n =>
    simp only [step] at run
    split at run <;> cases run
    next before => exact .critical before
  | fulfil pick =>
    simp only [step] at run
    split at run <;> cases run
    next found => exact .fulfil found
  | ret n =>
    simp only [step] at run
    split at run
    next behind =>
      obtain ⟨done, rfl⟩ := Option.ite_some_none_eq_some.mp run
      exact .ret behind done
    · cases run

/-- Every promise is at one place, and the history linearizes. -/
structure InTurns (handlers : Handlers) (s : SharedDispatcher) : Prop where
  single : s.undecided.Nodup
  unset : ∀ p ∈ s.undecided, p < s.table.created ∧ s.table.fates p = none
  unmade : ∀ p, s.table.created ≤ p → s.table.fates p = none
  own : ∀ x ∈ s.due, ∃ op answer, s.threads x.1 = .behind op answer
  linear : (requestTable handlers).Linearizes s.history s.threads s.atomic

theorem critical_inTurns {n : Nat} {op : TableOp} (kept : s.InTurns handlers) (before : s.threads n = .before op) :
    InTurns handlers { s with
      table := (s.table.perform handlers op).table
      threads := Function.update s.threads n (.behind op (s.table.perform handlers op).answer)
      due := s.due ++ (s.table.perform handlers op).due.map fun x => (n, x)
      history := s.history ++ [.effected n op (s.table.perform handlers op).answer] } := by
  obtain ⟨new, made, distinct, grown, moved⟩ := RequestTable.perform_promises handlers s.table op
  have fates : (s.table.perform handlers op).table.fates = s.table.fates := RequestTable.perform_keeps_fates
  have places : (undecided { s with
      table := (s.table.perform handlers op).table
      due := s.due ++ (s.table.perform handlers op).due.map fun x => (n, x) }).Perm (new ++ s.undecided) := by
    have moved := moved.append_right (s.due.map fun x => x.2.1)
    simp only [undecided, List.map_append, List.map_map, Function.comp_def, List.append_assoc] at moved ⊢
    exact (List.Perm.append_left _ List.perm_append_comm).trans moved
  constructor
  case single =>
    refine places.nodup_iff.mpr (List.nodup_append.mpr ⟨distinct, kept.single, ?_⟩)
    rintro p fresh q waiting rfl
    exact absurd (kept.unset p waiting).1 (by rw [(made p fresh).1]; exact lt_irrefl _)
  case unset =>
    intro p member
    rw [fates]
    rcases List.mem_append.mp (places.mem_iff.mp member) with fresh | waiting
    · obtain ⟨rfl, below⟩ := made p fresh
      exact ⟨below, kept.unmade _ le_rfl⟩
    · obtain ⟨below, unset⟩ := kept.unset p waiting
      exact ⟨below.trans_le grown, unset⟩
  case unmade =>
    intro p above
    rw [fates]
    exact kept.unmade p (grown.trans above)
  case own =>
    intro x member
    rcases List.mem_append.mp member with old | new
    · obtain ⟨op', answer, behind⟩ := kept.own x old
      have other : x.1 ≠ n := by
        rintro rfl
        rw [before] at behind
        cases behind
      exact ⟨op', answer, (Function.update_of_ne other _ _).trans behind⟩
    · obtain ⟨y, _, rfl⟩ := List.mem_map.mp new
      exact ⟨op, _, Function.update_self _ _ _⟩
  case linear =>
    have linear := kept.linear.effected before
    have performed := RequestTable.perform_fates handlers s.table op (settleAll s.table.fates (s.due.map Prod.snd))
    have answers : ((requestTable handlers).apply s.atomic op).1 = (s.table.perform handlers op).answer := by
      show (s.atomic.perform handlers op).answer = _
      rw [atomic, performed]
    have leaves : ((requestTable handlers).apply s.atomic op).2 = atomic { s with
        table := (s.table.perform handlers op).table
        due := s.due ++ (s.table.perform handlers op).due.map fun x => (n, x) } := by
      show { (s.atomic.perform handlers op).table with
        fates := settleAll (s.atomic.perform handlers op).table.fates (s.atomic.perform handlers op).due } = _
      rw [atomic, performed, atomic]
      simp only [List.map_append, List.map_map, Function.comp_def, List.map_id', settleAll_append, fates]
    rw [answers, leaves] at linear
    exact linear

theorem step_inTurns {a : DispatcherStep} (kept : s.InTurns handlers) (run : step handlers s a = some s') :
    s'.InTurns handlers := by
  cases step_move run with
  | critical before => exact critical_inTurns kept before
  | @call n op outside =>
    refine ⟨kept.single, kept.unset, kept.unmade, fun x member => ?_, kept.linear.called outside op⟩
    obtain ⟨op', answer, behind⟩ := kept.own x member
    have other : x.1 ≠ n := by
      rintro rfl
      rw [outside] at behind
      cases behind
    exact ⟨op', answer, (Function.update_of_ne other _ _).trans behind⟩
  | @ret n op answer behind done =>
    refine ⟨kept.single, kept.unset, kept.unmade, fun x member => ?_, kept.linear.returned behind⟩
    obtain ⟨op', answer', still⟩ := kept.own x member
    exact ⟨op', answer', (Function.update_of_ne (done x member) _ _).trans still⟩
  | @fulfil n pick promise fate found =>
    obtain ⟨inside, here⟩ := List.getElem?_eq_some_iff.mp found
    have perm : ((n, promise, fate) :: s.due.eraseIdx pick).Perm s.due := here ▸ List.getElem_cons_eraseIdx_perm inside
    have places : (promise :: undecided { s with due := s.due.eraseIdx pick }).Perm s.undecided := by
      refine List.perm_middle.symm.trans ?_
      exact List.Perm.append_left _ (perm.map fun x : Nat × Due => x.2.1)
    have single := places.nodup_iff.mpr kept.single
    have mine := kept.unset promise (places.mem_iff.mp List.mem_cons_self)
    constructor
    case single => exact (List.nodup_cons.mp single).2
    case unset =>
      intro p member
      obtain ⟨below, unset⟩ := kept.unset p (places.mem_iff.mp (List.mem_cons_of_mem _ member))
      have other : p ≠ promise := by
        rintro rfl
        exact (List.nodup_cons.mp single).1 member
      exact ⟨below, (Function.update_of_ne other _ _).trans unset⟩
    case unmade =>
      intro p above
      have other : p ≠ promise := (mine.1.trans_le above).ne'
      exact (Function.update_of_ne other _ _).trans (kept.unmade p above)
    case own => exact fun x member => kept.own x (perm.mem_iff.mp (List.mem_cons_of_mem _ member))
    case linear =>
      have distinct : ((s.due.map Prod.snd).map Prod.fst).Nodup := by
        rw [List.map_map]
        exact (List.nodup_append.mp kept.single).2.1
      have same : atomic { s with
          table := { s.table with fates := Function.update s.table.fates promise (some fate) }
          due := s.due.eraseIdx pick } = s.atomic := by
        have picked : (s.due.map Prod.snd)[pick]? = some (promise, fate) := by rw [List.getElem?_map, found]; rfl
        rw [atomic, atomic, ← settleAll_pick distinct picked, List.eraseIdx_map]
      exact same ▸ kept.linear

end SharedDispatcher

/-! ## What the answers and the fates mean -/

def givenIds (log : List (TableOp × TableAnswer)) : List UInt32 := log.filterMap fun x =>
  match x.2 with
  | .correlationId id => some id
  | _ => none

def Fate.Explained (log : List (TableOp × TableAnswer)) (correlationId : UInt32) (deadline : Int) : Fate → Prop
  | .set (.ok frame) => (.dispatch frame, .accepted true) ∈ log ∧ Key.isResponse frame.key = true ∧
      frame.correlationId = some correlationId
  | .set (.error e) => (.failAllPending e, .nothing) ∈ log ∨
      e = requestTimedOut ∧ ∃ now count, (.reapExpired now, .reaped count) ∈ log ∧ now ≥ deadline
  | .broken => True

namespace RequestTable
variable {handlers : Handlers} {t : RequestTable} {op : TableOp} {log : List (TableOp × TableAnswer)}

structure Explains (log : List (TableOp × TableAnswer)) (t : RequestTable) : Prop where
  registered : ∀ e ∈ t.pending, (.registerPending e.correlationId e.deadline, .future e.owner) ∈ log
  fates : ∀ p fate, t.fates p = some fate → ∃ correlationId deadline,
    (.registerPending correlationId deadline, .future p) ∈ log ∧ fate.Explained log correlationId deadline

theorem explained_mono {correlationId : UInt32} {deadline : Int} {fate : Fate} {more : List (TableOp × TableAnswer)}
    (explained : fate.Explained log correlationId deadline) (longer : ∀ x ∈ log, x ∈ more) :
    fate.Explained more correlationId deadline := by
  cases fate with
  | broken => trivial
  | set result =>
    cases result with
    | ok frame => exact ⟨longer _ explained.1, explained.2⟩
    | error e =>
      refine explained.imp (longer _) ?_
      rintro ⟨timedOut, now, count, reaped, late⟩
      exact ⟨timedOut, now, count, longer _ reaped, late⟩

/-- Each promise that an operation takes in hand was waiting in the map, or has just been
registered in vain. -/
theorem perform_due {p : Nat} {fate : Fate} (member : (p, fate) ∈ (t.perform handlers op).due) :
    (∃ e ∈ t.pending, e.owner = p ∧
      fate.Explained [(op, (t.perform handlers op).answer)] e.correlationId e.deadline) ∨
    ∃ correlationId deadline, op = .registerPending correlationId deadline ∧
      (t.perform handlers op).answer = .future p ∧ fate = .broken := by
  cases op with
  | nextCorrelationId => cases member
  | registerPending correlationId deadline =>
    right
    simp only [perform, registerPending] at member ⊢
    split at member
    · cases List.mem_singleton.mp member
      refine ⟨correlationId, deadline, rfl, ?_, rfl⟩
      split <;> rfl
    · cases member
  | failAllPending error =>
    obtain ⟨e, waiting, same⟩ := List.mem_map.mp member
    cases same
    exact .inl ⟨e, waiting, rfl, .inl (List.mem_singleton_self _)⟩
  | reapExpired now =>
    obtain ⟨e, expired, same⟩ := List.mem_map.mp member
    cases same
    obtain ⟨waiting, late⟩ := List.mem_filter.mp expired
    exact .inl ⟨e, waiting, rfl, .inr ⟨rfl, now, _, List.mem_singleton_self _, of_decide_eq_true late⟩⟩
  | dispatch frame =>
    left
    change (p, fate) ∈ (t.dispatch handlers frame).due at member
    rcases dispatch_cases handlers t frame with ⟨yes, handled, done⟩ | ⟨e, response, carries, found, done⟩
    · rw [done] at member
      cases member
    · rw [done] at member
      cases List.mem_singleton.mp member
      refine ⟨e, List.mem_of_find?_eq_some found, rfl, ?_, response, carries⟩
      rw [perform, done]
      exact List.mem_singleton_self _

theorem perform_pending {e : PendingEntry} (member : e ∈ (t.perform handlers op).table.pending) :
    e ∈ t.pending ∨ op = .registerPending e.correlationId e.deadline ∧
      (t.perform handlers op).answer = .future e.owner := by
  cases op with
  | nextCorrelationId => exact .inl member
  | registerPending correlationId deadline =>
    simp only [perform, registerPending] at member ⊢
    split at member
    · exact .inl member
    next free =>
      rcases List.mem_cons.mp member with rfl | old
      · exact .inr ⟨rfl, by rw [if_neg free]⟩
      · exact .inl old
  | failAllPending error => cases member
  | reapExpired now => exact .inl (List.mem_filter.mp member).1
  | dispatch frame =>
    left
    change e ∈ (t.dispatch handlers frame).table.pending at member
    rcases dispatch_cases handlers t frame with ⟨yes, handled, done⟩ | ⟨_, _, _, _, done⟩
    · rwa [done] at member
    · rw [done] at member
      exact List.mem_of_mem_eraseP member

theorem settleAll_cases {fates : Nat → Option Fate} {due : List Due} {p : Nat} {fate : Fate}
    (found : settleAll fates due p = some fate) : fates p = some fate ∨ (p, fate) ∈ due := by
  induction due generalizing fates with
  | nil => exact .inl found
  | cons x due ih =>
    change settleAll (Function.update fates x.1 (some x.2)) due p = some fate at found
    rcases ih found with before | later
    · by_cases same : p = x.1
      · subst same
        rw [Function.update_self] at before
        cases before
        exact .inr List.mem_cons_self
      · rw [Function.update_of_ne same] at before
        exact .inl before
    · exact .inr (List.mem_cons_of_mem _ later)

theorem runs_explains (runs : (requestTable handlers).Runs log t) : t.Explains log := by
  refine runs.invariant (fun log t => t.Explains log) ⟨by simp [requestTable], by simp [requestTable]⟩ ?_
  rintro log t op ⟨registered, fates⟩
  constructor
  · intro e member
    rcases perform_pending member with old | ⟨rfl, answer⟩
    · exact List.mem_append_left _ (registered e old)
    · exact List.mem_append_right _ (List.mem_singleton.mpr (congrArg (Prod.mk _) answer.symm))
  · intro p fate found
    rcases settleAll_cases found with before | due
    · rw [perform_keeps_fates] at before
      obtain ⟨cid, deadline, made, explained⟩ := fates p fate before
      exact ⟨cid, deadline, List.mem_append_left _ made, explained_mono explained fun _ => List.mem_append_left _⟩
    · rcases perform_due due with ⟨e, waiting, rfl, explained⟩ | ⟨cid, deadline, rfl, answer, rfl⟩
      · exact ⟨_, _, List.mem_append_left _ (registered e waiting),
          explained_mono explained fun _ => List.mem_append_right _⟩
      · exact ⟨cid, deadline,
          List.mem_append_right _ (List.mem_singleton.mpr (congrArg (Prod.mk _) answer.symm)), trivial⟩

theorem perform_id (handlers : Handlers) (t : RequestTable) (op : TableOp) :
    op = .nextCorrelationId ∨ givenIds [(op, (t.perform handlers op).answer)] = [] ∧
      (t.perform handlers op).table.nextId = t.nextId := by
  cases op with
  | nextCorrelationId => exact .inl rfl
  | failAllPending | reapExpired => exact .inr ⟨rfl, rfl⟩
  | registerPending correlationId deadline =>
    right
    simp only [perform, registerPending]
    split <;> exact ⟨rfl, rfl⟩
  | dispatch frame =>
    right
    rw [perform]
    rcases dispatch_cases handlers t frame with ⟨yes, handled, done⟩ | ⟨_, _, _, _, done⟩ <;>
      rw [done] <;> exact ⟨rfl, rfl⟩

structure Counted (log : List (TableOp × TableAnswer)) (nextId : UInt32) : Prop where
  given : givenIds log = (List.range (givenIds log).length).map fun k => UInt32.ofNat (1 + k)
  next : nextId = UInt32.ofNat (1 + (givenIds log).length)

theorem givenIds_append (first second : List (TableOp × TableAnswer)) :
    givenIds (first ++ second) = givenIds first ++ givenIds second := List.filterMap_append

theorem Counted.perform {log : List (TableOp × TableAnswer)} (counted : Counted log t.nextId) (op : TableOp) :
    Counted (log ++ [(op, (t.perform handlers op).answer)]) (t.perform handlers op).table.nextId := by
  rcases perform_id handlers t op with rfl | ⟨none, same⟩
  · have grown : givenIds (log ++ [(.nextCorrelationId, .correlationId t.nextId)]) = givenIds log ++ [t.nextId] :=
      givenIds_append _ _
    constructor
    · show givenIds (log ++ [(.nextCorrelationId, .correlationId t.nextId)]) =
        (List.range (givenIds (log ++ [(.nextCorrelationId, .correlationId t.nextId)])).length).map _
      rw [grown, List.length_append, List.length_singleton, List.range_succ, List.map_append, ← counted.given,
        counted.next]
      rfl
    · show t.nextId + 1 = UInt32.ofNat (1 + (givenIds (log ++ [(.nextCorrelationId, .correlationId t.nextId)])).length)
      rw [grown, List.length_append, List.length_singleton, counted.next, ← Nat.add_assoc]
      exact (UInt32.ofNat_add _ 1).symm
  · have grown : givenIds (log ++ [(op, (t.perform handlers op).answer)]) = givenIds log := by
      rw [givenIds_append, none, List.append_nil]
    constructor
    · rw [grown]
      exact counted.given
    · rw [grown, same]
      exact counted.next

theorem runs_counted (runs : (requestTable handlers).Runs log t) : Counted log t.nextId :=
  runs.invariant (fun log t => Counted log t.nextId) ⟨rfl, rfl⟩ fun _ _ op counted => counted.perform op

end RequestTable

/-- Whatever the threads do, their operations take effect one at a time, and the dispatcher
answers and fulfils promises as it would for one thread. -/
structure ServesThreads (handlers : Handlers) (s : SharedDispatcher) : Prop where
  linear : (requestTable handlers).Linearizes s.history s.threads s.atomic
  /-- A promise is fulfilled once, in an operation that has not returned. -/
  once : (s.due.map fun x => x.2.1).Nodup ∧ ∀ x ∈ s.due, s.table.fates x.2.1 = none
  within : ∀ x ∈ s.due, ∃ op answer, s.threads x.1 = .behind op answer
  /-- When all of them have returned, nothing is left to do. -/
  settled : (∀ n, s.threads n = .outside) → s.table = s.atomic
  explained : ∀ p fate, s.table.fates p = some fate → ∃ correlationId deadline,
    (.registerPending correlationId deadline, .future p) ∈ effects s.history ∧
      fate.Explained (effects s.history) correlationId deadline
  ids : (givenIds (effects s.history)).length ≤ 2 ^ 32 → (givenIds (effects s.history)).Nodup

theorem reach_inTurns {handlers : Handlers} {s : SharedDispatcher}
    (reach : (sharedDispatcher handlers).Reach Machine.anyStep s) : s.InTurns handlers := by
  refine reach.invariant (fun s => s.InTurns handlers) ?_ ?_
  · rintro _ rfl
    exact ⟨List.nodup_nil, by simp [SharedDispatcher.undecided], fun _ _ => rfl, by simp, .start⟩
  · intro s a s' _ kept _ run
    exact SharedDispatcher.step_inTurns kept run

theorem dispatcher_serves_threads {handlers : Handlers} {s : SharedDispatcher}
    (reach : (sharedDispatcher handlers).Reach Machine.anyStep s) : ServesThreads handlers s := by
  have kept := reach_inTurns reach
  constructor
  case linear => exact kept.linear
  case once =>
    exact ⟨(List.nodup_append.mp kept.single).2.1, fun x member =>
      (kept.unset _ (List.mem_append_right _ (List.mem_map_of_mem member))).2⟩
  case within => exact kept.own
  case settled =>
    intro idle
    have nothing : s.due = [] := by
      rw [List.eq_nil_iff_forall_not_mem]
      intro x member
      obtain ⟨op, answer, behind⟩ := kept.own x member
      rw [idle] at behind
      cases behind
    rw [SharedDispatcher.atomic, nothing]
    rfl
  case explained =>
    intro p fate found
    -- A promise that has its fate is not in hand any more.
    have gone : p ∉ (s.due.map Prod.snd).map Prod.fst := by
      rw [List.map_map]
      intro member
      rw [(kept.unset p (List.mem_append_right _ member)).2] at found
      cases found
    refine (RequestTable.runs_explains kept.linear.runs).fates p fate ?_
    exact (settleAll_other gone).trans found
  case ids =>
    intro few
    rw [(RequestTable.runs_counted kept.linear.runs).given]
    refine List.Nodup.map_on ?_ List.nodup_range
    intro j first k second same
    rw [List.mem_range] at first second
    have values := congrArg UInt32.toNat same
    simp only [UInt32.toNat_ofNat'] at values
    omega

def answerSeven : IncomingFrame := ⟨Key.responseOf Key.create, 1, [0, 1], some 7⟩

/-- A request is answered and reaped at once. The answer comes first, and the thread that
reaps returns before the promise is fulfilled. -/
theorem dispatcher_serves_threads_race : ∃ s, (sharedDispatcher {}).Reach Machine.anyStep s ∧
    effects s.history = [(.registerPending 7 10, .future 0), (.dispatch answerSeven, .accepted true),
      (.reapExpired 20, .reaped 0)] ∧
    s.threads 2 = .outside ∧ s.table.fates 0 = none ∧ s.atomic.fates 0 = some (.set (.ok answerSeven)) ∧
    ServesThreads {} s := by
  have ran : ((sharedDispatcher {}).exec Machine.anyStep {} [.call 0 (.registerPending 7 10), .critical 0,
      .call 1 (.dispatch answerSeven), .call 2 (.reapExpired 20), .critical 1, .critical 2, .ret 2]).any (fun s =>
        effects s.history = [(.registerPending 7 10, .future 0), (.dispatch answerSeven, .accepted true),
          (.reapExpired 20, .reaped 0)] ∧
        s.threads 2 = .outside ∧ s.table.fates 0 = none ∧ s.atomic.fates 0 = some (.set (.ok answerSeven))) =
          true := by decide +kernel
  obtain ⟨s, reach, holds⟩ := Machine.reach_of_exec rfl ran
  obtain ⟨order, returned, unset, settled⟩ := of_decide_eq_true holds
  exact ⟨s, reach, order, returned, unset, settled, dispatcher_serves_threads reach⟩

end RmqStream
