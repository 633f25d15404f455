import RmqStream.Frame

/-! `SocketReader` of `src/socket.cpp` over a schedule of `recv` outcomes, and the
polling of it by `io_loop`.

A schedule is everything the kernel will return, in order; an exhausted schedule
is an orderly shutdown by the peer. A call for fewer bytes than a chunk holds
takes its share and leaves the rest of the chunk for the next call. -/

set_option autoImplicit false

namespace RmqStream
open Library

/-- What one `recv` returns. The failures carry the text of `strerror`. -/
inductive RecvOutcome where
  | data (head : UInt8) (tail : Bytes)
  | interrupted
  | timeout (strerror : Bytes)
  | failed (strerror : Bytes)
  | endOfStream
  deriving DecidableEq, Repr

abbrev Schedule := List RecvOutcome

inductive TimeoutMode where
  | returnTimeout | treatAsError
  deriving DecidableEq, Repr

abbrev Buffer (n : Nat) := { bytes : Bytes // bytes.length = n }

def peerClosed : StreamError := ⟨.connectionClosed, text "peer closed connection", none⟩
def recvTimeout : StreamError := ⟨.requestTimeout, text "recv timeout", none⟩
def recvFailed (strerror : Bytes) : StreamError := ⟨.ioError, text "recv: " ++ strerror, none⟩

def leftover : Bytes → Schedule → Schedule
  | [], sched => sched
  | head :: tail, sched => .data head tail :: sched

/-- The loop of `read_exact` with `need` bytes to go after `received`. -/
def readMore (mode : TimeoutMode) (received : Nat) : (need : Nat) → Schedule → Result (Buffer need) × Schedule
  | 0, sched => (.ok ⟨[], rfl⟩, sched)
  | _ + 1, [] => (.error peerClosed, [])
  | need + 1, .data head tail :: sched =>
    if chunk : tail.length ≤ need then
      match readMore mode (received + (tail.length + 1)) (need - tail.length) sched with
      | (.ok more, sched) =>
        (.ok ⟨head :: tail ++ more.1, by simp [more.2]; omega⟩, sched)
      | (.error e, sched) => (.error e, sched)
    else (.ok ⟨head :: tail.take need, by simp; omega⟩, leftover (tail.drop need) sched)
  | _ + 1, .endOfStream :: sched => (.error peerClosed, sched)
  | need + 1, .interrupted :: sched => readMore mode received (need + 1) sched
  | _ + 1, .timeout strerror :: sched =>
    if mode = .returnTimeout ∧ received = 0 then (.error recvTimeout, sched)
    else (.error (recvFailed strerror), sched)
  | _ + 1, .failed strerror :: sched => (.error (recvFailed strerror), sched)

def readExact (n : Nat) (mode : TimeoutMode) (sched : Schedule) : Result (Buffer n) × Schedule :=
  readMore mode 0 n sched

def declaredBy (sizeBuf : Buffer 4) : UInt32 :=
  (sizeBuf.1.getD 0 0).toUInt32 <<< 24 ||| (sizeBuf.1.getD 1 0).toUInt32 <<< 16 |||
    (sizeBuf.1.getD 2 0).toUInt32 <<< 8 ||| (sizeBuf.1.getD 3 0).toUInt32

theorem fullFrame_addressable (sizeBuf : Buffer 4) {declared : UInt32} (body : Buffer declared.toNat) :
    (sizeBuf.1 ++ body.1).length < 2 ^ 64 := by
  have := declared.toNat_lt
  rw [List.length_append, sizeBuf.2, body.2]
  omega

/-- Size prefix and body are combined again and parsed a second time. -/
def parseFullFrame (sizeBuf : Buffer 4) {declared : UInt32} (body : Buffer declared.toNat) :
    Result IncomingFrame :=
  (readFrameAuto.run (Cursor.start (sizeBuf.1 ++ body.1) (fullFrame_addressable sizeBuf body))).1

def readDeclared (sizeBuf : Buffer 4) (sched : Schedule) : Result IncomingFrame × Schedule :=
  if declaredBy sizeBuf < 4 then (.error frameTooSmall, sched)
  else
    match readExact (declaredBy sizeBuf).toNat .treatAsError sched with
    | (.error e, sched) => (.error e, sched)
    | (.ok body, sched) => (parseFullFrame sizeBuf body, sched)

def readFrame (sched : Schedule) : Result IncomingFrame × Schedule :=
  match readExact 4 .returnTimeout sched with
  | (.error e, sched) => (.error e, sched)
  | (.ok sizeBuf, sched) => readDeclared sizeBuf sched

/-! ## What a call takes from the schedule -/

def delivered : Schedule → Bytes
  | [] => []
  | .data head tail :: sched => head :: tail ++ delivered sched
  | _ :: sched => delivered sched

def weight (sched : Schedule) : Nat := sched.length + (delivered sched).length

@[simp] theorem delivered_leftover (bytes : Bytes) (sched : Schedule) :
    delivered (leftover bytes sched) = bytes ++ delivered sched := by
  cases bytes <;> rfl

@[simp] theorem weight_data (head : UInt8) (tail : Bytes) (sched : Schedule) :
    weight (.data head tail :: sched) = tail.length + 2 + weight sched := by
  simp only [weight, delivered, List.length_cons, List.length_append]
  omega

theorem weight_quiet {outcome : RecvOutcome} {sched : Schedule}
    (quiet : delivered (outcome :: sched) = delivered sched) : weight (outcome :: sched) = weight sched + 1 := by
  rw [weight, quiet, List.length_cons, weight]
  omega

theorem weight_leftover (bytes : Bytes) (sched : Schedule) :
    weight (leftover bytes sched) ≤ bytes.length + 1 + weight sched := by
  cases bytes with
  | nil => exact Nat.le_add_left _ _
  | cons head tail => rw [leftover, weight_data, List.length_cons]

/-- A call takes exactly the bytes it returns. A failed call takes fewer than it
was asked for, and none at all if it reports a timeout. -/
theorem readMore_takes (mode : TimeoutMode) (received need : Nat) (sched : Schedule) :
    match readMore mode received need sched with
    | (.ok bytes, after) => delivered sched = bytes.1 ++ delivered after ∧
        weight after + need ≤ weight sched
    | (.error e, after) => ∃ lost, delivered sched = lost ++ delivered after ∧ lost.length < need ∧
        (e.kind = .requestTimeout →
          mode = .returnTimeout ∧ received = 0 ∧ lost = [] ∧ weight after < weight sched) := by
  induction sched generalizing received need with
  | nil =>
    cases need with
    | zero => exact ⟨rfl, Nat.le_refl _⟩
    | succ need => exact ⟨[], rfl, Nat.succ_pos _, by simp [peerClosed]⟩
  | cons outcome sched ih =>
    cases need with
    | zero => simp [readMore]
    | succ need =>
      cases outcome with
      | endOfStream => exact ⟨[], rfl, Nat.succ_pos _, by simp [peerClosed]⟩
      | failed strerror => exact ⟨[], rfl, Nat.succ_pos _, by simp [recvFailed]⟩
      | timeout strerror =>
        simp only [readMore]
        by_cases early : mode = .returnTimeout ∧ received = 0
        · have lighter : weight (.timeout strerror :: sched) = weight sched + 1 := weight_quiet rfl
          rw [if_pos early]
          exact ⟨[], rfl, Nat.succ_pos _, fun _ => ⟨early.1, early.2, rfl, by omega⟩⟩
        · rw [if_neg early]
          exact ⟨[], rfl, Nat.succ_pos _, by simp [recvFailed]⟩
      -- The same read again, with one outcome less.
      | interrupted =>
        have lighter : weight (.interrupted :: sched) = weight sched + 1 := weight_quiet rfl
        have next := ih received (need + 1)
        simp only [readMore]
        split at next
        · exact ⟨next.1, by omega⟩
        · obtain ⟨lost, split, short, timeout⟩ := next
          refine ⟨lost, split, short, fun kind => ?_⟩
          obtain ⟨mode, zero, none_lost, less⟩ := timeout kind
          exact ⟨mode, zero, none_lost, by omega⟩
      | data head tail =>
        simp only [readMore, weight_data]
        by_cases chunk : tail.length ≤ need
        · have next := ih (received + (tail.length + 1)) (need - tail.length)
          rw [dif_pos chunk]
          split at next
          next more after run =>
            simp only [run]
            exact ⟨by simp [delivered, next.1], by omega⟩
          next e after run =>
            simp only [run]
            obtain ⟨lost, split, short, timeout⟩ := next
            refine ⟨head :: tail ++ lost, by simp [delivered, split], ?_, fun kind => ?_⟩
            · simp only [List.length_append, List.length_cons]; omega
            · -- A timeout is not reported once a byte has arrived.
              have := (timeout kind).2.1
              omega
        · -- More has come than was asked for, and the rest stays in the schedule.
          rw [dif_neg chunk]
          have left := weight_leftover (tail.drop need) sched
          rw [List.length_drop] at left
          exact ⟨by simp [delivered, ← List.append_assoc], by omega⟩

theorem declaredBy_toNat (size : Buffer 4) : (declaredBy size).toNat = ofBigEndian size.1 :=
  combineU32 size.1 size.2

theorem declaredBy_small (size : Buffer 4) : declaredBy size < 4 ↔ ofBigEndian size.1 < 4 := by
  rw [UInt32.lt_iff_toNat_lt, declaredBy_toNat]
  rfl

theorem declaredSize_append (size : Buffer 4) (tail : Bytes) :
    declaredSize (size.1 ++ tail) = ofBigEndian size.1 := by
  rw [declaredSize, List.take_left' size.2]

theorem nextFrame_append (size : Buffer 4) {payload : Bytes} (tail : Bytes)
    (length : payload.length = ofBigEndian size.1) (least : 4 ≤ ofBigEndian size.1) :
    nextFrame (size.1 ++ payload ++ tail) = (payloadFrame payload).map fun frame => (frame, tail) := by
  have inner : (size.1 ++ (payload ++ tail)).drop 4 = payload ++ tail := List.drop_left' size.2
  have outer : (size.1 ++ (payload ++ tail)).drop (4 + ofBigEndian size.1) = tail := by
    rw [← List.drop_drop, inner, ← length, List.drop_left]
  rw [List.append_assoc, nextFrame, declaredSize_append, inner, outer, ← length, List.take_left, if_neg]
  simp only [List.length_append, size.2]
  omega

theorem nextFrame_small (size : Buffer 4) {tail : Bytes} (small : ofBigEndian size.1 < 4) :
    nextFrame (size.1 ++ tail) = none := by
  rw [nextFrame, declaredSize_append, if_pos (.inr (.inl small))]

theorem parseFullFrame_payload (size : Buffer 4) (body : Buffer (declaredBy size).toNat)
    (least : 4 ≤ ofBigEndian size.1) :
    match payloadFrame body.1 with
    | some frame => parseFullFrame size body = .ok frame
    | none => ∃ e, parseFullFrame size body = .error e := by
  have parse := readFrameAuto_nextFrame (Cursor.start _ (fullFrame_addressable size body))
  have whole := nextFrame_append size [] (body.2.trans (declaredBy_toNat size)) least
  rw [List.append_nil] at whole
  rw [Cursor.start_rest, whole] at parse
  unfold parseFullFrame
  cases found : payloadFrame body.1 with
  | none =>
    rw [found] at parse
    obtain ⟨e, after, run⟩ := parse
    exact ⟨e, by rw [run]⟩
  | some frame =>
    rw [found] at parse
    obtain ⟨run, _⟩ := parse
    simp only [run]

theorem readExact_takes (n : Nat) (mode : TimeoutMode) (sched : Schedule) :
    match readExact n mode sched with
    | (.ok bytes, after) => delivered sched = bytes.1 ++ delivered after ∧ weight after + n ≤ weight sched
    | (.error e, after) => ∃ lost, delivered sched = lost ++ delivered after ∧ lost.length < n ∧
        (e.kind = .requestTimeout → mode = .returnTimeout ∧ lost = [] ∧ weight after < weight sched) := by
  have takes := readMore_takes mode 0 n sched
  unfold readExact
  split at takes
  · exact takes
  · obtain ⟨lost, split, short, timeout⟩ := takes
    exact ⟨lost, split, short, fun kind => ⟨(timeout kind).1, (timeout kind).2.2.1, (timeout kind).2.2.2⟩⟩

theorem parseFullFrame_kind (size : Buffer 4) (body : Buffer (declaredBy size).toNat) {e : StreamError}
    (failed : parseFullFrame size body = .error e) : e.kind ≠ .requestTimeout := by
  have run := readFrameAuto_run (Cursor.start _ (fullFrame_addressable size body))
  unfold parseFullFrame at failed
  rcases run with ⟨_, run⟩ | ⟨_, _, run⟩ | ⟨_, _, _, run⟩ | ⟨_, _, run⟩
  · rw [run] at failed
    cases failed
    simp [decodeErr]
  · rw [run] at failed
    cases failed
    simp [frameTooSmall]
  · rw [run] at failed
    cases failed
    simp [decodeErr]
  · split at run
    · rw [run] at failed
      cases failed
    · obtain ⟨after, run⟩ := run
      rw [run] at failed
      cases failed
      simp [decodeErr]

theorem parseFullFrame_cases (size : Buffer 4) (body : Buffer (declaredBy size).toNat)
    (least : 4 ≤ ofBigEndian size.1) (tail : Bytes) :
    (∃ frame, parseFullFrame size body = .ok frame ∧
      nextFrame (size.1 ++ (body.1 ++ tail)) = some (frame, tail)) ∨
    ∃ e, parseFullFrame size body = .error e ∧ e.kind ≠ .requestTimeout ∧
      nextFrame (size.1 ++ (body.1 ++ tail)) = none := by
  have next := nextFrame_append size tail (body.2.trans (declaredBy_toNat size)) least
  have parsed := parseFullFrame_payload size body least
  rw [List.append_assoc] at next
  rw [next]
  cases found : payloadFrame body.1 with
  | none =>
    rw [found] at parsed
    obtain ⟨e, parsed⟩ := parsed
    exact .inr ⟨e, parsed, parseFullFrame_kind size body parsed, rfl⟩
  | some frame =>
    rw [found] at parsed
    exact .inl ⟨frame, parsed, rfl⟩

/-- The body part of a call returns the frame announced by its size prefix, and
never reports a timeout. -/
theorem readDeclared_takes (size : Buffer 4) (middle : Schedule) :
    match readDeclared size middle with
    | (.ok frame, after) => nextFrame (size.1 ++ delivered middle) = some (frame, delivered after) ∧
        weight after ≤ weight middle
    | (.error e, _) => e.kind ≠ .requestTimeout := by
  unfold readDeclared
  by_cases small : declaredBy size < 4
  · rw [if_pos small]
    simp [frameTooSmall]
  have least : 4 ≤ ofBigEndian size.1 := Nat.not_lt.mp (mt (declaredBy_small size).mpr small)
  have takes := readExact_takes (declaredBy size).toNat .treatAsError middle
  rw [if_neg small]
  rcases filled : readExact (declaredBy size).toNat .treatAsError middle with ⟨e | body, after⟩
  · rw [filled] at takes
    obtain ⟨_, _, _, timeout⟩ := takes
    exact fun kind => by simpa using (timeout kind).1
  rw [filled] at takes
  obtain ⟨split, light⟩ := takes
  rw [split]
  simp only
  rcases parseFullFrame_cases size body least (delivered after) with ⟨frame, parsed, next⟩ | ⟨e, parsed, kind, _⟩
  · rw [parsed]
    exact ⟨next, by omega⟩
  · rw [parsed]
    exact kind

/-- A successful call returns the next frame of what the schedule delivers and takes
exactly its bytes. A reported timeout takes nothing. -/
theorem readFrame_takes (sched : Schedule) :
    match readFrame sched with
    | (.ok frame, after) => nextFrame (delivered sched) = some (frame, delivered after) ∧
        weight after < weight sched
    | (.error e, after) => e.kind = .requestTimeout →
        delivered after = delivered sched ∧ weight after < weight sched := by
  have first := readExact_takes 4 .returnTimeout sched
  unfold readFrame
  rcases sized : readExact 4 .returnTimeout sched with ⟨e | size, middle⟩
  · rw [sized] at first
    obtain ⟨lost, split, _, timeout⟩ := first
    intro kind
    obtain ⟨_, rfl, lighter⟩ := timeout kind
    exact ⟨split.symm, lighter⟩
  rw [sized] at first
  obtain ⟨split, light⟩ := first
  have second := readDeclared_takes size middle
  simp only
  rw [split]
  rcases declared : readDeclared size middle with ⟨e | frame, after⟩
  · rw [declared] at second
    exact fun kind => absurd kind second
  · rw [declared] at second
    exact ⟨second.1, by omega⟩

theorem readFrame_ok {sched after : Schedule} {frame : IncomingFrame}
    (run : readFrame sched = (.ok frame, after)) :
    nextFrame (delivered sched) = some (frame, delivered after) ∧ weight after < weight sched := by
  have takes := readFrame_takes sched
  rwa [run] at takes

theorem readFrame_timeout {sched after : Schedule} {e : StreamError}
    (run : readFrame sched = (.error e, after)) (kind : e.kind = .requestTimeout) :
    delivered after = delivered sched ∧ weight after < weight sched := by
  have takes := readFrame_takes sched
  rw [run] at takes
  exact takes kind

/-! ## Polling -/

/-- The reads of `io_loop`: go on after a frame or a timeout, stop at any other
error. Every call that goes on makes the schedule lighter. -/
def pollFrames (sched : Schedule) : List IncomingFrame :=
  match run : readFrame sched with
  | (.ok frame, after) =>
    have := (readFrame_ok run).2
    frame :: pollFrames after
  | (.error e, after) =>
    if kind : e.kind = .requestTimeout then
      have := (readFrame_timeout run kind).2
      pollFrames after
    else []
termination_by weight sched

/-- The loop has yielded `frames` and is about to call `readFrame` at the schedule. -/
inductive Polls (sched : Schedule) : List IncomingFrame → Schedule → Prop where
  | start : Polls sched [] sched
  | frame {frames : List IncomingFrame} {middle after : Schedule} {frame : IncomingFrame} :
      Polls sched frames middle → readFrame middle = (.ok frame, after) → Polls sched (frames ++ [frame]) after
  | timeout {frames : List IncomingFrame} {middle after : Schedule} {e : StreamError} :
      Polls sched frames middle → readFrame middle = (.error e, after) → e.kind = .requestTimeout →
      Polls sched frames after

/-- The offsets in a byte string that stand before the first byte of a frame. -/
inductive FrameBoundary : Bytes → Nat → Prop where
  | zero {bytes : Bytes} : FrameBoundary bytes 0
  | next {bytes tail : Bytes} {frame : IncomingFrame} {n : Nat} :
      nextFrame bytes = some (frame, tail) → FrameBoundary tail n →
      FrameBoundary bytes (4 + declaredSize bytes + n)

theorem FrameBoundary.snoc {bytes tail : Bytes} {frame : IncomingFrame} {n : Nat}
    (boundary : FrameBoundary bytes n) (found : nextFrame (bytes.drop n) = some (frame, tail)) :
    FrameBoundary bytes (n + (4 + declaredSize (bytes.drop n))) := by
  induction boundary with
  | zero => simpa using FrameBoundary.next found .zero
  | @next bytes middle first n head rest ih =>
    obtain ⟨_, _, rfl⟩ := nextFrame_shorter head
    rw [List.drop_drop] at ih
    have moved := FrameBoundary.next head (ih found)
    rwa [← Nat.add_assoc] at moved

theorem FrameBoundary.gap {bytes tail : Bytes} {frame : IncomingFrame} {n m : Nat}
    (boundary : FrameBoundary bytes n) (found : nextFrame (bytes.drop n) = some (frame, tail))
    (other : FrameBoundary bytes m) (less : n < m) : n + (4 + declaredSize (bytes.drop n)) ≤ m := by
  induction boundary generalizing m with
  | zero =>
    cases other with
    | zero => omega
    | next => simp
  | @next bytes middle first n head rest ih =>
    cases other with
    | zero => omega
    | @next _ middle' first' m head' rest' =>
      rw [head] at head'
      cases head'
      obtain ⟨_, _, rfl⟩ := nextFrame_shorter head
      rw [List.drop_drop] at ih
      have inner := ih found rest' (by omega)
      omega

theorem polls_boundary {sched after : Schedule} {yielded : List IncomingFrame}
    (polls : Polls sched yielded after) :
    ∃ n, FrameBoundary (delivered sched) n ∧ delivered after = (delivered sched).drop n ∧
      frames (delivered sched) = yielded ++ frames (delivered after) := by
  induction polls with
  | start => exact ⟨0, .zero, rfl, rfl⟩
  | @frame yielded middle after frame _ run ih =>
    obtain ⟨n, boundary, rest, all⟩ := ih
    have found := (readFrame_ok run).1
    obtain ⟨_, _, tail⟩ := nextFrame_shorter found
    refine ⟨n + (4 + declaredSize (delivered middle)), ?_, ?_, ?_⟩
    · rw [rest] at found ⊢
      exact boundary.snoc found
    · rw [tail, rest, List.drop_drop]
    · rw [all, frames_some found, List.append_assoc]
      rfl
  | timeout _ run kind ih =>
    rw [(readFrame_timeout run kind).1]
    exact ih

theorem pollFrames_initial (sched : Schedule) : pollFrames sched <+: frames (delivered sched) := by
  fun_induction pollFrames sched with
  | case1 sched frame after run _ ih =>
    rw [frames_some (readFrame_ok run).1]
    exact List.cons_prefix_cons.mpr ⟨rfl, ih⟩
  | case2 sched e after run kind _ ih => rwa [(readFrame_timeout run kind).1] at ih
  | case3 => exact List.nil_prefix

/-! ## Schedules that do not interrupt a frame -/

/-- The schedule continues `bytes` from offset `pos`, times out only at frame
boundaries, and fails or ends only when nothing is left to deliver. -/
def CleanFrom (bytes : Bytes) (pos : Nat) : Schedule → Prop
  | [] => True
  | .data _ tail :: sched => CleanFrom bytes (pos + (tail.length + 1)) sched
  | .interrupted :: sched => CleanFrom bytes pos sched
  | .timeout _ :: sched => FrameBoundary bytes pos ∧ CleanFrom bytes pos sched
  | .failed _ :: sched => delivered sched = []
  | .endOfStream :: sched => delivered sched = []

def Clean (sched : Schedule) : Prop := CleanFrom (delivered sched) 0 sched

theorem cleanFrom_leftover {bytes : Bytes} {pos : Nat} (rest : Bytes) {sched : Schedule}
    (clean : CleanFrom bytes (pos + rest.length) sched) : CleanFrom bytes pos (leftover rest sched) := by
  cases rest with
  | nil => exact clean
  | cons head tail => exact clean

/-- A call on a clean schedule stays clean, and it only fails because the bytes run
out or because a timeout stands at a boundary it had to read across. -/
theorem readMore_clean (mode : TimeoutMode) (received need : Nat) (bytes : Bytes) (pos : Nat) (sched : Schedule)
    (clean : CleanFrom bytes pos sched) :
    match readMore mode received need sched with
    | (.ok _, after) => CleanFrom bytes (pos + need) after
    | (.error e, after) =>
      if e.kind = .requestTimeout then CleanFrom bytes pos after
      else (delivered sched).length < need ∨ ∃ k < need, FrameBoundary bytes (pos + k) ∧
        (k = 0 → ¬ (mode = .returnTimeout ∧ received = 0)) := by
  induction sched generalizing received need pos with
  | nil =>
    cases need with
    | zero => trivial
    | succ need => exact .inl (Nat.succ_pos _)
  | cons outcome sched ih =>
    cases need with
    | zero => simpa [readMore] using clean
    | succ need =>
      cases outcome with
      | endOfStream => exact .inl (by simp [delivered, show delivered sched = [] from clean])
      | failed strerror => exact .inl (by simp [delivered, show delivered sched = [] from clean])
      | timeout strerror =>
        simp only [readMore]
        by_cases early : mode = .returnTimeout ∧ received = 0
        · rw [if_pos early]
          exact clean.2
        · rw [if_neg early]
          -- The timeout stands at a boundary, and this read goes across it.
          exact .inr ⟨0, Nat.succ_pos _, clean.1, fun _ => early⟩
      | interrupted => exact ih received (need + 1) pos clean
      | data head tail =>
        simp only [readMore]
        by_cases chunk : tail.length ≤ need
        · rw [dif_pos chunk]
          have next := ih (received + (tail.length + 1)) (need - tail.length) (pos + (tail.length + 1)) clean
          have takes := readMore_takes mode (received + (tail.length + 1)) (need - tail.length) sched
          rcases run : readMore mode (received + (tail.length + 1)) (need - tail.length) sched with
            ⟨e | more, after⟩
          · rw [run] at next takes
            obtain ⟨_, _, _, timeout⟩ := takes
            by_cases kind : e.kind = .requestTimeout
            · -- With a byte in hand no timeout is reported as one.
              have := (timeout kind).2.1
              omega
            simp only [if_neg kind] at next ⊢
            rcases next with short | ⟨k, less, boundary, _⟩
            · left
              simp only [delivered, List.length_append, List.length_cons]
              omega
            · right
              exact ⟨tail.length + 1 + k, by omega, by rwa [← Nat.add_assoc], by omega⟩
          · rw [run] at next
            have same : pos + (tail.length + 1) + (need - tail.length) = pos + (need + 1) := by omega
            rwa [same] at next
        · rw [dif_neg chunk]
          apply cleanFrom_leftover
          rw [List.length_drop]
          have same : pos + (need + 1) + (tail.length - need) = pos + (tail.length + 1) := by omega
          rw [same]
          exact clean

theorem readExact_clean_ok {bytes : Bytes} {pos n : Nat} {mode : TimeoutMode} {sched after : Schedule}
    {found : Buffer n} (clean : CleanFrom bytes pos sched) (run : readExact n mode sched = (.ok found, after)) :
    CleanFrom bytes (pos + n) after := by
  have outcome := readMore_clean mode 0 n bytes pos sched clean
  rwa [show readMore mode 0 n sched = _ from run] at outcome

theorem readExact_clean_error {bytes : Bytes} {pos n : Nat} {mode : TimeoutMode} {sched after : Schedule}
    {e : StreamError} (clean : CleanFrom bytes pos sched) (run : readExact n mode sched = (.error e, after)) :
    if e.kind = .requestTimeout then CleanFrom bytes pos after
    else (delivered sched).length < n ∨ ∃ k < n, FrameBoundary bytes (pos + k) ∧
      (k = 0 → mode ≠ .returnTimeout) := by
  have outcome := readMore_clean mode 0 n bytes pos sched clean
  rw [show readMore mode 0 n sched = _ from run] at outcome
  simpa using outcome

theorem nextFrame_none_of_boundary {bytes rest : Bytes} {pos k : Nat} (here : rest = bytes.drop pos)
    (boundary : FrameBoundary bytes pos) (other : FrameBoundary bytes (pos + k)) (positive : 0 < k)
    (less : k < 4 + declaredSize rest) : nextFrame rest = none := by
  cases found : nextFrame rest with
  | none => rfl
  | some pair =>
    subst here
    have := boundary.gap found other (by omega)
    omega

theorem readDeclared_clean {bytes : Bytes} {pos : Nat} {size : Buffer 4} {middle : Schedule}
    (here : size.1 ++ delivered middle = bytes.drop pos) (boundary : FrameBoundary bytes pos)
    (clean : CleanFrom bytes (pos + 4) middle) :
    match readDeclared size middle with
    | (.ok _, after) => CleanFrom bytes (pos + (4 + ofBigEndian size.1)) after
    | (.error _, _) => nextFrame (size.1 ++ delivered middle) = none := by
  unfold readDeclared
  by_cases small : declaredBy size < 4
  · rw [if_pos small]
    exact nextFrame_small size ((declaredBy_small size).mp small)
  have least : 4 ≤ ofBigEndian size.1 := Nat.not_lt.mp (mt (declaredBy_small size).mpr small)
  have takes := readExact_takes (declaredBy size).toNat .treatAsError middle
  rw [if_neg small]
  rcases filled : readExact (declaredBy size).toNat .treatAsError middle with ⟨e | body, after⟩
  · -- The bytes have run out, or a timeout stands inside the body.
    have failed := readExact_clean_error clean filled
    rw [filled] at takes
    obtain ⟨_, _, _, timeout⟩ := takes
    have kind : e.kind ≠ .requestTimeout := fun kind => by simpa using (timeout kind).1
    rw [if_neg kind, declaredBy_toNat] at failed
    rcases failed with short | ⟨k, less, other, _⟩
    · show nextFrame _ = none
      have long : (size.1 ++ delivered middle).length < 4 + declaredSize (size.1 ++ delivered middle) := by
        rw [declaredSize_append, List.length_append, size.2]
        omega
      rw [nextFrame, if_pos (.inr (.inr long))]
    · rw [Nat.add_assoc] at other
      exact nextFrame_none_of_boundary here boundary other (by omega) (by rw [declaredSize_append]; omega)
  have done := readExact_clean_ok clean filled
  rw [declaredBy_toNat, Nat.add_assoc] at done
  rw [filled] at takes
  rw [takes.1]
  simp only
  rcases parseFullFrame_cases size body least (delivered after) with ⟨frame, parsed, _⟩ | ⟨e, parsed, _, next⟩
  · rw [parsed]
    exact done
  · rw [parsed]
    exact next

/-- On a clean schedule a call at a boundary stops the loop only when no complete
frame is left. -/
theorem readFrame_clean {bytes : Bytes} {pos : Nat} {sched : Schedule}
    (here : delivered sched = bytes.drop pos) (boundary : FrameBoundary bytes pos)
    (clean : CleanFrom bytes pos sched) :
    match readFrame sched with
    | (.ok _, after) => CleanFrom bytes (pos + (4 + declaredSize (delivered sched))) after
    | (.error e, after) =>
      if e.kind = .requestTimeout then CleanFrom bytes pos after else nextFrame (delivered sched) = none := by
  have takes := readExact_takes 4 .returnTimeout sched
  unfold readFrame
  rcases sized : readExact 4 .returnTimeout sched with ⟨e | size, middle⟩
  · have failed := readExact_clean_error clean sized
    by_cases kind : e.kind = .requestTimeout
    · simpa only [kind, ↓reduceIte] using failed
    simp only [kind, ↓reduceIte] at failed ⊢
    rcases failed with short | ⟨k, less, other, early⟩
    · rw [nextFrame, if_pos (.inl short)]
    · have positive : k ≠ 0 := fun zero => early zero rfl
      exact nextFrame_none_of_boundary here boundary other (by omega) (by omega)
  rw [sized] at takes
  obtain ⟨split, _⟩ := takes
  rw [split] at here
  have rest := readDeclared_clean here boundary (readExact_clean_ok clean sized)
  have kinds := readDeclared_takes size middle
  simp only
  rw [split, declaredSize_append]
  rcases declared : readDeclared size middle with ⟨e | frame, after⟩
  · rw [declared] at rest kinds
    simpa only [show e.kind ≠ .requestTimeout from kinds, ↓reduceIte] using rest
  · rw [declared] at rest
    exact rest

theorem pollFrames_clean {bytes : Bytes} {pos : Nat} {sched : Schedule}
    (here : delivered sched = bytes.drop pos) (boundary : FrameBoundary bytes pos)
    (clean : CleanFrom bytes pos sched) : pollFrames sched = frames (delivered sched) := by
  have step := readFrame_clean here boundary clean
  fun_induction pollFrames sched generalizing pos with
  | case1 sched frame after run _ ih =>
    obtain ⟨found, _⟩ := readFrame_ok run
    rw [run] at step
    have rest : delivered after = bytes.drop (pos + (4 + declaredSize (delivered sched))) := by
      rw [← List.drop_drop, ← here]
      exact (nextFrame_shorter found).2.2
    rw [here] at found
    have moved := boundary.snoc found
    rw [← here] at moved found
    rw [frames_some found, ih rest moved step (readFrame_clean rest moved step)]
  | case2 sched e after run kind _ ih =>
    rw [run] at step
    simp only [kind, ↓reduceIte] at step
    have same := (readFrame_timeout run kind).1
    rw [← same] at here ⊢
    exact ih here boundary step (readFrame_clean here boundary step)
  | case3 sched e after run kind =>
    rw [run] at step
    simp only [kind, ↓reduceIte] at step
    rw [frames_none step]

theorem polls_pollFrames {sched here : Schedule} {yielded : List IncomingFrame}
    (polls : Polls sched yielded here) : pollFrames sched = yielded ++ pollFrames here := by
  induction polls with
  | start => rfl
  | @frame yielded middle after frame _ run ih =>
    rw [ih, List.append_assoc, List.singleton_append]
    congr 1
    rw [pollFrames]
    split
    · next same => rw [run] at same; cases same; rfl
    · next same => rw [run] at same; cases same
  | @timeout yielded middle after e _ run kind ih =>
    rw [ih]
    congr 1
    rw [pollFrames]
    split
    · next same => rw [run] at same; cases same
    · next same => rw [run] at same; cases same; rw [dif_pos kind]

/-- Polling the socket refines parsing one contiguous buffer. Whatever the chunking,
the frames yielded are the first frames of the buffer, and all of them when no frame
is interrupted. At every point of the loop a successful call takes the size prefix and
the announced bytes, and a reported timeout leaves the stream at a frame boundary. -/
theorem readFrame_refines_readFrameAuto (sched : Schedule) (c : BufferReader)
    (delivers : delivered sched = c.rest) :
    pollFrames sched <+: allFrames c ∧
    (Clean sched → pollFrames sched = allFrames c) ∧
    ∀ yielded here, Polls sched yielded here →
      pollFrames sched = yielded ++ pollFrames here ∧
      (∀ frame after, readFrame here = (.ok frame, after) →
        4 + declaredSize (delivered here) ≤ (delivered here).length ∧
        delivered after = (delivered here).drop (4 + declaredSize (delivered here))) ∧
      (∀ e after, readFrame here = (.error e, after) → e.kind = .requestTimeout →
        delivered after = delivered here ∧
        ∃ n, FrameBoundary c.rest n ∧ delivered after = c.rest.drop n) := by
  rw [allFrames_eq, ← delivers]
  refine ⟨pollFrames_initial sched, pollFrames_clean rfl .zero, fun yielded here polls => ?_⟩
  refine ⟨polls_pollFrames polls, fun frame after run => ?_, fun e after run kind => ?_⟩
  · obtain ⟨_, fits, tail⟩ := nextFrame_shorter (readFrame_ok run).1
    exact ⟨fits, tail⟩
  · obtain ⟨n, boundary, rest, _⟩ := polls_boundary polls
    have same := (readFrame_timeout run kind).1
    exact ⟨same, n, boundary, same.trans rest⟩

/-- A heartbeat in two chunks, with an interruption between them and timeouts around it. -/
theorem readFrame_refines_split_heartbeat :
    pollFrames [.timeout [], .data 0 [0], .interrupted, .data 0 [4, 0, 0x17, 0, 1], .timeout [], .endOfStream] =
      [⟨Key.heartbeat, 1, [], none⟩] := by
  have clean : Clean
      [.timeout [], .data 0 [0], .interrupted, .data 0 [4, 0, 0x17, 0, 1], .timeout [], .endOfStream] := by
    have found : nextFrame [0, 0, 0, 4, 0, 0x17, 0, 1] = some (⟨Key.heartbeat, 1, [], none⟩, []) := by decide
    exact ⟨.zero, FrameBoundary.next found .zero, rfl⟩
  rw [(readFrame_refines_readFrameAuto _ (Cursor.start [0, 0, 0, 4, 0, 0x17, 0, 1] (by decide)) rfl).2.1 clean]
  decide

end RmqStream
