import RmqStream.Socket

/-! `read_frame` of `src/socket.cpp` one `recv` at a time.

Between two calls of `recv` the reader holds a buffer that is not full yet. Resuming it
over a schedule is what `readFrame` does in one go. -/

set_option autoImplicit false

namespace RmqStream
open Library

structure Unfilled (n : Nat) where
  bytes : Bytes
  room : bytes.length < n

/-- The body of `read_frame`: first the size prefix, then as many bytes as it declares. -/
inductive ReaderPc where
  | size (got : Unfilled 4)
  | body (sizeBuf : Buffer 4) (declared : UInt32) (same : declaredBy sizeBuf = declared)
      (got : Unfilled declared.toNat)

inductive Turn (n : Nat) where
  | again (got : Unfilled n)
  | full (bytes : Buffer n)
  | failed (error : StreamError)

/-- `recv` returns no more bytes than it is asked for. -/
def readTurn (mode : TimeoutMode) {n : Nat} (got : Unfilled n) : RecvOutcome → Option (Turn n)
  | .data head tail =>
    if room : (got.bytes ++ head :: tail).length < n then some (.again ⟨got.bytes ++ head :: tail, room⟩)
    else if exact : (got.bytes ++ head :: tail).length = n then some (.full ⟨got.bytes ++ head :: tail, exact⟩)
    else none
  | .interrupted => some (.again got)
  | .timeout strerror =>
    if mode = .returnTimeout ∧ got.bytes.length = 0 then some (.failed recvTimeout)
    else some (.failed (recvFailed strerror))
  | .failed strerror => some (.failed (recvFailed strerror))
  | .endOfStream => some (.failed peerClosed)

/-- What a `recv` means to the call of `read_frame` that made it. -/
inductive ReadStep where
  | more (reader : ReaderPc)
  | done (reply : Result IncomingFrame)

namespace ReaderPc

def start : ReaderPc := .size ⟨[], by decide⟩

theorem body_room {declared : UInt32} (least : ¬ declared < 4) : ([] : Bytes).length < declared.toNat := by
  rw [UInt32.lt_iff_toNat_lt] at least
  exact Nat.lt_of_lt_of_le (by decide) (Nat.not_lt.mp least)

def sized (sizeBuf : Buffer 4) : ReadStep :=
  if small : declaredBy sizeBuf < 4 then .done (.error frameTooSmall)
  else .more (.body sizeBuf (declaredBy sizeBuf) rfl ⟨[], body_room small⟩)

def afterSize : Turn 4 → ReadStep
  | .again got => .more (.size got)
  | .full sizeBuf => sized sizeBuf
  | .failed e => .done (.error e)

def afterBody (sizeBuf : Buffer 4) (declared : UInt32) (same : declaredBy sizeBuf = declared) :
    Turn declared.toNat → ReadStep
  | .again got => .more (.body sizeBuf declared same got)
  | .full filled => .done (parseFullFrame sizeBuf filled)
  | .failed e => .done (.error e)

def recv : ReaderPc → RecvOutcome → Option ReadStep
  | .size got, outcome => (readTurn .returnTimeout got outcome).map afterSize
  | .body sizeBuf declared same got, outcome =>
    (readTurn .treatAsError got outcome).map (afterBody sizeBuf declared same)

/-- What has been received of the frame in progress. -/
def bytes : ReaderPc → Bytes
  | .size got => got.bytes
  | .body sizeBuf _ _ got => sizeBuf.1 ++ got.bytes

end ReaderPc

/-! ## Resuming a call -/

theorem filled_length {n : Nat} (got : Unfilled n) {need : Nat} (rest : got.bytes.length + need = n)
    (more : Buffer need) : (got.bytes ++ more.1).length = n := by
  rw [List.length_append, more.2, rest]

def resumeExact (mode : TimeoutMode) {n : Nat} (got : Unfilled n) (sched : Schedule) :
    Result (Buffer n) × Schedule :=
  match readMore mode got.bytes.length (n - got.bytes.length) sched with
  | (.ok more, sched) => (.ok ⟨got.bytes ++ more.1, filled_length got (by have := got.room; omega) more⟩, sched)
  | (.error e, sched) => (.error e, sched)

def ReaderPc.resume : ReaderPc → Schedule → Result IncomingFrame × Schedule
  | .size got, sched =>
    match resumeExact .returnTimeout got sched with
    | (.error e, sched) => (.error e, sched)
    | (.ok sizeBuf, sched) => readDeclared sizeBuf sched
  | .body sizeBuf _ _ got, sched =>
    match resumeExact .treatAsError got sched with
    | (.error e, sched) => (.error e, sched)
    | (.ok filled, sched) => (parseFullFrame sizeBuf filled, sched)

def Turn.resume (mode : TimeoutMode) {n : Nat} (rest : Schedule) : Turn n → Result (Buffer n) × Schedule
  | .again got => resumeExact mode got rest
  | .full bytes => (.ok bytes, rest)
  | .failed e => (.error e, rest)

def ReadStep.resume (rest : Schedule) : ReadStep → Result IncomingFrame × Schedule
  | .more reader => reader.resume rest
  | .done reply => (reply, rest)

variable {mode : TimeoutMode} {n : Nat} {got : Unfilled n} {outcome : RecvOutcome}

theorem resumeExact_eq {need : Nat} (left : got.bytes.length + need = n) (sched : Schedule) :
    resumeExact mode got sched =
      match readMore mode got.bytes.length need sched with
      | (.ok more, sched) => (.ok ⟨got.bytes ++ more.1, filled_length got left more⟩, sched)
      | (.error e, sched) => (.error e, sched) := by
  obtain rfl : need = n - got.bytes.length := by omega
  unfold resumeExact
  rcases readMore mode got.bytes.length (n - got.bytes.length) sched with ⟨e | more, after⟩ <;> rfl

theorem resumeExact_start (room : ([] : Bytes).length < n) (sched : Schedule) :
    resumeExact mode (⟨[], room⟩ : Unfilled n) sched = readExact n mode sched := by
  rw [resumeExact_eq (Nat.zero_add n)]
  show _ = readMore mode 0 n sched
  rcases readMore mode 0 n sched with ⟨e | more, after⟩ <;> rfl

theorem readMore_none {received need : Nat} (nothing : need = 0) (sched : Schedule) :
    readMore mode received need sched = (.ok ⟨[], nothing.symm⟩, sched) := by
  subst nothing
  cases sched <;> rfl

theorem resumeExact_turn {turn : Turn n} (took : readTurn mode got outcome = some turn) (rest : Schedule) :
    resumeExact mode got (outcome :: rest) = turn.resume mode rest := by
  have room := got.room
  obtain ⟨need, left⟩ : ∃ need, got.bytes.length + (need + 1) = n := ⟨n - got.bytes.length - 1, by omega⟩
  rw [resumeExact_eq left]
  cases outcome with
  | data head tail =>
    simp only [readTurn] at took
    split at took
    next room =>
      cases took
      -- The chunk leaves room: both sides go on with the count that is left.
      have chunk : tail.length ≤ need := by
        rw [List.length_append, List.length_cons] at room
        omega
      have rest_left : (got.bytes ++ head :: tail).length + (need - tail.length) = n := by
        rw [List.length_append, List.length_cons]
        omega
      have received : got.bytes.length + (tail.length + 1) = (got.bytes ++ head :: tail).length := by
        rw [List.length_append, List.length_cons]
      simp only [readMore]
      rw [dif_pos chunk, Turn.resume, resumeExact_eq rest_left, received]
      rcases readMore mode (got.bytes ++ head :: tail).length (need - tail.length) rest with ⟨e | more, after⟩
      · rfl
      · simp only [List.append_assoc]
    next =>
      split at took
      next exact =>
        cases took
        -- The chunk fills the buffer, and nothing is left to read.
        have chunk : tail.length = need := by
          rw [List.length_append, List.length_cons] at exact
          omega
        simp only [readMore]
        rw [dif_pos (Nat.le_of_eq chunk), readMore_none (by omega)]
        simp only [List.append_nil, Turn.resume]
      · cases took
  | interrupted =>
    cases took
    exact (resumeExact_eq left rest).symm
  | timeout strerror =>
    simp only [readTurn] at took
    simp only [readMore]
    split at took
    next early =>
      cases took
      rw [if_pos early, Turn.resume]
    next late =>
      cases took
      rw [if_neg late, Turn.resume]
  | failed | endOfStream =>
    cases took
    rfl

namespace ReaderPc
variable {reader reader' : ReaderPc} {e : StreamError}

theorem resume_start (sched : Schedule) : start.resume sched = readFrame sched := by
  rw [start, resume, resumeExact_start]
  unfold readFrame
  rcases readExact 4 .returnTimeout sched with ⟨e | sizeBuf, after⟩ <;> rfl

theorem resume_sized (sizeBuf : Buffer 4) (rest : Schedule) :
    readDeclared sizeBuf rest = (sized sizeBuf).resume rest := by
  unfold sized
  by_cases small : declaredBy sizeBuf < 4
  · rw [readDeclared, if_pos small, dif_pos small, ReadStep.resume]
  · rw [dif_neg small, ReadStep.resume, resume, resumeExact_start]
    unfold readDeclared
    rw [if_neg small]
    rcases readExact (declaredBy sizeBuf).toNat .treatAsError rest with ⟨e | filled, after⟩ <;> rfl

theorem resume_recv {step : ReadStep} (took : reader.recv outcome = some step) (rest : Schedule) :
    reader.resume (outcome :: rest) = step.resume rest := by
  cases reader with
  | size got =>
    obtain ⟨turn, turned, rfl⟩ := Option.map_eq_some_iff.mp took
    rw [resume, resumeExact_turn turned]
    cases turn with
    | again got => rfl
    | full sizeBuf => exact resume_sized sizeBuf rest
    | failed e => rfl
  | body sizeBuf declared same got =>
    obtain ⟨turn, turned, rfl⟩ := Option.map_eq_some_iff.mp took
    rw [resume, resumeExact_turn turned]
    cases turn <;> rfl

end ReaderPc

/-! ## What a `recv` adds -/

def RecvOutcome.bytes : RecvOutcome → Bytes
  | .data head tail => head :: tail
  | _ => []

def RecvOutcome.isTimeout : RecvOutcome → Bool
  | .timeout _ => true
  | _ => false

@[simp] theorem delivered_append (sched more : Schedule) :
    delivered (sched ++ more) = delivered sched ++ delivered more := by
  induction sched with
  | nil => rfl
  | cons outcome sched ih => cases outcome <;> simp [delivered, ih]

@[simp] theorem delivered_single (outcome : RecvOutcome) : delivered [outcome] = outcome.bytes := by
  cases outcome <;> simp [delivered, RecvOutcome.bytes]

def Turn.Adds (mode : TimeoutMode) {n : Nat} (got : Unfilled n) (outcome : RecvOutcome) : Turn n → Prop
  | .again more => more.bytes = got.bytes ++ outcome.bytes
  | .full bytes => bytes.1 = got.bytes ++ outcome.bytes
  | .failed e => outcome.bytes = [] ∧ (e.kind = .requestTimeout →
      mode = .returnTimeout ∧ got.bytes = [] ∧ outcome.isTimeout = true)

theorem readTurn_adds {turn : Turn n} (took : readTurn mode got outcome = some turn) :
    turn.Adds mode got outcome := by
  cases outcome with
  | data head tail =>
    simp only [readTurn] at took
    split at took
    · cases took
      rfl
    · split at took <;> cases took
      rfl
  | interrupted =>
    cases took
    exact (List.append_nil _).symm
  | timeout strerror =>
    simp only [readTurn] at took
    split at took
    next early =>
      cases took
      exact ⟨rfl, fun _ => ⟨early.1, List.eq_nil_of_length_eq_zero early.2, rfl⟩⟩
    next =>
      cases took
      exact ⟨rfl, by simp [recvFailed]⟩
  | failed strerror =>
    cases took
    exact ⟨rfl, by simp [recvFailed]⟩
  | endOfStream =>
    cases took
    exact ⟨rfl, by simp [peerClosed]⟩

namespace ReaderPc
variable {reader reader' : ReaderPc} {e : StreamError}

inductive Move (outcome : RecvOutcome) : ReaderPc → ReadStep → Prop where
  | sizeMore {got more : Unfilled 4} (adds : more.bytes = got.bytes ++ outcome.bytes) :
    Move outcome (.size got) (.more (.size more))
  | tooSmall {got : Unfilled 4} {sizeBuf : Buffer 4} (adds : sizeBuf.1 = got.bytes ++ outcome.bytes)
      (small : declaredBy sizeBuf < 4) : Move outcome (.size got) (.done (.error frameTooSmall))
  | sized {got : Unfilled 4} {sizeBuf : Buffer 4} (adds : sizeBuf.1 = got.bytes ++ outcome.bytes)
      (least : ¬ declaredBy sizeBuf < 4) :
    Move outcome (.size got) (.more (.body sizeBuf (declaredBy sizeBuf) rfl ⟨[], body_room least⟩))
  | sizeFailed {got : Unfilled 4} {e : StreamError} (quiet : outcome.bytes = [])
      (kind : e.kind = .requestTimeout → got.bytes = [] ∧ outcome.isTimeout = true) :
    Move outcome (.size got) (.done (.error e))
  | bodyMore {sizeBuf : Buffer 4} {declared : UInt32} {same : declaredBy sizeBuf = declared}
      {got more : Unfilled declared.toNat} (adds : more.bytes = got.bytes ++ outcome.bytes) :
    Move outcome (.body sizeBuf declared same got) (.more (.body sizeBuf declared same more))
  | parsed {sizeBuf : Buffer 4} {declared : UInt32} {same : declaredBy sizeBuf = declared}
      {got : Unfilled declared.toNat} {filled : Buffer declared.toNat} {reply : Result IncomingFrame}
      (adds : filled.1 = got.bytes ++ outcome.bytes) (parse : parseFullFrame sizeBuf filled = reply) :
    Move outcome (.body sizeBuf declared same got) (.done reply)
  | bodyFailed {sizeBuf : Buffer 4} {declared : UInt32} {same : declaredBy sizeBuf = declared}
      {got : Unfilled declared.toNat} {e : StreamError} (quiet : outcome.bytes = [])
      (kind : e.kind ≠ .requestTimeout) : Move outcome (.body sizeBuf declared same got) (.done (.error e))

theorem recv_move {step : ReadStep} (took : reader.recv outcome = some step) : Move outcome reader step := by
  cases reader with
  | size got =>
    obtain ⟨turn, turned, rfl⟩ := Option.map_eq_some_iff.mp took
    have adds := readTurn_adds turned
    cases turn with
    | again more => exact .sizeMore adds
    | full sizeBuf =>
      by_cases small : declaredBy sizeBuf < 4
      · have refused : ReaderPc.sized sizeBuf = .done (.error frameTooSmall) := dif_pos small
        rw [afterSize, refused]
        exact .tooSmall adds small
      · have accepted : ReaderPc.sized sizeBuf =
            .more (.body sizeBuf (declaredBy sizeBuf) rfl ⟨[], body_room small⟩) := dif_neg small
        rw [afterSize, accepted]
        exact .sized adds small
    | failed e => exact .sizeFailed adds.1 fun kind => (adds.2 kind).2
  | body sizeBuf declared same got =>
    obtain ⟨turn, turned, rfl⟩ := Option.map_eq_some_iff.mp took
    have adds := readTurn_adds turned
    cases turn with
    | again more => exact .bodyMore adds
    | full filled => exact .parsed adds rfl
    | failed e => exact .bodyFailed adds.1 fun kind => by simpa using (adds.2 kind).1

theorem recv_more (took : reader.recv outcome = some (.more reader')) :
    reader'.bytes = reader.bytes ++ outcome.bytes := by
  cases recv_move took with
  | sizeMore adds => exact adds
  | sized adds => exact (List.append_nil _).trans adds
  | bodyMore adds => rw [bytes, bytes, adds, List.append_assoc]

/-- What a reader has in hand is less than a frame. -/
theorem nextFrame_bytes (reader : ReaderPc) : nextFrame reader.bytes = none := by
  cases reader with
  | size got => rw [nextFrame, if_pos (.inl got.room)]
  | body sizeBuf declared same got =>
    have size : declaredSize (sizeBuf.1 ++ got.bytes) = declared.toNat := by
      rw [declaredSize_append, ← declaredBy_toNat, same]
    have short : (sizeBuf.1 ++ got.bytes).length < 4 + declaredSize (sizeBuf.1 ++ got.bytes) := by
      rw [size, List.length_append, sizeBuf.2]
      exact Nat.add_lt_add_left got.room 4
    rw [bytes, nextFrame, if_pos (.inr (.inr short))]

/-- A reader that fails has no frame, and it reports a timeout only if it had nothing. -/
theorem recv_failed (took : reader.recv outcome = some (.done (.error e))) :
    nextFrame (reader.bytes ++ outcome.bytes) = none ∧
      (e.kind = .requestTimeout → reader.bytes = [] ∧ outcome.isTimeout = true) := by
  cases recv_move took with
  | @tooSmall got sizeBuf adds small =>
    have refused : nextFrame (sizeBuf.1 ++ []) = none :=
      nextFrame_small sizeBuf ((declaredBy_small sizeBuf).mp small)
    rw [List.append_nil, adds] at refused
    exact ⟨refused, by simp [frameTooSmall]⟩
  | sizeFailed quiet kind =>
    rw [quiet, List.append_nil]
    exact ⟨nextFrame_bytes _, kind⟩
  | @parsed sizeBuf declared same got filled _ adds parse =>
    subst same
    rw [bytes, List.append_assoc, ← adds]
    by_cases small : ofBigEndian sizeBuf.1 < 4
    · exact ⟨nextFrame_small sizeBuf small, fun kind => absurd kind (parseFullFrame_kind sizeBuf filled parse)⟩
    · have whole := parseFullFrame_cases sizeBuf filled (Nat.not_lt.mp small) []
      rw [parse, List.append_nil] at whole
      rcases whole with ⟨frame, other, _⟩ | ⟨_, same, kind, none⟩
      · cases other
      · cases same
        exact ⟨none, fun timeout => absurd timeout kind⟩
  | bodyFailed quiet kind =>
    rw [quiet, List.append_nil]
    exact ⟨nextFrame_bytes _, fun timeout => absurd timeout kind⟩

/-- A timeout ends the call at once, as what it is only where nothing was in hand. -/
theorem recv_timeout (reader : ReaderPc) (strerror : Bytes) : reader.recv (.timeout strerror) =
    some (.done (.error (if reader.bytes = [] then recvTimeout else recvFailed strerror))) := by
  cases reader with
  | size got =>
    by_cases nothing : got.bytes = []
    · simp [recv, readTurn, afterSize, bytes, nothing]
    · simp [recv, readTurn, afterSize, bytes, nothing]
  | body sizeBuf declared same got =>
    have something : sizeBuf.1 ≠ [] := List.ne_nil_of_length_pos (by rw [sizeBuf.2]; decide)
    simp [recv, readTurn, afterBody, bytes, something]

def declared? : ReaderPc → Option UInt32
  | .size _ => none
  | .body _ declared _ _ => some declared

/-- The size that a `recv` completes the prefix with. -/
def announced (outcome : RecvOutcome) : ReaderPc → Option Nat
  | .size got =>
    if (got.bytes ++ outcome.bytes).length = 4 then some (ofBigEndian (got.bytes ++ outcome.bytes)) else none
  | .body _ _ _ _ => none

theorem declaredSize_bytes {declared : UInt32} (sized : declared ∈ reader.declared?) (more : Bytes) :
    declaredSize (reader.bytes ++ more) = declared.toNat := by
  cases reader with
  | size got => cases sized
  | body sizeBuf declared same got =>
    cases sized
    rw [bytes, List.append_assoc, declaredSize_append, ← declaredBy_toNat, same]

theorem bytes_unsized (unsized : reader.declared? = none) : reader.bytes.length < 4 := by
  cases reader with
  | size got => exact got.room
  | body => cases unsized

theorem announced_full {sizeBuf : Buffer 4} {got : Unfilled 4} (adds : sizeBuf.1 = got.bytes ++ outcome.bytes) :
    (ReaderPc.size got).announced outcome = some (declaredBy sizeBuf).toNat := by
  rw [announced, ← adds, if_pos sizeBuf.2, declaredBy_toNat]

theorem announced_short {got : Unfilled 4} (short : (got.bytes ++ outcome.bytes).length < 4) :
    (ReaderPc.size got).announced outcome = none := by
  rw [announced, if_neg (Nat.ne_of_lt short)]

theorem recv_sized (took : reader.recv outcome = some (.more reader')) {declared : UInt32}
    (sized : declared ∈ reader'.declared?) : declared ∈ reader.declared? ∨
      declared.toNat ∈ reader.announced outcome ∧ ¬ declared < 4 := by
  cases recv_move took with
  | sizeMore => cases sized
  | sized adds least =>
    cases sized
    exact .inr ⟨announced_full adds, least⟩
  | bodyMore => exact .inl sized

theorem recv_announced {step : ReadStep} (took : reader.recv outcome = some step) {size : Nat}
    (announces : size ∈ reader.announced outcome) (least : 4 ≤ size) : ∃ reader' declared, step = .more reader' ∧
      declared ∈ reader'.declared? ∧ declared.toNat = size := by
  cases recv_move took with
  | sizeMore adds =>
    rw [announced_short (by rw [← adds]; exact Unfilled.room _)] at announces
    cases announces
  | @tooSmall got sizeBuf adds small =>
    rw [announced_full adds] at announces
    cases announces
    exact absurd (UInt32.lt_iff_toNat_lt.mp small) (Nat.not_lt.mpr least)
  | @sized got sizeBuf adds =>
    rw [announced_full adds] at announces
    cases announces
    exact ⟨_, declaredBy sizeBuf, rfl, rfl, rfl⟩
  | @sizeFailed got e quiet =>
    rw [announced_short (by rw [quiet, List.append_nil]; exact got.room)] at announces
    cases announces
  | bodyMore | parsed | bodyFailed => cases announces

theorem recv_frame_sized {frame : IncomingFrame} (took : reader.recv outcome = some (.done (.ok frame))) :
    ∃ declared, declared ∈ reader.declared? := by
  cases recv_move took with
  | parsed => exact ⟨_, rfl⟩

theorem recv_failed_sized (took : reader.recv outcome = some (.done (.error e)))
    (whole : 4 ≤ (reader.bytes ++ outcome.bytes).length) : (∃ declared, declared ∈ reader.declared?) ∨
      (reader.bytes ++ outcome.bytes).length = 4 ∧ e = frameTooSmall := by
  cases recv_move took with
  | @tooSmall got sizeBuf adds => exact .inr ⟨by rw [bytes, ← adds, sizeBuf.2], rfl⟩
  | @sizeFailed got _ quiet =>
    rw [quiet, List.append_nil] at whole
    exact absurd got.room (Nat.not_lt.mpr whole)
  | parsed | bodyFailed => exact .inl ⟨_, rfl⟩

end ReaderPc
end RmqStream
