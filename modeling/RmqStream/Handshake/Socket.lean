import RmqStream.Handshake.Limits

/-! `run_handshake` with `SocketReader` under it.

Its replies are what the calls of `read_frame` return one after the other, over whatever
`recv` returns. The reader keeps nothing between two calls, so that `io_loop` goes on with
the byte behind the last reply. -/

set_option autoImplicit false

namespace RmqStream
open Library Commands

/-- What the calls of `read_frame` return, up to the first that fails. After that a
handshake reads no more. -/
def repliesOf (sched : Schedule) : List Reply :=
  match run : readFrame sched with
  | (.ok frame, after) =>
    have := (readFrame_ok run).2
    .ok frame :: repliesOf after
  | (.error e, _) => [.error e]
termination_by weight sched

inductive Reads : Schedule → List Reply → Schedule → Prop where
  | none {sched : Schedule} : Reads sched [] sched
  | read {sched middle after : Schedule} {reply : Reply} {replies : List Reply} :
      readFrame sched = (reply, middle) → Reads middle replies after → Reads sched (reply :: replies) after

def greet (cfg : ConnectionConfig) (sched : Schedule) : Result HandshakeResult × Channel :=
  (runHandshake cfg).run ⟨repliesOf sched, []⟩

def receivedFrames (trace : List Event) : List IncomingFrame := (receivedReplies trace).filterMap Except.toOption

theorem repliesOf_ok {sched after : Schedule} {frame : IncomingFrame} (run : readFrame sched = (.ok frame, after)) :
    repliesOf sched = .ok frame :: repliesOf after := by
  rw [repliesOf]
  split
  · next same => rw [run] at same; cases same; rfl
  · next same => rw [run] at same; cases same

theorem repliesOf_error {sched after : Schedule} {e : StreamError} (run : readFrame sched = (.error e, after)) :
    repliesOf sched = [.error e] := by
  rw [repliesOf]
  split
  · next same => rw [run] at same; cases same
  · next same => rw [run] at same; cases same; rfl

theorem reads_of_front {sched : Schedule} {used rest : List Reply} (front : used ++ rest = repliesOf sched) :
    ∃ after, Reads sched used after := by
  induction used generalizing sched with
  | nil => exact ⟨sched, .none⟩
  | cons reply used ih =>
    rcases run : readFrame sched with ⟨e | frame, middle⟩
    · rw [repliesOf_error run] at front
      obtain ⟨rfl, nothing⟩ := List.cons.inj front
      obtain ⟨rfl, rfl⟩ := List.append_eq_nil_iff.mp nothing
      exact ⟨middle, .read run .none⟩
    · rw [repliesOf_ok run] at front
      obtain ⟨rfl, behind⟩ := List.cons.inj front
      obtain ⟨after, reads⟩ := ih behind
      exact ⟨after, .read run reads⟩

theorem Reads.front {sched after : Schedule} {replies : List Reply} (reads : Reads sched replies after)
    (succeed : ∀ reply ∈ replies, ∃ frame, reply = .ok frame) : repliesOf sched = replies ++ repliesOf after := by
  induction reads with
  | none => rfl
  | read run _ ih =>
    obtain ⟨frame, rfl⟩ := succeed _ List.mem_cons_self
    rw [repliesOf_ok run, ih fun reply member => succeed reply (List.mem_cons_of_mem _ member)]
    rfl

theorem Reads.polls {sched middle after : Schedule} {replies : List Reply} {yielded : List IncomingFrame}
    (before : Polls sched yielded middle) (reads : Reads middle replies after)
    (succeed : ∀ reply ∈ replies, ∃ frame, reply = .ok frame) :
    Polls sched (yielded ++ replies.filterMap Except.toOption) after := by
  induction reads generalizing yielded with
  | none => simpa using before
  | read run _ ih =>
    obtain ⟨frame, rfl⟩ := succeed _ List.mem_cons_self
    have next := ih (before.frame run) fun reply member => succeed reply (List.mem_cons_of_mem _ member)
    rw [List.append_assoc] at next
    exact next

theorem nextFrame_followed {bytes rest : Bytes} {frame : IncomingFrame}
    (found : nextFrame bytes = some (frame, rest)) (tail : Bytes) :
    declaredSize (bytes ++ tail) = declaredSize bytes ∧ nextFrame (bytes ++ tail) = some (frame, rest ++ tail) := by
  obtain ⟨least, fits, rfl⟩ := nextFrame_shorter found
  have size : declaredSize (bytes ++ tail) = declaredSize bytes := by
    rw [declaredSize, List.take_append_of_le_length (by omega), declaredSize]
  have payload : ((bytes ++ tail).drop 4).take (declaredSize bytes) = (bytes.drop 4).take (declaredSize bytes) := by
    rw [List.drop_append_of_le_length (by omega), List.take_append_of_le_length (by rw [List.length_drop]; omega)]
  refine ⟨size, ?_⟩
  rw [nextFrame, if_neg (by omega)] at found
  rw [nextFrame, size, payload, List.drop_append_of_le_length fits, if_neg (by rw [List.length_append]; omega)]
  obtain ⟨frame', parses, same⟩ := Option.map_eq_some_iff.mp found
  cases same
  rw [parses]
  rfl

/-- Calls that succeed and take everything have taken whole frames, also of a longer stream. -/
theorem Reads.stream {sched after : Schedule} {replies : List Reply} (reads : Reads sched replies after)
    (nothing : delivered after = []) (succeed : ∀ reply ∈ replies, ∃ frame, reply = .ok frame) (tail : Bytes) :
    FrameBoundary (delivered sched ++ tail) (delivered sched).length ∧
      frames (delivered sched ++ tail) = replies.filterMap Except.toOption ++ frames tail := by
  induction reads with
  | none => simp [nothing, FrameBoundary.zero]
  | @read sched middle after reply replies run _ ih =>
    obtain ⟨frame, rfl⟩ := succeed _ List.mem_cons_self
    obtain ⟨boundary, all⟩ := ih nothing fun reply member => succeed reply (List.mem_cons_of_mem _ member)
    have found := (readFrame_ok run).1
    obtain ⟨_, fits, rest⟩ := nextFrame_shorter found
    obtain ⟨size, next⟩ := nextFrame_followed found tail
    constructor
    · have moved := FrameBoundary.next next boundary
      rw [size, rest, List.length_drop] at moved
      have length : 4 + declaredSize (delivered sched) +
          ((delivered sched).length - (4 + declaredSize (delivered sched))) = (delivered sched).length := by omega
      rwa [length] at moved
    · rw [frames_some next, all]
      rfl

/-! ## What the handshake reads -/

def Read (script : List Reply) (ch : Channel) : Prop := receivedReplies ch.trace ++ ch.script = script

def ReadFrames (script : List Reply) (ch : Channel) : Prop :=
  Read script ch ∧ ∀ reply ∈ receivedReplies ch.trace, ∃ frame, reply = .ok frame

/-- A step reads from the front, and only a step that fails has read a failure. -/
def FromFront {α : Type} (m : Handshake α) : Prop :=
  ∀ script, m.Ensures (ReadFrames script) (fun _ => ReadFrames script) (Read script)

namespace FromFront
variable {α β γ : Type}

theorem pure (value : α) : FromFront (pure value : Handshake α) :=
  fun _ => .pure fun _ => id

theorem fail (e : StreamError) : FromFront (Fallible.fail e : Handshake α) :=
  fun _ => .fail fun _ => And.left

theorem ofExcept (result : Result α) : FromFront (Fallible.ofExcept result : Handshake α) := by
  intro script ch start
  cases result with
  | error e => exact start.1
  | ok value => exact start

theorem bind {m : Handshake α} {next : α → Handshake β} (first : FromFront m)
    (second : ∀ value, FromFront (next value)) : FromFront (m >>= next) :=
  fun script => (first script).bind fun value => second value script

theorem ite {m n : Handshake α} {p : Prop} [Decidable p] (left : FromFront m) (right : FromFront n) :
    FromFront (if p then m else n) := by
  split
  · exact left
  · exact right

theorem writeFrame (frame : Bytes) : FromFront (RmqStream.writeFrame frame) := by
  intro script ch start
  have same : receivedReplies (ch.trace ++ [.sent frame]) = receivedReplies ch.trace := by simp
  show ReadFrames script { ch with trace := ch.trace ++ [.sent frame] }
  rwa [ReadFrames, Read, same]

theorem nextReply : FromFront RmqStream.nextReply := by
  rintro script ⟨rest, trace⟩ ⟨front, succeed⟩
  cases rest with
  | nil => exact front
  | cons reply rest =>
    have moved : receivedReplies (trace ++ [.received reply]) ++ rest = script := by
      rw [receivedReplies_append, receivedReplies_received, List.append_assoc]
      exact front
    cases reply with
    | error e => exact moved
    | ok frame =>
      refine ⟨moved, ?_⟩
      show ∀ reply ∈ receivedReplies (trace ++ [.received (.ok frame)]), _
      rw [receivedReplies_append]
      intro reply member
      rcases List.mem_append.mp member with old | new
      · exact succeed reply old
      · exact ⟨frame, List.mem_singleton.mp new⟩

theorem recvResponse [Command α] (cid : UInt32) : FromFront (RmqStream.recvResponse α cid) :=
  nextReply.bind fun _ => .ite (fail _) (.ite (fail _) (ofExcept _))

theorem exchange [Command α] [Command β] (cmd : α) (cid limit : UInt32) (verdict : β → Result γ) :
    FromFront (do
      sendRequest cmd cid limit
      let resp ← RmqStream.recvResponse β cid
      Fallible.ofExcept (verdict resp)) :=
  ((ofExcept _).bind fun _ => writeFrame _).bind fun _ => (recvResponse cid).bind fun _ => ofExcept _

theorem saslAuthenticateLoop (cfg : ConnectionConfig) (rounds : Nat) (cid : UInt32) :
    FromFront (RmqStream.saslAuthenticateLoop cfg rounds cid) := by
  induction rounds generalizing cid with
  | zero => exact fail _
  | succ rounds ih => exact (exchange _ _ _ _).bind fun _ => .ite (pure _) (ih _)

theorem tuneStep (cfg : ConnectionConfig) : FromFront (RmqStream.tuneStep cfg) := by
  have receive : FromFront (recvOneway Tune) := nextReply.bind fun _ => .ite (fail _) (ofExcept _)
  exact receive.bind fun _ => ((ofExcept _).bind fun _ => writeFrame _).bind fun _ => pure _

theorem runHandshake (cfg : ConnectionConfig) : FromFront (RmqStream.runHandshake cfg) := by
  have authenticate : FromFront (saslAuthenticateStep cfg 3) := fun script ch start =>
    saslAuthenticateLoop cfg (ch.script.length + 1) 3 script ch start
  exact (exchange _ _ _ _).bind fun _ => (exchange _ _ _ _).bind fun _ => authenticate.bind fun _ =>
    (tuneStep cfg).bind fun _ => (exchange _ _ _ _).bind fun _ => pure _

end FromFront

section Greet
variable {cfg : ConnectionConfig} {sched : Schedule}

theorem greet_front (cfg : ConnectionConfig) (sched : Schedule) :
    Read (repliesOf sched) (greet cfg sched).2 := by
  have done := FromFront.runHandshake cfg (repliesOf sched) ⟨repliesOf sched, []⟩ ⟨rfl, by simp [receivedReplies]⟩
  unfold greet
  split at done
  next value after run => rw [run]; exact done.1
  next e after run => rw [run]; exact done

theorem greet_succeed {result : HandshakeResult} (accepted : (greet cfg sched).1 = .ok result) :
    ∀ reply ∈ receivedReplies (greet cfg sched).2.trace, ∃ frame, reply = .ok frame := by
  have done := FromFront.runHandshake cfg (repliesOf sched) ⟨repliesOf sched, []⟩ ⟨rfl, by simp [receivedReplies]⟩
  unfold greet at accepted ⊢
  split at done
  next value after run => rw [run]; exact done.2
  next e after run => rw [run] at accepted; cases accepted

end Greet

/-! ## Schedules that end with the peer -/

/-- Nothing times out or fails, and nothing comes behind the end of the stream. -/
def Steady : Schedule → Prop
  | [] => True
  | .data _ _ :: sched | .interrupted :: sched => Steady sched
  | .timeout _ :: _ | .failed _ :: _ => False
  | .endOfStream :: sched => delivered sched = []

theorem steady_leftover {rest : Bytes} {sched : Schedule} (steady : Steady sched) : Steady (leftover rest sched) := by
  cases rest with
  | nil => exact steady
  | cons head tail => exact steady

theorem readMore_steady (mode : TimeoutMode) (received need : Nat) (sched : Schedule) (steady : Steady sched) :
    match readMore mode received need sched with
    | (.ok _, after) => Steady after
    | (.error e, _) => e = peerClosed ∧ (delivered sched).length < need := by
  induction sched generalizing received need with
  | nil =>
    cases need with
    | zero => trivial
    | succ need => exact ⟨rfl, Nat.succ_pos _⟩
  | cons outcome sched ih =>
    cases need with
    | zero => simpa [readMore] using steady
    | succ need =>
      cases outcome with
      | endOfStream => exact ⟨rfl, by simp [delivered, show delivered sched = [] from steady]⟩
      | timeout | failed => exact steady.elim
      | interrupted => exact ih received (need + 1) steady
      | data head tail =>
        simp only [readMore]
        by_cases chunk : tail.length ≤ need
        · rw [dif_pos chunk]
          have next := ih (received + (tail.length + 1)) (need - tail.length) steady
          split at next
          next more after run => simpa only [run] using next
          next e after run =>
            simp only [run]
            refine ⟨next.1, ?_⟩
            have short := next.2
            simp only [delivered, List.length_append, List.length_cons]
            omega
        · rw [dif_neg chunk]
          exact steady_leftover steady

theorem readExact_steady (n : Nat) (mode : TimeoutMode) {sched other : Schedule} (steady : Steady sched)
    (also : Steady other) (same : delivered other = delivered sched) :
    match readExact n mode sched with
    | (.ok bytes, after) => Steady after ∧ ∃ rest, readExact n mode other = (.ok bytes, rest) ∧ Steady rest ∧
        delivered rest = delivered after
    | (.error e, _) => ∃ rest, readExact n mode other = (.error e, rest) := by
  have first := readMore_steady mode 0 n sched steady
  have second := readMore_steady mode 0 n other also
  have takes := readMore_takes mode 0 n sched
  have alike := readMore_takes mode 0 n other
  unfold readExact
  rcases run : readMore mode 0 n sched with ⟨e | bytes, after⟩ <;>
    rcases again : readMore mode 0 n other with ⟨e' | bytes', rest⟩ <;>
    rw [run] at first takes <;> rw [again] at second alike
  · exact ⟨rest, by rw [first.1, second.1]⟩
  · -- The bytes are too few for the one and enough for the other.
    have short := first.2
    rw [← same, alike.1, List.length_append, bytes'.2] at short
    omega
  · have short := second.2
    rw [same, takes.1, List.length_append, bytes.2] at short
    omega
  · have split := takes.1
    rw [← same, alike.1] at split
    obtain ⟨front, back⟩ := List.append_inj split (by rw [bytes.2, bytes'.2])
    exact ⟨first, rest, by rw [Subtype.ext front], second, back⟩

theorem readFrame_steady {sched other : Schedule} (steady : Steady sched) (also : Steady other)
    (same : delivered other = delivered sched) :
    match readFrame sched with
    | (.ok frame, after) => Steady after ∧ ∃ rest, readFrame other = (.ok frame, rest) ∧ Steady rest ∧
        delivered rest = delivered after
    | (.error e, _) => ∃ rest, readFrame other = (.error e, rest) := by
  have size := readExact_steady 4 .returnTimeout steady also same
  unfold readFrame
  rcases sized : readExact 4 .returnTimeout sched with ⟨e | sizeBuf, middle⟩
  · rw [sized] at size
    obtain ⟨rest, again⟩ := size
    rw [again]
    exact ⟨rest, rfl⟩
  rw [sized] at size
  obtain ⟨goes, rest, again, steadily, equal⟩ := size
  rw [again]
  simp only [readDeclared]
  by_cases small : declaredBy sizeBuf < 4
  · simp only [if_pos small]
    exact ⟨rest, rfl⟩
  simp only [if_neg small]
  have body := readExact_steady (declaredBy sizeBuf).toNat .treatAsError goes steadily equal
  rcases filled : readExact (declaredBy sizeBuf).toNat .treatAsError middle with ⟨e | bytes, after⟩
  · rw [filled] at body
    obtain ⟨rest', again'⟩ := body
    simp only [again']
    exact ⟨rest', rfl⟩
  rw [filled] at body
  obtain ⟨goes', rest', again', steadily', equal'⟩ := body
  simp only [again']
  cases parseFullFrame sizeBuf bytes with
  | error e => exact ⟨rest', rfl⟩
  | ok frame => exact ⟨goes', rest', rfl, steadily', equal'⟩

/-- The replies are those of the bytes, however they come. -/
theorem repliesOf_steady {sched other : Schedule} (steady : Steady sched) (also : Steady other)
    (same : delivered other = delivered sched) : repliesOf other = repliesOf sched := by
  fun_induction repliesOf sched generalizing other with
  | case1 sched frame after run _ ih =>
    have next := readFrame_steady steady also same
    rw [run] at next
    obtain ⟨goes, rest, again, steadily, equal⟩ := next
    rw [repliesOf_ok again, ih goes steadily equal]
  | case2 sched e after run =>
    have next := readFrame_steady steady also same
    rw [run] at next
    obtain ⟨rest, again⟩ := next
    rw [repliesOf_error again]

theorem cleanFrom_of_steady {bytes : Bytes} {pos : Nat} {sched : Schedule} (steady : Steady sched) :
    CleanFrom bytes pos sched := by
  induction sched generalizing pos with
  | nil => trivial
  | cons outcome sched ih =>
    cases outcome with
    | data head tail => exact ih steady
    | interrupted => exact ih steady
    | timeout | failed => exact steady.elim
    | endOfStream => exact steady

theorem readFrame_steady_kind {sched after : Schedule} {e : StreamError} (steady : Steady sched)
    (run : readFrame sched = (.error e, after)) : e.kind ≠ .requestTimeout := by
  have first := readMore_steady .returnTimeout 0 4 sched steady
  unfold readFrame readExact at run
  rcases sized : readMore .returnTimeout 0 4 sched with ⟨e' | sizeBuf, middle⟩
  · rw [sized] at first run
    cases run
    simp [first.1, peerClosed]
  · rw [sized] at run
    have declared := readDeclared_takes sizeBuf middle
    rwa [show readDeclared sizeBuf middle = _ from run] at declared

theorem repliesOf_frames {sched : Schedule} (steady : Steady sched) :
    ∃ e, repliesOf sched = (frames (delivered sched)).map .ok ++ [.error e] := by
  fun_induction repliesOf sched with
  | case1 sched frame after run _ ih =>
    have next := readFrame_steady steady steady rfl
    rw [run] at next
    obtain ⟨e, rest⟩ := ih next.1
    exact ⟨e, by rw [frames_some (readFrame_ok run).1, rest]; rfl⟩
  | case2 sched e after run =>
    have clean : CleanFrom (delivered sched) 0 sched := cleanFrom_of_steady steady
    have stops := readFrame_clean rfl .zero clean
    rw [run] at stops
    simp only [readFrame_steady_kind steady run, ↓reduceIte] at stops
    exact ⟨e, by rw [frames_none stops]; rfl⟩

structure OverSocket (cfg : ConnectionConfig) (sched : Schedule) : Prop where
  calls : ∃ after, Reads sched (receivedReplies (greet cfg sched).2.trace) after
  leaves : ∀ result after, (greet cfg sched).1 = .ok result →
    Reads sched (receivedReplies (greet cfg sched).2.trace) after →
      (∃ n, FrameBoundary (delivered sched) n ∧ delivered after = (delivered sched).drop n) ∧
      frames (delivered sched) = receivedFrames (greet cfg sched).2.trace ++ frames (delivered after) ∧
      pollFrames sched = receivedFrames (greet cfg sched).2.trace ++ pollFrames after
  chunking : Steady sched → ∀ other, Steady other → delivered other = delivered sched →
    greet cfg other = greet cfg sched
  contiguous : Steady sched → ∃ e,
    greet cfg sched = (runHandshake cfg).run ⟨(frames (delivered sched)).map .ok ++ [.error e], []⟩

theorem handshake_over_socket (cfg : ConnectionConfig) (sched : Schedule) : OverSocket cfg sched where
  calls := reads_of_front (greet_front cfg sched)
  leaves result after accepted reads := by
    have polls := reads.polls .start (greet_succeed accepted)
    rw [List.nil_append] at polls
    obtain ⟨n, boundary, rest, all⟩ := polls_boundary polls
    exact ⟨⟨n, boundary, rest⟩, all, polls_pollFrames polls⟩
  chunking steady other also same := by
    rw [greet, repliesOf_steady steady also same, greet]
  contiguous steady := by
    obtain ⟨e, replies⟩ := repliesOf_frames steady
    exact ⟨e, by rw [greet, replies]⟩

end RmqStream
