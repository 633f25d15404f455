import RmqStream.Library.Fallible

/-! Bounded read cursors and decoders that keep their position on failure.

A cursor never leaves its buffer: the bound is a field. A decoder returns the
cursor it stopped at in both outcomes, so partial consumption before a failure
stays visible. Two laws are composed below: `Reads` says a decoder recovers one
value from its bytes whatever follows, `Sound` bounds every outcome on every
buffer. -/

set_option autoImplicit false

namespace RmqStream.Library

/-- A position inside a buffer whose length is below `capacity`. -/
structure Cursor (α : Type) (capacity : Nat) where
  data : List α
  pos : Nat
  inBounds : pos ≤ data.length
  addressable : data.length < capacity

namespace Cursor
variable {α : Type} {capacity : Nat}

def start (data : List α) (addressable : data.length < capacity) : Cursor α capacity :=
  ⟨data, 0, Nat.zero_le _, addressable⟩

def remaining (c : Cursor α capacity) : Nat := c.data.length - c.pos

def rest (c : Cursor α capacity) : List α := c.data.drop c.pos

def skip (c : Cursor α capacity) (n : Nat) : Cursor α capacity :=
  if inside : n ≤ c.remaining then
    { c with pos := c.pos + n, inBounds := by have := c.inBounds; unfold remaining at inside; omega }
  else c

theorem ext {c d : Cursor α capacity} (data : c.data = d.data) (pos : c.pos = d.pos) : c = d := by
  cases c; cases d; cases data; cases pos; rfl

@[simp] theorem start_rest (data : List α) (addressable : data.length < capacity) :
    (start data addressable).rest = data := by
  simp [start, rest]

@[simp] theorem rest_length (c : Cursor α capacity) : c.rest.length = c.remaining := by
  simp [rest, remaining]

theorem skip_data (c : Cursor α capacity) (n : Nat) : (c.skip n).data = c.data := by
  unfold skip; split <;> rfl

theorem skip_pos (c : Cursor α capacity) {n : Nat} (inside : n ≤ c.remaining) :
    (c.skip n).pos = c.pos + n := by
  simp [skip, inside]

theorem skip_rest (c : Cursor α capacity) {n : Nat} (inside : n ≤ c.remaining) :
    (c.skip n).rest = c.rest.drop n := by
  simp [rest, skip_data, skip_pos c inside, List.drop_drop]

theorem skip_remaining (c : Cursor α capacity) {n : Nat} (inside : n ≤ c.remaining) :
    (c.skip n).remaining = c.remaining - n := by
  rw [← rest_length, skip_rest c inside, List.length_drop, rest_length]

@[simp] theorem skip_zero (c : Cursor α capacity) : c.skip 0 = c :=
  ext (skip_data c 0) (skip_pos c (Nat.zero_le _))

theorem skip_skip (c : Cursor α capacity) {m n : Nat} (first : m ≤ c.remaining)
    (second : n ≤ c.remaining - m) : (c.skip m).skip n = c.skip (m + n) := by
  have inner : n ≤ (c.skip m).remaining := by rw [skip_remaining c first]; exact second
  apply ext
  · simp only [skip_data]
  · rw [skip_pos _ inner, skip_pos c first, skip_pos c (by omega), Nat.add_assoc]

theorem remaining_of_rest {c : Cursor α capacity} {front tail : List α}
    (split : c.rest = front ++ tail) : front.length ≤ c.remaining := by
  rw [← rest_length, split, List.length_append]
  exact Nat.le_add_right _ _

theorem skip_rest_of_append {c : Cursor α capacity} {front tail : List α}
    (split : c.rest = front ++ tail) : (c.skip front.length).rest = tail := by
  rw [skip_rest c (remaining_of_rest split), split, List.drop_left]

end Cursor

abbrev Decoder (α : Type) (capacity : Nat) (ε β : Type) := Fallible (Cursor α capacity) ε β

namespace Decoder
open Fallible
variable {α : Type} {capacity : Nat} {ε β γ : Type}

/-- The next `n` items, or `short` with the cursor unmoved. -/
def take (n : Nat) (short : ε) : Decoder α capacity ε (List α) := ⟨fun c =>
  if n > c.remaining then (.error short, c) else (.ok (c.rest.take n), c.skip n)⟩

def remaining : Decoder α capacity ε Nat := ⟨fun c => (.ok c.remaining, c)⟩

def position : Decoder α capacity ε Nat := ⟨fun c => (.ok c.pos, c)⟩

def atEnd : Decoder α capacity ε Bool := ⟨fun c => (.ok (c.remaining == 0), c)⟩

def times (d : Decoder α capacity ε β) : Nat → Decoder α capacity ε (List β)
  | 0 => pure []
  | count + 1 => do
    let value ← d
    let values ← times d count
    pure (value :: values)

@[simp] theorem run_position (c : Cursor α capacity) :
    (position : Decoder α capacity ε Nat).run c = (.ok c.pos, c) := rfl

@[simp] theorem run_remaining (c : Cursor α capacity) :
    (remaining : Decoder α capacity ε Nat).run c = (.ok c.remaining, c) := rfl

/-- Whenever the unread bytes begin with `bytes`, the decoder returns `value`
and stops right after them. -/
def Reads (d : Decoder α capacity ε β) (bytes : List α) (value : β) : Prop :=
  ∀ (c : Cursor α capacity) (tail : List α), c.rest = bytes ++ tail →
    d.run c = (.ok value, c.skip bytes.length)

namespace Reads

theorem pure (value : β) : Reads (pure value : Decoder α capacity ε β) [] value := by
  intro c tail _
  simp

theorem bind {d : Decoder α capacity ε β} {next : β → Decoder α capacity ε γ}
    {front back : List α} {value : β} {result : γ}
    (first : Reads d front value) (second : Reads (next value) back result) :
    Reads (d >>= next) (front ++ back) result := by
  intro c tail split
  have frontSplit : c.rest = front ++ (back ++ tail) := by rw [split, List.append_assoc]
  have inside := Cursor.remaining_of_rest frontSplit
  have backInside := Cursor.remaining_of_rest (Cursor.skip_rest_of_append frontSplit)
  rw [Cursor.skip_remaining c inside] at backInside
  rw [bind_ok (first c _ frontSplit), second _ tail (Cursor.skip_rest_of_append frontSplit),
    Cursor.skip_skip c inside backInside, List.length_append]

theorem last {d : Decoder α capacity ε β} {next : β → Decoder α capacity ε γ}
    {bytes : List α} {value : β} {result : γ}
    (first : Reads d bytes value) (finish : next value = Pure.pure result) :
    Reads (d >>= next) bytes result := by
  have joined : Reads (d >>= next) (bytes ++ []) result :=
    first.bind (finish ▸ pure result)
  rwa [List.append_nil] at joined

theorem take (bytes : List α) (short : ε) :
    Reads (Decoder.take bytes.length short : Decoder α capacity ε (List α)) bytes bytes := by
  intro c tail split
  have inside := Cursor.remaining_of_rest split
  simp only [Decoder.take, Nat.not_lt.mpr inside, split, List.take_left, ↓reduceIte]

theorem atEnd {next : Bool → Decoder α capacity ε β} {bytes : List α} {value : β}
    (nonempty : bytes ≠ []) (rest : Reads (next false) bytes value) :
    Reads (Decoder.atEnd >>= next) bytes value := by
  intro c tail split
  have positive : 0 < bytes.length := List.length_pos_iff.mpr nonempty
  have inside := Cursor.remaining_of_rest split
  have first : (Decoder.atEnd : Decoder α capacity ε Bool).run c = (.ok false, c) := by
    simp only [Decoder.atEnd, Prod.mk.injEq, Except.ok.injEq, beq_eq_false_iff_ne, and_true]
    omega
  rw [bind_ok first]
  exact rest c tail split

theorem times {ι : Type} {d : Decoder α capacity ε β} {encode : ι → List α} {value : ι → β} {items : List ι}
    (each : ∀ item ∈ items, Reads d (encode item) (value item)) :
    Reads (d.times items.length) (items.flatMap encode) (items.map value) := by
  induction items with
  | nil => exact pure []
  | cons item items ih =>
    have tail := ih (fun other member => each other (List.mem_cons_of_mem item member))
    have joined : Reads (d.times (items.length + 1))
        (encode item ++ (items.flatMap encode ++ [])) (value item :: items.map value) :=
      (each item List.mem_cons_self).bind (tail.bind (pure (value item :: items.map value)))
    simpa using joined

end Reads

/-! ## Bounding every outcome -/

/-- Every outcome stays inside the buffer. A success relates the consumed bytes,
the bytes left and the value by `post`; every error satisfies `fails`. -/
structure Sound (d : Decoder α capacity ε β) (fails : ε → Prop)
    (post : List α → List α → β → Prop) : Prop where
  ok : ∀ c value after, d.run c = (.ok value, after) →
    ∃ n ≤ c.remaining, after = c.skip n ∧ post (c.rest.take n) (c.rest.drop n) value
  error : ∀ c e after, d.run c = (.error e, after) → fails e ∧ ∃ n ≤ c.remaining, after = c.skip n

namespace Sound
variable {fails : ε → Prop}

theorem mono {d : Decoder α capacity ε β} {post weaker : List α → List α → β → Prop}
    (sound : Sound d fails post) (weaken : ∀ bytes tail value, post bytes tail value → weaker bytes tail value) :
    Sound d fails weaker where
  ok c value after run := by
    obtain ⟨n, inside, moved, holds⟩ := sound.ok c value after run
    exact ⟨n, inside, moved, weaken _ _ _ holds⟩
  error := sound.error

theorem pure (value : β) :
    Sound (pure value : Decoder α capacity ε β) fails (fun bytes _ result => bytes = [] ∧ result = value) where
  ok c result after run := by
    rw [run_pure, Prod.mk.injEq, Except.ok.injEq] at run
    exact ⟨0, Nat.zero_le _, by simp [run.2], by simp [run.1]⟩
  error c e after run := by simp at run

theorem fail {e : ε} (bad : fails e) (post : List α → List α → β → Prop) :
    Sound (Fallible.fail e : Decoder α capacity ε β) fails post where
  ok c result after run := by simp [Fallible.fail] at run
  error c e' after run := by
    simp only [Fallible.fail, Prod.mk.injEq, Except.error.injEq] at run
    exact ⟨run.1 ▸ bad, 0, Nat.zero_le _, by simp [run.2]⟩

theorem bind {d : Decoder α capacity ε β} {next : β → Decoder α capacity ε γ}
    {first : List α → List α → β → Prop} {second : β → List α → List α → γ → Prop}
    (left : Sound d fails first) (right : ∀ value, Sound (next value) fails (second value)) :
    Sound (d >>= next) fails (fun bytes tail result => ∃ front back value,
      bytes = front ++ back ∧ first front (back ++ tail) value ∧ second value back tail result) := by
  -- Both outcomes of the second decoder start where the first one stopped.
  have run_cases : ∀ c outcome, (d >>= next).run c = outcome →
      (∃ e after, d.run c = (.error e, after) ∧ outcome = (.error e, after)) ∨
      ∃ value after, d.run c = (.ok value, after) ∧ (next value).run after = outcome := by
    intro c outcome run
    rcases started : d.run c with ⟨e | value, after⟩
    · exact .inl ⟨e, after, rfl, by rw [← run, bind_error started]⟩
    · exact .inr ⟨value, after, rfl, by rw [← run, bind_ok started]⟩
  constructor
  · intro c result after run
    rcases run_cases c _ run with ⟨e, middle, _, impossible⟩ | ⟨value, middle, started, finished⟩
    · simp at impossible
    obtain ⟨m, inside, rfl, holds⟩ := left.ok c value middle started
    obtain ⟨n, within, moved, then_holds⟩ := (right value).ok _ result after finished
    rw [Cursor.skip_remaining c inside] at within
    rw [Cursor.skip_rest c inside] at then_holds
    refine ⟨m + n, by omega, by rw [moved, Cursor.skip_skip c inside within],
      c.rest.take m, (c.rest.drop m).take n, value, List.take_add, ?_, ?_⟩
    · rw [← List.drop_drop, List.take_append_drop]
      exact holds
    · rw [← List.drop_drop]
      exact then_holds
  · intro c e after run
    rcases run_cases c _ run with ⟨e', middle, started, same⟩ | ⟨value, middle, started, finished⟩
    · simp only [Prod.mk.injEq, Except.error.injEq] at same
      obtain ⟨rfl, rfl⟩ := same
      exact left.error c e after started
    · obtain ⟨m, inside, rfl, _⟩ := left.ok c value middle started
      obtain ⟨bad, n, within, moved⟩ := (right value).error _ e after finished
      rw [Cursor.skip_remaining c inside] at within
      exact ⟨bad, m + n, by omega, by rw [moved, Cursor.skip_skip c inside within]⟩

theorem last {d : Decoder α capacity ε β} {post : List α → List α → β → Prop}
    (sound : Sound d fails post) (build : β → γ) :
    Sound (d >>= fun value => Pure.pure (build value)) fails
      (fun bytes tail result => ∃ value, post bytes tail value ∧ result = build value) := by
  refine (sound.bind fun value => pure (build value)).mono ?_
  rintro _ _ _ ⟨front, back, value, rfl, holds, rfl, rfl⟩
  exact ⟨value, by rwa [List.append_nil], rfl⟩

theorem take {n : Nat} {short : ε} (bad : fails short) :
    Sound (Decoder.take n short : Decoder α capacity ε (List α)) fails
      (fun bytes _ result => bytes = result ∧ result.length = n) where
  ok c result after run := by
    simp only [Decoder.take] at run
    split at run
    · simp at run
    next inside =>
      simp only [Prod.mk.injEq, Except.ok.injEq] at run
      have within : n ≤ c.remaining := by omega
      refine ⟨n, within, run.2.symm, run.1, ?_⟩
      rw [← run.1, List.length_take, Cursor.rest_length]
      omega
  error c e after run := by
    simp only [Decoder.take] at run
    split at run
    · simp only [Prod.mk.injEq, Except.error.injEq] at run
      exact ⟨run.1 ▸ bad, 0, Nat.zero_le _, by simp [run.2]⟩
    · simp at run

theorem atEnd :
    Sound (Decoder.atEnd : Decoder α capacity ε Bool) fails
      (fun bytes tail result => bytes = [] ∧ (result = true ↔ tail = [])) where
  ok c result after run := by
    simp only [Decoder.atEnd, Prod.mk.injEq, Except.ok.injEq] at run
    refine ⟨0, Nat.zero_le _, by simp [run.2], by simp, ?_⟩
    rw [← run.1, List.drop_zero, beq_iff_eq, ← Cursor.rest_length, List.length_eq_zero_iff]
  error c e after run := by simp [Decoder.atEnd] at run

theorem times {d : Decoder α capacity ε β} {encode : β → List α} {good : β → Prop}
    (each : Sound d fails (fun bytes _ value => bytes = encode value ∧ good value)) (count : Nat) :
    Sound (d.times count) fails (fun bytes _ values =>
      bytes = values.flatMap encode ∧ values.length = count ∧ ∀ value ∈ values, good value) := by
  induction count with
  | zero =>
    refine (pure []).mono ?_
    rintro _ _ _ ⟨rfl, rfl⟩
    simp
  | succ count ih =>
    refine (each.bind fun value => ih.bind fun values => pure (value :: values)).mono ?_
    rintro _ _ _ ⟨front, back, value, rfl, ⟨rfl, good⟩, middle, last, values, rfl,
      ⟨rfl, length, all⟩, rfl, rfl⟩
    refine ⟨by simp, by simp [length], ?_⟩
    intro other member
    rcases List.mem_cons.mp member with same | member
    · exact same ▸ good
    · exact all other member

end Sound

section Short
variable {d : Decoder α capacity ε β} {bytes other : List α} {value result : β}

theorem Reads.prefix_free (first : Reads d bytes value) (second : Reads d other result) (initial : bytes <+: other)
    (addressable : other.length < capacity) : bytes = other ∧ value = result := by
  obtain ⟨more, rfl⟩ := initial
  let c : Cursor α capacity := .start (bytes ++ more) addressable
  have whole : c.rest = (bytes ++ more) ++ [] := by rw [Cursor.start_rest, List.append_nil]
  have runs := (first c more (Cursor.start_rest _ _)).symm.trans (second c [] whole)
  simp only [Prod.mk.injEq, Except.ok.injEq] at runs
  obtain ⟨same, stops⟩ := runs
  have stopped := congrArg Cursor.pos stops
  rw [Cursor.skip_pos c (Cursor.remaining_of_rest (Cursor.start_rest _ _)),
    Cursor.skip_pos c (Cursor.remaining_of_rest whole)] at stopped
  have length := Nat.add_left_cancel stopped
  rw [List.length_append] at length
  have nothing : more = [] := List.length_eq_zero_iff.mp (by omega)
  exact ⟨by rw [nothing, List.append_nil], same⟩

/-- Of a proper prefix of an encoding a decoder makes an error, or something that it would not
make of an encoding. -/
theorem Reads.cut_short {fails : ε → Prop} {post : List α → List α → β → Prop} (reads : Reads d bytes value)
    (sound : Sound d fails post) (addressable : bytes.length < capacity) {c : Cursor α capacity}
    (initial : c.rest <+: bytes) (proper : c.rest ≠ bytes) :
    (∃ e after, d.run c = (.error e, after) ∧ fails e) ∨
      ∃ other, ∃ n ≤ c.remaining, d.run c = (.ok other, c.skip n) ∧
        post (c.rest.take n) (c.rest.drop n) other ∧ ¬ Reads d (c.rest.take n) other := by
  rcases run : d.run c with ⟨e | other, after⟩
  · exact .inl ⟨e, after, rfl, (sound.error c e after run).1⟩
  · obtain ⟨n, inside, rfl, holds⟩ := sound.ok c other after run
    refine .inr ⟨other, n, inside, rfl, holds, fun also => proper ?_⟩
    have shorter := (List.take_prefix n c.rest).trans initial
    obtain ⟨same, _⟩ := also.prefix_free reads shorter addressable
    exact List.IsPrefix.eq_of_length_le initial (by rw [← same]; exact List.length_take_le' n c.rest)

end Short

end Decoder

/-- An encoder and a decoder that are inverse on the `Good` values, where the
decoder accepts nothing but encodings of good values. -/
structure Field (α : Type) (capacity : Nat) {ε : Type} (fails : ε → Prop) (β : Type) where
  encode : β → List α
  decode : Decoder α capacity ε β
  Good : β → Prop
  reads : ∀ value, Good value → decode.Reads (encode value) value
  sound : decode.Sound fails (fun bytes _ value => bytes = encode value ∧ Good value)

namespace Field
variable {α : Type} {capacity : Nat} {ε β γ : Type} {fails : ε → Prop}

def pair (first : Field α capacity fails β) (second : Field α capacity fails γ) :
    Field α capacity fails (β × γ) where
  encode value := first.encode value.1 ++ second.encode value.2
  decode := do
    let left ← first.decode
    let right ← second.decode
    pure (left, right)
  Good value := first.Good value.1 ∧ second.Good value.2
  reads value good := (first.reads _ good.1).bind ((second.reads _ good.2).last rfl)
  sound := by
    refine (first.sound.bind fun left => second.sound.last (Prod.mk left)).mono ?_
    rintro _ _ _ ⟨front, back, left, rfl, ⟨rfl, goodLeft⟩, right, ⟨rfl, goodRight⟩, rfl⟩
    exact ⟨rfl, goodLeft, goodRight⟩

theorem pair_bind {δ : Type} (first : Field α capacity fails β) (second : Field α capacity fails γ)
    (next : β × γ → Decoder α capacity ε δ) :
    (first.pair second).decode >>= next =
      first.decode >>= fun left => second.decode >>= fun right => next (left, right) := by
  simp only [pair, Fallible.bind_assoc]
  rfl

theorem cut_short (field : Field α capacity fails β) {value : β} (good : field.Good value)
    (addressable : (field.encode value).length < capacity) {c : Cursor α capacity}
    (initial : c.rest <+: field.encode value) (proper : c.rest ≠ field.encode value) :
    ∃ e after, field.decode.run c = (.error e, after) ∧ fails e := by
  rcases (field.reads value good).cut_short field.sound addressable initial proper with
    failed | ⟨other, n, _, _, ⟨same, also⟩, unread⟩
  · exact failed
  · rw [same] at unread
    exact absurd (field.reads other also) unread

end Field
end RmqStream.Library
