import RmqStream.Commands.RoundTrip

/-! Command bodies say themselves where they end.

No encoding begins with another one of the same command, and a body that is cut short is an
error, wherever the cut is. Only two responses may stop right after their code. -/

set_option autoImplicit false

namespace RmqStream.Commands
open Library

/-- The responses whose last field is read only while bytes are left. -/
def CommandType.endsEarly : CommandType → Bool
  | saslAuthenticateResponse | openResponse => true
  | _ => false

theorem readU16_last (c : BufferReader) (two : c.remaining = 2) : ∃ code, readU16.run c = (.ok code, c.skip 2) := by
  rw [readU16_run, if_neg (by omega)]
  exact ⟨_, rfl⟩

theorem optionalTail_last {α : Type} (early : UInt16 → α) (late : UInt16 → Decode α) {c : BufferReader}
    (two : c.remaining = 2) : ∃ v after,
      (readU16 >>= fun rc => Decoder.atEnd >>= fun ended =>
        if ended = true then pure (early rc) else late rc : Decode α).run c = (.ok v, after) := by
  obtain ⟨code, run⟩ := readU16_last c two
  have nothing : (c.skip 2).remaining = 0 := by
    rw [Cursor.skip_remaining c (by omega)]
    omega
  have ended : (Decoder.atEnd : Decode Bool).run (c.skip 2) = (.ok true, c.skip 2) := by
    simp [Decoder.atEnd, nothing]
  rw [Fallible.bind_ok run, Fallible.bind_ok ended]
  exact ⟨early code, c.skip 2, rfl⟩

theorem endsEarly_last {tag : CommandType} (early : tag.endsEarly = true) {c : BufferReader}
    (two : c.remaining = 2) : ∃ v after, (Command.decodeBody : Decode tag.Struct).run c = (.ok v, after) := by
  cases tag with
  | saslAuthenticateResponse | openResponse => exact optionalTail_last _ _ two
  | _ => cases early

theorem writeString_length {s : Bytes} (wire : WireString s) : (writeString s).length < 2 ^ 64 := by
  have short := wire.short
  have header : (writeI16 (Int16.ofNat s.length)).length = 2 := rfl
  rw [writeString_short short, List.length_append, header]
  omega

theorem writeString_initial {s t left right : Bytes} (first : WireString s) (second : WireString t)
    (initial : writeString s ++ left <+: writeString t ++ right) : s = t ∧ left <+: right := by
  have one : writeString s <+: writeString t ++ right := (List.prefix_append _ _).trans initial
  have same : writeString s = writeString t ∧ s = t := by
    rcases List.prefix_or_prefix_of_prefix one (List.prefix_append _ _) with shorter | longer
    · exact (readStringRequired_reads first).prefix_free (readStringRequired_reads second) shorter
        (writeString_length second)
    · obtain ⟨equal, values⟩ := (readStringRequired_reads second).prefix_free (readStringRequired_reads first) longer
        (writeString_length first)
      exact ⟨equal.symm, values.symm⟩
  rw [same.1] at initial
  exact ⟨same.2, (List.prefix_append_right_inj _).mp initial⟩

theorem null_not_initial {mechanism : Bytes} {v : SaslAuthenticateRequest} (wire : WireString mechanism)
    (encodable : Encodable v) : ¬ writeString mechanism ++ writeI32 (-1) <+: Command.encodeBody v := by
  intro initial
  have own : WireString v.mechanism := encodable.strings _ List.mem_cons_self
  have small : v.saslOpaqueData.length < 2 ^ 31 := encodable.sizes _ List.mem_cons_self
  obtain ⟨_, null⟩ := writeString_initial wire own initial
  have marker : writeI32 (-1) <+: writeI32 (Int32.ofNat v.saslOpaqueData.length) ++ v.saslOpaqueData := null
  have header : writeI32 (-1) = writeI32 (Int32.ofNat v.saslOpaqueData.length) :=
    List.prefix_iff_eq_take.mp marker
  have value := ((readI32_reads (-1)).prefix_free (readI32_reads (Int32.ofNat v.saslOpaqueData.length))
    (header ▸ List.prefix_rfl) (by simp [writeI32_length])).2
  exact (ofNat32_sign small).1 value.symm

theorem noncanonical_initial {tag : CommandType} {v w : tag.Struct} {bytes tail : Bytes} (encodable : Encodable v)
    (also : Encodable w) (noncanonical : tag.Noncanonical bytes tail w) (initial : bytes <+: Command.encodeBody v) :
    tag.endsEarly = true ∧ bytes.length = 2 ∧ tail = [] := by
  cases tag with
  | saslAuthenticateResponse | openResponse => exact ⟨rfl, noncanonical⟩
  | saslAuthenticateRequest =>
    cases noncanonical
    exact absurd initial (null_not_initial (also.strings _ List.mem_cons_self) encodable)
  | _ => cases noncanonical

structure Delimited (tag : CommandType) : Prop where
  prefix_free : ∀ v w : tag.Struct, Encodable v → Encodable w → (Command.encodeBody w).length < 2 ^ 64 →
    Command.encodeBody v <+: Command.encodeBody w → v = w
  cut_short : ∀ v : tag.Struct, Encodable v → (Command.encodeBody v).length < 2 ^ 64 → ∀ c : BufferReader,
    c.rest <+: Command.encodeBody v → c.rest ≠ Command.encodeBody v →
      match (Command.decodeBody : Decode tag.Struct).run c with
      | (.error e, _) => e.kind = .decodeError ∧ ¬ (tag.endsEarly = true ∧ c.remaining = 2)
      | (.ok _, _) => tag.endsEarly = true ∧ c.remaining = 2

theorem bodies_delimited (tag : CommandType) : Delimited tag where
  prefix_free v w encodable also fits initial :=
    ((tag.faithful.reads v encodable).prefix_free (tag.faithful.reads w also) initial fits).2
  cut_short v encodable fits c initial proper := by
    rcases (tag.faithful.reads v encodable).cut_short tag.faithful.sound fits initial proper with
      ⟨e, after, run, failed⟩ | ⟨w, n, inside, run, ⟨also, canonical⟩, unread⟩
    · rw [run]
      refine ⟨failed, fun ⟨early, two⟩ => ?_⟩
      obtain ⟨w, stop, other⟩ := endsEarly_last early two
      rw [run] at other
      cases other
    · rw [run]
      have noncanonical : tag.Noncanonical (c.rest.take n) (c.rest.drop n) w := by
        by_contra regular
        rw [← canonical.mpr regular] at unread
        exact unread (tag.faithful.reads w also)
      obtain ⟨early, two, nothing⟩ := noncanonical_initial encodable also noncanonical
        ((List.take_prefix n c.rest).trans initial)
      refine ⟨early, ?_⟩
      rw [← Cursor.rest_length, ← List.take_append_drop n c.rest, nothing, List.append_nil, two]

end RmqStream.Commands
