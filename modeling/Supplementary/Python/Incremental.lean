/-
# The incremental UTF-8 decoder

`codecs.getincrementaldecoder("utf-8")` decodes a stream block by block: what a block ends in the
middle of is held back and put before the next one.  `textChunks_of_decode` is what the streaming
readers rely on: wherever a text is cut, the texts of the blocks together are the text of the whole.

The strict decoder and the encoder undo each other in both directions; `utf8Encode_of_decode` is the
one that `Utf8.lean` leaves out.
-/
import Supplementary.Python.Utf8
import Supplementary.Python.Split

namespace Supplementary

/-! ## 1. Decoding, then encoding -/

/-- What a text of bytes starts with, by the character that it encodes. -/
theorem utf8Decode_head {payload : Bytes} (hne : payload ≠ [])
    (h : (utf8Decode payload).isSome = true) :
    ∃ (v : Nat) (octets rest : Bytes), payload = octets ++ rest ∧ v ≤ 0x10ffff ∧
      utf8EncodePoint v = some octets := by
  have hbyte {n : Nat} {b : UInt8} (hn : n = b.toNat) : n.toUInt8 = b := ofNat_eq_of_toNat hn
  rw [utf8Decode.eq_def] at h
  cases payload with
  | nil => exact absurd rfl hne
  | cons a rest =>
    have ha := a.toNat_lt
    simp only at h
    split at h
    · next h1 =>
      refine ⟨a.toNat, [a], rest, rfl, by omega, ?_⟩
      rw [utf8EncodePoint, if_pos (by omega), hbyte rfl]
    · next h1 =>
      split at h
      · next h2 =>
        split at h
        · next b rest' =>
          split at h
          · next hb =>
            rw [isContinuation_iff] at hb
            refine ⟨(a.toNat - 0xc0) * 64 + (b.toNat - 0x80), [a, b], rest', rfl, by omega, ?_⟩
            rw [utf8EncodePoint, if_neg (by omega), if_pos (by omega), hbyte (b := a) (by omega),
              hbyte (b := b) (by omega)]
          · cases h
        · cases h
      · next h2 =>
        split at h
        · next h3 =>
          split at h
          · next b c rest' =>
            split at h
            · next hb =>
              simp only [isContinuation_iff] at hb
              refine ⟨(a.toNat - 0xe0) * 4096 + (b.toNat - 0x80) * 64 + (c.toNat - 0x80), [a, b, c],
                rest', rfl, by omega, ?_⟩
              rw [utf8EncodePoint, if_neg (by omega), if_neg (by omega), if_neg hb.2.2.2,
                if_pos (by omega), hbyte (b := a) (by omega), hbyte (b := b) (by omega),
                hbyte (b := c) (by omega)]
            · cases h
          · cases h
        · next h3 =>
          split at h
          · next h4 =>
            split at h
            · next b c d rest' =>
              split at h
              · next hb =>
                simp only [isContinuation_iff] at hb
                refine ⟨(a.toNat - 0xf0) * 262144 + (b.toNat - 0x80) * 4096 + (c.toNat - 0x80) * 64 +
                  (d.toNat - 0x80), [a, b, c, d], rest', rfl, hb.2.2.2.2, ?_⟩
                rw [utf8EncodePoint, if_neg (by omega), if_neg (by omega), if_neg (by omega),
                  if_neg (by omega), hbyte (b := a) (by omega), hbyte (b := b) (by omega),
                  hbyte (b := c) (by omega), hbyte (b := d) (by omega)]
              · cases h
            · cases h
          · cases h

/-- The octets of one code point are some. -/
theorem utf8EncodePoint_ne_nil {v : Nat} {octets : Bytes} (h : utf8EncodePoint v = some octets) :
    octets ≠ [] := by
  unfold utf8EncodePoint at h
  split_ifs at h <;> cases h <;> exact List.cons_ne_nil _ _

/-- A text is some characters, and its bytes are theirs. -/
theorem utf8Decode_induction {motive : Bytes → List Nat → Prop} (nil : motive [] [])
    (cons : ∀ {v : Nat} {octets rest : Bytes} {points : List Nat}, v ≤ 0x10ffff →
      utf8EncodePoint v = some octets → utf8Decode rest = some points → motive rest points →
        motive (octets ++ rest) (v :: points))
    {payload : Bytes} {points : List Nat} (h : utf8Decode payload = some points) :
    motive payload points := by
  induction hn : payload.length using Nat.strong_induction_on generalizing payload points with
  | h n ih =>
  by_cases hne : payload = []
  · subst hne
    cases h
    exact nil
  · obtain ⟨v, octets, rest, rfl, hv, hoctets⟩ := utf8Decode_head hne (by rw [h]; rfl)
    rw [utf8Decode_point hv hoctets, Option.map_eq_some_iff] at h
    obtain ⟨points, hrest, rfl⟩ := h
    have hpositive := List.length_pos_iff.mpr (utf8EncodePoint_ne_nil hoctets)
    exact cons hv hoctets hrest
      (ih rest.length (by rw [← hn, List.length_append]; omega) hrest rfl)

/-- **The codec round-trips from the bytes as well.** -/
theorem utf8Encode_of_decode {payload : Bytes} {points : List Nat}
    (h : utf8Decode payload = some points) : (⟨points⟩ : PyStr).utf8Encode = some payload := by
  refine @utf8Decode_induction (fun payload points => (⟨points⟩ : PyStr).utf8Encode = some payload)
    rfl ?_ payload points h
  intro v octets rest points _ hoctets _ hrest
  simp only [PyStr.utf8Encode, Option.map_eq_some_iff] at hrest ⊢
  obtain ⟨parts, hparts, rfl⟩ := hrest
  exact ⟨octets :: parts, by simp [List.mapM_cons, hoctets, hparts], rfl⟩

/-- A text after a text is decoded as if it stood alone. -/
theorem utf8Decode_append {a b : Bytes} {points : List Nat} (h : utf8Decode a = some points) :
    utf8Decode (a ++ b) = (utf8Decode b).map (points ++ ·) := by
  refine @utf8Decode_induction
    (fun a points => utf8Decode (a ++ b) = (utf8Decode b).map (points ++ ·)) ?_ ?_ a points h
  · simp
  · intro v octets rest points hv hoctets _ hrest
    rw [List.append_assoc, utf8Decode_point hv hoctets, hrest]
    simp [Function.comp_def]

/-- Every character has an encoding. -/
def PyStr.IsEncodable (s : PyStr) : Prop := ∀ v ∈ s.codePoints, (utf8EncodePoint v).isSome = true

/-- The octets of the characters that have some. -/
def PyStr.octets (s : PyStr) : Bytes := s.codePoints.flatMap fun v => (utf8EncodePoint v).getD []

theorem PyStr.octets_append (s t : PyStr) : (s ++ t).octets = s.octets ++ t.octets := by
  simp [octets]

theorem PyStr.isEncodable_append {s t : PyStr} :
    (s ++ t).IsEncodable ↔ s.IsEncodable ∧ t.IsEncodable := by
  simp only [IsEncodable, codePoints_append, List.forall_mem_append]

theorem PyStr.utf8Encode_eq_some {s : PyStr} {octets : Bytes} :
    s.utf8Encode = some octets ↔ s.IsEncodable ∧ s.octets = octets := by
  obtain ⟨points⟩ := s
  induction points generalizing octets with
  | nil => simp [utf8Encode, IsEncodable, PyStr.octets]
  | cons v points ih =>
    have hcons : (⟨v :: points⟩ : PyStr).utf8Encode =
        (utf8EncodePoint v).bind fun first =>
          ((⟨points⟩ : PyStr).utf8Encode).map fun rest => first ++ rest := by
      cases hv : utf8EncodePoint v <;> cases hpoints : points.mapM utf8EncodePoint <;>
        simp [utf8Encode, List.mapM_cons, hv, hpoints]
    rw [hcons]
    cases hv : utf8EncodePoint v with
    | none => simp [IsEncodable, hv]
    | some first =>
      simp only [Option.bind_some, Option.map_eq_some_iff, ih]
      simp [IsEncodable, PyStr.octets, hv]

/-! ## 2. Block by block -/

/-- `lead` and some of the octets after it, where a character's octets are cut: what the decoder
holds back instead of refusing it. -/
def isCut : Bytes → Bool
  | [a] => 0xc2 ≤ a.toNat && a.toNat ≤ 0xf4
  | [a, b] => 0xe0 ≤ a.toNat && a.toNat ≤ 0xf4 && isContinuation b &&
    (a.toNat ≠ 0xe0 || 0xa0 ≤ b.toNat) && (a.toNat ≠ 0xed || b.toNat < 0xa0) &&
    (a.toNat ≠ 0xf0 || 0x90 ≤ b.toNat) && (a.toNat ≠ 0xf4 || b.toNat < 0x90)
  | [a, b, c] => 0xf0 ≤ a.toNat && a.toNat ≤ 0xf4 && isContinuation b && isContinuation c &&
    (a.toNat ≠ 0xf0 || 0x90 ≤ b.toNat) && (a.toNat ≠ 0xf4 || b.toNat < 0x90)
  | _ => false

/-- `codecs.utf_8_decode(payload, "strict", False)`: the text, and the octets of a last character
that is not complete; `none` is the `UnicodeError`. -/
def decodePartial (payload : Bytes) : Option (List Nat × Bytes) :=
  [0, 1, 2, 3].findSome? fun k =>
    let held := payload.drop (payload.length - k)
    if k = 0 ∨ isCut held = true then
      (utf8Decode (payload.take (payload.length - k))).map (·, held)
    else none

/-- The texts of the blocks, `decode(block)` of each, and what is held back after the last. -/
def decodeBlocks : (held : Bytes) → List Bytes → Option (List PyStr × Bytes)
  | held, [] => some ([], held)
  | held, block :: blocks => do
    let (points, held) ← decodePartial (held ++ block)
    let (texts, held) ← decodeBlocks held blocks
    return (⟨points⟩ :: texts, held)

/-- The octets of a character, cut. -/
theorem isCut_of_append {v : Nat} (hv : v ≤ 0x10ffff) {a b : Bytes} (ha : a ≠ []) (hb : b ≠ [])
    (h : utf8EncodePoint v = some (a ++ b)) : isCut a = true := by
  obtain ⟨a₁, a, rfl⟩ := List.exists_cons_of_ne_nil ha
  obtain ⟨b₁, b, rfl⟩ := List.exists_cons_of_ne_nil hb
  have hbyte {n : Nat} (hn : n < 256) : n.toUInt8.toNat = n := toNat_toUInt8 hn
  unfold utf8EncodePoint at h
  split_ifs at h with h1 h2 h3 h4
  · have hlength := congrArg List.length (Option.some.inj h)
    simp at hlength
  · -- two octets, cut after the first
    rcases a with _ | ⟨a₂, a⟩
    · simp only [List.nil_append, List.cons_append, Option.some.injEq, List.cons.injEq] at h
      obtain ⟨rfl, _⟩ := h
      simp only [isCut, hbyte (n := v / 64 % 0x20 + 0xc0) (by omega), Bool.and_eq_true,
        decide_eq_true_eq]
      omega
    · have hlength := congrArg List.length (Option.some.inj h)
      simp at hlength
  · rcases a with _ | ⟨a₂, _ | ⟨a₃, a⟩⟩
    · simp only [List.nil_append, List.cons_append, Option.some.injEq, List.cons.injEq] at h
      obtain ⟨rfl, _⟩ := h
      simp only [isCut, hbyte (n := v / 4096 % 0x10 + 0xe0) (by omega), Bool.and_eq_true,
        decide_eq_true_eq]
      omega
    · simp only [List.nil_append, List.cons_append, Option.some.injEq, List.cons.injEq] at h
      obtain ⟨rfl, rfl, _⟩ := h
      simp only [isCut, Bool.and_eq_true, Bool.or_eq_true, decide_eq_true_eq, isContinuation_iff,
        hbyte (n := v / 4096 % 0x10 + 0xe0) (by omega),
        hbyte (n := v / 64 % 0x40 + 0x80) (by omega)]
      omega
    · have hlength := congrArg List.length (Option.some.inj h)
      simp at hlength
  · rcases a with _ | ⟨a₂, _ | ⟨a₃, _ | ⟨a₄, a⟩⟩⟩
    · simp only [List.nil_append, List.cons_append, Option.some.injEq, List.cons.injEq] at h
      obtain ⟨rfl, _⟩ := h
      simp only [isCut, hbyte (n := v / 262144 % 0x08 + 0xf0) (by omega), Bool.and_eq_true,
        decide_eq_true_eq]
      omega
    · simp only [List.nil_append, List.cons_append, Option.some.injEq, List.cons.injEq] at h
      obtain ⟨rfl, rfl, _⟩ := h
      simp only [isCut, Bool.and_eq_true, Bool.or_eq_true, decide_eq_true_eq, isContinuation_iff,
        hbyte (n := v / 262144 % 0x08 + 0xf0) (by omega),
        hbyte (n := v / 4096 % 0x40 + 0x80) (by omega)]
      omega
    · simp only [List.nil_append, List.cons_append, Option.some.injEq, List.cons.injEq] at h
      obtain ⟨rfl, rfl, rfl, _⟩ := h
      simp only [isCut, Bool.and_eq_true, Bool.or_eq_true, decide_eq_true_eq, isContinuation_iff,
        hbyte (n := v / 262144 % 0x08 + 0xf0) (by omega),
        hbyte (n := v / 4096 % 0x40 + 0x80) (by omega),
        hbyte (n := v / 64 % 0x40 + 0x80) (by omega)]
      omega
    · have hlength := congrArg List.length (Option.some.inj h)
      simp at hlength

theorem length_of_isCut {held : Bytes} (h : isCut held = true) : held.length ≤ 3 := by
  unfold isCut at h
  split at h
  · simp
  · simp
  · simp
  · cases h

/-- Before a cut stand characters, and what is left of one that the cut goes through. -/
theorem exists_complete {a b : Bytes} (h : (utf8Decode (a ++ b)).isSome = true) :
    ∃ complete held, a = complete ++ held ∧ (utf8Decode complete).isSome = true ∧
      (held = [] ∨ isCut held = true) := by
  induction hn : a.length using Nat.strong_induction_on generalizing a with
  | h n ih =>
  by_cases hne : a = []
  · exact ⟨[], [], hne, rfl, Or.inl rfl⟩
  · obtain ⟨v, octets, rest, heq, hv, hoctets⟩ := utf8Decode_head (by simp [hne]) h
    rcases List.append_eq_append_iff.mp heq with ⟨c, rfl, rfl⟩ | ⟨c, rfl, rfl⟩
    · by_cases hc : c = []
      · subst hc
        rw [List.append_nil] at hoctets
        refine ⟨a, [], (List.append_nil a).symm, ?_, Or.inl rfl⟩
        have hread := @utf8Decode_point v a [] hv hoctets
        rw [List.append_nil] at hread
        rw [hread]
        rfl
      · exact ⟨[], a, rfl, rfl, Or.inr (isCut_of_append hv hne hc hoctets)⟩
    · rw [List.append_assoc, utf8Decode_point hv hoctets, Option.isSome_map] at h
      have hpositive := List.length_pos_iff.mpr (utf8EncodePoint_ne_nil hoctets)
      obtain ⟨complete, held, rfl, hcomplete, hheld⟩ :=
        ih c.length (by rw [← hn, List.length_append]; omega) h rfl
      refine ⟨octets ++ complete, held, (List.append_assoc _ _ _).symm, ?_, hheld⟩
      rwa [utf8Decode_point hv hoctets, Option.isSome_map]

/-- A block is decoded up to the character that it cuts. -/
theorem decodePartial_spec {a b : Bytes} (h : (utf8Decode (a ++ b)).isSome = true) :
    ∃ points held, decodePartial a = some (points, held) ∧
      utf8Decode (a ++ b) = (utf8Decode (held ++ b)).map (points ++ ·) := by
  cases hpartial : decodePartial a with
  | none =>
    obtain ⟨complete, held, rfl, hcomplete, hheld⟩ := exists_complete h
    have hlength : held.length ≤ 3 := by
      rcases hheld with rfl | hheld
      · exact Nat.zero_le _
      · exact length_of_isCut hheld
    have hmem : held.length ∈ [0, 1, 2, 3] := by
      simp only [List.mem_cons, List.not_mem_nil, or_false]
      omega
    have hnone := List.findSome?_eq_none_iff.mp hpartial held.length hmem
    have hkept : held.length = 0 ∨ isCut held = true :=
      hheld.imp_left fun hnil => by rw [hnil]; rfl
    simp only [List.length_append, Nat.add_sub_cancel, List.drop_left, List.take_left, if_pos hkept,
      Option.map_eq_none_iff] at hnone
    rw [hnone] at hcomplete
    cases hcomplete
  | some result =>
    obtain ⟨points, held⟩ := result
    obtain ⟨k, _, hk⟩ := List.exists_of_findSome?_eq_some hpartial
    simp only at hk
    split at hk
    · obtain ⟨points', hpoints, hpair⟩ := Option.map_eq_some_iff.mp hk
      cases hpair
      refine ⟨points, _, rfl, ?_⟩
      rw [← utf8Decode_append hpoints, ← List.append_assoc, List.take_append_drop]
    · cases hk

/-- **Wherever a text is cut, its blocks are decoded to it.**  `last` is the text of what is held
back, `decode(b"", final=True)`. -/
theorem decodeBlocks_spec {held : Bytes} {blocks : List Bytes} {points : List Nat}
    (h : utf8Decode (held ++ blocks.flatten) = some points) :
    ∃ texts held' last, decodeBlocks held blocks = some (texts, held') ∧
      utf8Decode held' = some last ∧ texts.flatMap PyStr.codePoints ++ last = points := by
  induction blocks generalizing held points with
  | nil =>
    rw [List.flatten_nil, List.append_nil] at h
    exact ⟨[], held, points, rfl, h, rfl⟩
  | cons block blocks ih =>
    rw [List.flatten_cons, ← List.append_assoc] at h
    obtain ⟨first, held', hfirst, hread⟩ := decodePartial_spec (Option.isSome_of_eq_some h)
    rw [hread, Option.map_eq_some_iff] at h
    obtain ⟨points, hrest, rfl⟩ := h
    obtain ⟨texts, held'', last, htexts, hlast, hpoints⟩ := ih hrest
    refine ⟨⟨first⟩ :: texts, held'', last, ?_, hlast, by simp [← hpoints]⟩
    simp [decodeBlocks, hfirst, htexts]

end Supplementary
