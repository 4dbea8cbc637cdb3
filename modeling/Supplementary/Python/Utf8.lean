/-
# The strict UTF-8 codec

`utf8Decode_point` is the one fact about the octets of a code point; the round trip follows from
it.  `utf8Decode_inv` is its inverse, what a text starts with, and from it a text cut between two
characters is two texts.
-/
import Supplementary.Python.Str

namespace Supplementary

/-! ## 1. Encoding, then decoding -/

theorem toNat_toUInt8 {n : Nat} (h : n < 256) : n.toUInt8.toNat = n := by
  simp [Nat.toUInt8, UInt8.toNat_ofNat', Nat.mod_eq_of_lt h]

theorem forall_byte {p : UInt8 → Prop} (h : ∀ n : Fin 256, p (UInt8.ofNat n)) (b : UInt8) : p b := by
  have hb := h ⟨b.toNat, b.toNat_lt⟩
  rwa [show UInt8.ofNat (⟨b.toNat, b.toNat_lt⟩ : Fin 256) = b from UInt8.ofNat_toNat] at hb

/-- What the decoder does with the octets of one code point. -/
theorem utf8Decode_point {v : Nat} {octets rest : Bytes} (hv : v ≤ 0x10ffff)
    (h : utf8EncodePoint v = some octets) :
    utf8Decode (octets ++ rest) = (utf8Decode rest).map (v :: ·) := by
  unfold utf8EncodePoint at h
  split at h
  · next h1 =>
    cases h
    have ha : v.toUInt8.toNat = v := toNat_toUInt8 (by omega)
    have hlow : v < 0x80 := by omega
    rw [List.singleton_append, utf8Decode.eq_def]
    simp only [ha, hlow, if_true]
  · split at h
    · next h1 h2 =>
      cases h
      have ha : (v / 64 % 0x20 + 0xc0).toUInt8.toNat = v / 64 % 0x20 + 0xc0 :=
        toNat_toUInt8 (by omega)
      have hb : (v % 0x40 + 0x80).toUInt8.toNat = v % 0x40 + 0x80 := toNat_toUInt8 (by omega)
      have hc : isContinuation (v % 0x40 + 0x80).toUInt8 = true := by
        rw [isContinuation_iff, hb]
        omega
      have hval : (v / 64 % 0x20 + 0xc0 - 0xc0) * 64 + (v % 0x40 + 0x80 - 0x80) = v := by omega
      simp only [List.cons_append, List.nil_append, utf8Decode, ha, hb, hval]
      rw [if_neg (by omega), if_pos (by omega), if_pos ⟨hc, by omega⟩]
    · split at h
      · cases h
      · split at h
        · next h1 h2 h3 h4 =>
          cases h
          have ha : (v / 4096 % 0x10 + 0xe0).toUInt8.toNat = v / 4096 % 0x10 + 0xe0 :=
            toNat_toUInt8 (by omega)
          have hb : (v / 64 % 0x40 + 0x80).toUInt8.toNat = v / 64 % 0x40 + 0x80 :=
            toNat_toUInt8 (by omega)
          have hc : (v % 0x40 + 0x80).toUInt8.toNat = v % 0x40 + 0x80 := toNat_toUInt8 (by omega)
          have hb' : isContinuation (v / 64 % 0x40 + 0x80).toUInt8 = true := by
            rw [isContinuation_iff, hb]
            omega
          have hc' : isContinuation (v % 0x40 + 0x80).toUInt8 = true := by
            rw [isContinuation_iff, hc]
            omega
          have hval : (v / 4096 % 0x10 + 0xe0 - 0xe0) * 4096 + (v / 64 % 0x40 + 0x80 - 0x80) * 64 +
              (v % 0x40 + 0x80 - 0x80) = v := by omega
          simp only [List.cons_append, List.nil_append, utf8Decode, ha, hb, hc, hval]
          rw [if_neg (by omega), if_neg (by omega), if_pos (by omega),
            if_pos ⟨hb', hc', by omega, h3⟩]
        · next h1 h2 h3 h4 =>
          cases h
          have ha : (v / 262144 % 0x08 + 0xf0).toUInt8.toNat = v / 262144 % 0x08 + 0xf0 :=
            toNat_toUInt8 (by omega)
          have hb : (v / 4096 % 0x40 + 0x80).toUInt8.toNat = v / 4096 % 0x40 + 0x80 :=
            toNat_toUInt8 (by omega)
          have hc : (v / 64 % 0x40 + 0x80).toUInt8.toNat = v / 64 % 0x40 + 0x80 :=
            toNat_toUInt8 (by omega)
          have hd : (v % 0x40 + 0x80).toUInt8.toNat = v % 0x40 + 0x80 := toNat_toUInt8 (by omega)
          have hb' : isContinuation (v / 4096 % 0x40 + 0x80).toUInt8 = true := by
            rw [isContinuation_iff, hb]
            omega
          have hc' : isContinuation (v / 64 % 0x40 + 0x80).toUInt8 = true := by
            rw [isContinuation_iff, hc]
            omega
          have hd' : isContinuation (v % 0x40 + 0x80).toUInt8 = true := by
            rw [isContinuation_iff, hd]
            omega
          have hval : (v / 262144 % 0x08 + 0xf0 - 0xf0) * 262144 +
              (v / 4096 % 0x40 + 0x80 - 0x80) * 4096 + (v / 64 % 0x40 + 0x80 - 0x80) * 64 +
              (v % 0x40 + 0x80 - 0x80) = v := by omega
          simp only [List.cons_append, List.nil_append, utf8Decode, ha, hb, hc, hd, hval]
          rw [if_neg (by omega), if_neg (by omega), if_neg (by omega), if_pos (by omega),
            if_pos ⟨hb', hc', hd', by omega, hv⟩]

/-- What `chr` makes. -/
def PyStr.IsText (s : PyStr) : Prop := ∀ c ∈ s.codePoints, c ≤ 0x10ffff

/-- **The strict codec round-trips.** -/
theorem utf8Decode_utf8Encode {s : PyStr} {octets : Bytes} (hs : s.IsText)
    (h : s.utf8Encode = some octets) : utf8Decode octets = some s.codePoints := by
  obtain ⟨points⟩ := s
  simp only [PyStr.utf8Encode, Option.map_eq_some_iff] at h
  obtain ⟨parts, hparts, rfl⟩ := h
  induction points generalizing parts with
  | nil =>
    simp only [List.mapM_nil, Option.pure_def, Option.some.injEq] at hparts
    rw [← hparts]
    rfl
  | cons v points ih =>
    simp only [List.mapM_cons, Option.bind_eq_bind, Option.bind_eq_some_iff, Option.pure_def,
      Option.some.injEq] at hparts
    obtain ⟨octets, hv, parts', hrest, rfl⟩ := hparts
    have htail := ih (fun c hc => hs c (List.mem_cons_of_mem _ hc)) parts' hrest
    rw [List.flatten_cons, utf8Decode_point (hs v List.mem_cons_self) hv, htail]
    rfl

/-! ## 2. Cutting a text -/

/-- The payload does not start inside a character. -/
def StartsCharacter (payload : Bytes) : Prop := ∀ b ∈ payload.head?, isContinuation b = false

theorem startsCharacter_cons {b : UInt8} {rest : Bytes} (h : StartsCharacter (b :: rest)) :
    isContinuation b = false := h b rfl

/-- What the decoder reads first: the octets of one character, whatever follows them. -/
theorem utf8Decode_inv {payload : Bytes} (hne : payload ≠ [])
    (h : (utf8Decode payload).isSome = true) :
    ∃ (v : Nat) (octets rest : Bytes), payload = octets ++ rest ∧ octets ≠ [] ∧
      (∀ x ∈ octets.tail, isContinuation x = true) ∧
      ∀ more, utf8Decode (octets ++ more) = (utf8Decode more).map (v :: ·) := by
  rw [utf8Decode.eq_def] at h
  cases payload with
  | nil => exact absurd rfl hne
  | cons a rest =>
    simp only at h
    split at h
    · next h1 =>
      refine ⟨a.toNat, [a], rest, rfl, by simp, by simp, fun more => ?_⟩
      rw [List.singleton_append, utf8Decode.eq_def]
      simp only [h1, if_true]
    · next h1 =>
      split at h
      · next h2 =>
        split at h
        · next b rest' =>
          split at h
          · next hb =>
            refine ⟨(a.toNat - 0xc0) * 64 + (b.toNat - 0x80), [a, b], rest', rfl, by simp, by simp [hb.1],
              fun more => ?_⟩
            rw [List.cons_append, List.singleton_append, utf8Decode.eq_def]
            simp only [if_neg h1, if_pos h2, if_pos hb]
          · cases h
        · cases h
      · next h2 =>
        split at h
        · next h3 =>
          split at h
          · next b c rest' =>
            split at h
            · next hb =>
              refine ⟨(a.toNat - 0xe0) * 4096 + (b.toNat - 0x80) * 64 + (c.toNat - 0x80), [a, b, c],
                rest', rfl, by simp, by simp [hb.1, hb.2.1], fun more => ?_⟩
              rw [List.cons_append, List.cons_append, List.singleton_append, utf8Decode.eq_def]
              simp only [if_neg h1, if_neg h2, if_pos h3, if_pos hb]
            · cases h
          · cases h
        · next h3 =>
          split at h
          · next h4 =>
            split at h
            · next b c d rest' =>
              split at h
              · next hb =>
                refine ⟨(a.toNat - 0xf0) * 262144 + (b.toNat - 0x80) * 4096 + (c.toNat - 0x80) * 64 +
                  (d.toNat - 0x80), [a, b, c, d], rest', rfl, by simp,
                  by simp [hb.1, hb.2.1, hb.2.2.1], fun more => ?_⟩
                rw [List.cons_append, List.cons_append, List.cons_append, List.singleton_append,
                  utf8Decode.eq_def]
                simp only [if_neg h1, if_neg h2, if_neg h3, if_pos h4, if_pos hb]
              · cases h
            · cases h
          · cases h

theorem startsCharacter_of_decode {payload : Bytes} (h : (utf8Decode payload).isSome = true) :
    StartsCharacter payload := by
  intro b hb
  cases payload with
  | nil => cases hb
  | cons a rest =>
    cases hb
    by_contra hcont
    rw [Bool.not_eq_false, isContinuation_iff] at hcont
    rw [utf8Decode.eq_def] at h
    simp only at h
    rw [if_neg (by omega), if_neg (by omega), if_neg (by omega), if_neg (by omega)] at h
    cases h

/-- A cut between two characters leaves two texts. -/
theorem utf8Decode_split {a b : Bytes} (hb : StartsCharacter b)
    (h : (utf8Decode (a ++ b)).isSome = true) :
    (utf8Decode a).isSome = true ∧ (utf8Decode b).isSome = true := by
  induction hn : a.length using Nat.strong_induction_on generalizing a with
  | h n ih =>
  rcases eq_or_ne a [] with rfl | hne
  · exact ⟨rfl, h⟩
  obtain ⟨v, octets, rest, heq, hoctets, hcont, hread⟩ := utf8Decode_inv (by simp [hne]) h
  rw [heq, hread, Option.isSome_map] at h
  rcases List.append_eq_append_iff.mp heq with ⟨c, rfl, rfl⟩ | ⟨c, rfl, rfl⟩
  · -- the character would reach over the cut
    cases c with
    | nil =>
      refine ⟨?_, h⟩
      have := hread []
      simp only [List.append_nil] at this
      rw [this]
      rfl
    | cons x c =>
      have hx : isContinuation x = true := by
        refine hcont x ?_
        rw [List.tail_append_of_ne_nil hne]
        simp
      exact absurd hx (by simp [startsCharacter_cons hb])
  · have hlt : c.length < n := by
      rw [← hn, List.length_append]
      have := List.length_pos_iff.mpr hoctets
      omega
    obtain ⟨hc, hb'⟩ := ih c.length hlt h rfl
    exact ⟨by rw [hread, Option.isSome_map]; exact hc, hb'⟩

end Supplementary
