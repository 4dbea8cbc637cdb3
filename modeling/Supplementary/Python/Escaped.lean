/-
# Text with escapes, read from a stream

`codecs.getincrementaldecoder("utf-8")(errors="surrogateescape")`, on its own and inside
`io.IncrementalNewlineDecoder(..., translate=True)`.  Every octet string is text to these decoders: an
octet that belongs to no character becomes a lone surrogate.

Both decoders hold something back at the end of a block: the octets of a character that may still be
completed, and a carriage return that a line feed may still follow.  `decodedChunks_flatten` says that
nothing of it is lost, wherever the blocks end.
-/
import Supplementary.Python.Incremental

namespace Supplementary

/-! ## 1. One character -/

/-- The only character of a text. -/
def onlyPoint : Option (List Nat) → Option Nat
  | some [v] => some v
  | _ => none

/-- The character that the octets begin with, and how many of them are its own. -/
def charAt (octets : Bytes) : Option (Nat × Nat) :=
  [1, 2, 3, 4].findSome? fun n =>
    (onlyPoint (utf8Decode (octets.take n))).map (·, (octets.take n).length)

theorem onlyPoint_eq_some {points : Option (List Nat)} {v : Nat} :
    onlyPoint points = some v ↔ points = some [v] := by
  constructor
  · intro h
    unfold onlyPoint at h
    split at h
    · cases h
      rfl
    · cases h
  · rintro rfl
    rfl

theorem eq_nil_of_decode {octets : Bytes} (h : utf8Decode octets = some []) : octets = [] := by
  have hencode := utf8Encode_of_decode h
  cases hencode
  rfl

/-- Octets that are one character. -/
theorem utf8Decode_eq_singleton {octets : Bytes} {v : Nat} :
    utf8Decode octets = some [v] ↔ v ≤ 0x10ffff ∧ utf8EncodePoint v = some octets := by
  constructor
  · intro h
    have hne : octets ≠ [] := by
      rintro rfl
      cases h
    obtain ⟨w, first, rest, rfl, hw, hfirst⟩ := utf8Decode_head hne (Option.isSome_of_eq_some h)
    rw [utf8Decode_point hw hfirst, Option.map_eq_some_iff] at h
    obtain ⟨points, hrest, hpoints⟩ := h
    obtain ⟨rfl, rfl⟩ := List.cons.inj hpoints
    rw [eq_nil_of_decode hrest, List.append_nil]
    exact ⟨hw, hfirst⟩
  · rintro ⟨hv, hoctets⟩
    have hread := @utf8Decode_point v octets [] hv hoctets
    rwa [List.append_nil] at hread

/-- Of two characters that begin the same octets, neither reaches beyond the other. -/
theorem point_unique {v w : Nat} {octets octets' rest rest' : Bytes} (hv : v ≤ 0x10ffff)
    (hoctets : utf8EncodePoint v = some octets) (hw : w ≤ 0x10ffff)
    (hoctets' : utf8EncodePoint w = some octets') (h : octets ++ rest = octets' ++ rest') :
    v = w ∧ octets = octets' := by
  have hlonger {v w : Nat} {octets c : Bytes} (hv : v ≤ 0x10ffff)
      (hoctets : utf8EncodePoint v = some octets) (hw : w ≤ 0x10ffff)
      (hlong : utf8EncodePoint w = some (octets ++ c)) : v = w ∧ c = [] := by
    have hread := utf8Decode_eq_singleton.mpr ⟨hw, hlong⟩
    rw [utf8Decode_point hv hoctets, Option.map_eq_some_iff] at hread
    obtain ⟨points, hrest, hpoints⟩ := hread
    obtain ⟨rfl, rfl⟩ := List.cons.inj hpoints
    exact ⟨rfl, eq_nil_of_decode hrest⟩
  rcases List.append_eq_append_iff.mp h with ⟨c, rfl, -⟩ | ⟨c, rfl, -⟩
  · obtain ⟨rfl, rfl⟩ := hlonger hv hoctets hw hoctets'
    exact ⟨rfl, (List.append_nil _).symm⟩
  · obtain ⟨rfl, rfl⟩ := hlonger hw hoctets' hv hoctets
    exact ⟨rfl, List.append_nil _⟩

theorem length_utf8EncodePoint {v : Nat} {octets : Bytes} (h : utf8EncodePoint v = some octets) :
    octets.length ∈ [1, 2, 3, 4] := by
  unfold utf8EncodePoint at h
  split_ifs at h
  all_goals
    cases h
    simp

theorem charAt_eq_some {payload : Bytes} {v n : Nat} : charAt payload = some (v, n) ↔
    ∃ octets rest, payload = octets ++ rest ∧ v ≤ 0x10ffff ∧ utf8EncodePoint v = some octets ∧
      n = octets.length := by
  have hread {v n : Nat} (h : charAt payload = some (v, n)) : ∃ octets rest,
      payload = octets ++ rest ∧ v ≤ 0x10ffff ∧ utf8EncodePoint v = some octets ∧
        n = octets.length := by
    obtain ⟨k, -, hk⟩ := List.exists_of_findSome?_eq_some h
    obtain ⟨w, hw, hpair⟩ := Option.map_eq_some_iff.mp hk
    cases hpair
    obtain ⟨hv, hoctets⟩ := utf8Decode_eq_singleton.mp (onlyPoint_eq_some.mp hw)
    exact ⟨_, payload.drop k, (List.take_append_drop k payload).symm, hv, hoctets, rfl⟩
  refine ⟨hread, ?_⟩
  rintro ⟨octets, rest, rfl, hv, hoctets, rfl⟩
  cases hchar : charAt (octets ++ rest) with
  | none =>
    have hnone := List.findSome?_eq_none_iff.mp hchar octets.length (length_utf8EncodePoint hoctets)
    rw [List.take_left, utf8Decode_eq_singleton.mpr ⟨hv, hoctets⟩] at hnone
    cases hnone
  | some found =>
    obtain ⟨octets', rest', heq, hw, hoctets', hlength⟩ := hread hchar
    obtain ⟨rfl, rfl⟩ := point_unique hv hoctets hw hoctets' heq
    rw [← hlength]

/-! ## 2. The decoder -/

/-- The first two octets of the three that would spell a surrogate; the decoder waits for the third
before it refuses them. -/
def isCutSurrogate : Bytes → Bool
  | [a, b] => a.toNat = 0xed && 0xa0 ≤ b.toNat && b.toNat < 0xc0
  | _ => false

/-- What the decoder holds back at the end of a block. -/
def isHeld (octets : Bytes) : Bool := isCut octets || isCutSurrogate octets

/-- `codecs.utf_8_decode(octets, "surrogateescape", final)`: the text, and the octets held back.
`skip` counts the octets of the last character that are still to come. -/
def decodePart (final : Bool) : (skip : Nat) → Bytes → List Nat × Bytes
  | _, [] => ([], [])
  | skip + 1, _ :: rest => decodePart final skip rest
  | 0, a :: rest =>
    if final = false ∧ isHeld (a :: rest) = true then ([], a :: rest)
    else
      let point := (charAt (a :: rest)).getD (0xdc00 + a.toNat, 1)
      let tail := decodePart final (point.2 - 1) rest
      (point.1 :: tail.1, tail.2)

/-- `octets.decode("utf-8", "surrogateescape")`. -/
def decodeEscaped (octets : Bytes) : List Nat := (decodePart true 0 octets).1

theorem isHeld_two {a b : UInt8} (h : isHeld [a, b] = true) : isHeld [a] = true := by
  simp only [isHeld, isCut, isCutSurrogate, Bool.or_eq_true, Bool.and_eq_true, decide_eq_true_eq,
    Bool.or_false] at h ⊢
  omega

theorem isHeld_three {a b c : UInt8} (h : isHeld [a, b, c] = true) : isHeld [a, b] = true := by
  simp only [isHeld, isCut, isCutSurrogate, Bool.or_eq_true, Bool.and_eq_true, decide_eq_true_eq,
    Bool.or_false, isContinuation_iff] at h ⊢
  omega

theorem not_isHeld_long {a b c d : UInt8} {rest : Bytes} : isHeld (a :: b :: c :: d :: rest) = false :=
  rfl

/-- What is held back was held back before it was complete up to here. -/
theorem isHeld_of_append {x y : Bytes} (hne : x ≠ []) (h : isHeld (x ++ y) = true) :
    isHeld x = true := by
  rcases x with _ | ⟨a, _ | ⟨b, _ | ⟨c, _ | ⟨d, x⟩⟩⟩⟩
  · exact absurd rfl hne
  · rcases y with _ | ⟨b, _ | ⟨c, _ | ⟨d, y⟩⟩⟩
    · exact h
    · exact isHeld_two h
    · exact isHeld_two (isHeld_three h)
    · cases h
  · rcases y with _ | ⟨c, _ | ⟨d, y⟩⟩
    · exact h
    · exact isHeld_three h
    · cases h
  · rcases y with _ | ⟨d, y⟩
    · exact h
    · cases h
  · cases h

/-- More octets do not change the character that stands at the head. -/
theorem charAt_append {x y : Bytes} (hne : x ≠ []) (h : isHeld x = false) :
    charAt (x ++ y) = charAt x := by
  cases hx : charAt x with
  | some found =>
    obtain ⟨octets, rest, rfl, hv, hoctets, hlength⟩ := charAt_eq_some.mp hx
    refine charAt_eq_some.mpr ⟨octets, rest ++ y, List.append_assoc _ _ _, hv, hoctets, hlength⟩
  | none =>
    cases hxy : charAt (x ++ y) with
    | none => rfl
    | some found =>
      obtain ⟨octets, rest, heq, hv, hoctets, hlength⟩ := charAt_eq_some.mp hxy
      rcases List.append_eq_append_iff.mp heq with ⟨c, rfl, -⟩ | ⟨c, rfl, -⟩
      · by_cases hc : c = []
        · subst hc
          rw [List.append_nil] at hoctets
          have hwhole := charAt_eq_some.mpr ⟨x, [], (List.append_nil x).symm, hv, hoctets, rfl⟩
          rw [hx] at hwhole
          cases hwhole
        · have hcut := isCut_of_append hv hne hc hoctets
          rw [isHeld, hcut] at h
          cases h
      · have hwhole := charAt_eq_some.mpr ⟨octets, c, rfl, hv, hoctets, rfl⟩
        rw [hx] at hwhole
        cases hwhole

/-- A character has an octet, and no more than there are. -/
theorem charAt_size {a : UInt8} {rest : Bytes} :
    ((charAt (a :: rest)).getD (0xdc00 + a.toNat, 1)).2 - 1 ≤ rest.length := by
  cases h : charAt (a :: rest) with
  | none => simp
  | some found =>
    obtain ⟨octets, rest', heq, -, -, hlength⟩ := charAt_eq_some.mp h
    have hlengths := congrArg List.length heq
    rw [List.length_cons, List.length_append] at hlengths
    rw [Option.getD_some, hlength]
    omega

/-- **Decoding goes on where it stopped.** -/
theorem decodePart_append {final : Bool} {skip : Nat} {x y : Bytes} (hskip : skip ≤ x.length) :
    decodePart final skip (x ++ y) =
      ((decodePart false skip x).1 ++ (decodePart final 0 ((decodePart false skip x).2 ++ y)).1,
        (decodePart final 0 ((decodePart false skip x).2 ++ y)).2) := by
  induction x generalizing skip with
  | nil =>
    obtain rfl : skip = 0 := Nat.le_zero.mp hskip
    rfl
  | cons a x ih =>
    cases skip with
    | succ skip => exact ih (Nat.le_of_succ_le_succ hskip)
    | zero =>
      by_cases hheld : isHeld (a :: x) = true
      · have hpart : decodePart false 0 (a :: x) = ([], a :: x) := if_pos ⟨rfl, hheld⟩
        rw [hpart]
        rfl
      · have hchar := @charAt_append (a :: x) y (List.cons_ne_nil a x) (by simpa using hheld)
        have hmore : ¬ (final = false ∧ isHeld (a :: (x ++ y)) = true) := by
          rintro ⟨-, hlong⟩
          exact hheld (@isHeld_of_append (a :: x) y (List.cons_ne_nil a x) hlong)
        rw [List.cons_append] at hchar ⊢
        simp only [decodePart, if_neg hmore, hchar, hheld, and_false, if_false, Bool.false_eq_true]
        rw [ih charAt_size]
        rfl

theorem decodeEscaped_append (x y : Bytes) :
    decodeEscaped (x ++ y) =
      (decodePart false 0 x).1 ++ decodeEscaped ((decodePart false 0 x).2 ++ y) :=
  congrArg Prod.fst (decodePart_append (Nat.zero_le _))

/-- The octets that are left of a character are passed over. -/
theorem decodePart_skip {final : Bool} {octets rest : Bytes} :
    decodePart final octets.length (octets ++ rest) = decodePart final 0 rest := by
  induction octets with
  | nil => rfl
  | cons a octets ih => exact ih

/-- Text without an error is decoded as the strict decoder does. -/
theorem decodeEscaped_of_decode {payload : Bytes} {points : List Nat}
    (h : utf8Decode payload = some points) : decodeEscaped payload = points := by
  refine @utf8Decode_induction (fun payload points => decodeEscaped payload = points) rfl ?_
    payload points h
  intro v octets rest points hv hoctets _ ih
  obtain ⟨a, octets, rfl⟩ := List.exists_cons_of_ne_nil (utf8EncodePoint_ne_nil hoctets)
  have hchar : charAt (a :: (octets ++ rest)) = some (v, octets.length + 1) :=
    charAt_eq_some.mpr ⟨a :: octets, rest, rfl, hv, hoctets, rfl⟩
  rw [List.cons_append]
  simp only [decodeEscaped, decodePart, hchar, reduceCtorEq, false_and, if_false, Option.getD_some,
    Nat.add_sub_cancel, decodePart_skip]
  exact congrArg (v :: ·) ih

/-! ## 3. Universal newlines -/

/-- A line ends with a line feed, however it ended before. -/
def translate : List Nat → List Nat
  | 13 :: 10 :: rest => 10 :: translate rest
  | c :: rest => (if c = 13 then 10 else c) :: translate rest
  | [] => []

/-- The carriage return that is held back. -/
def pendingReturn (pending : Bool) : List Nat := if pending then [13] else []

/-- `IncrementalNewlineDecoder.decode` of what the inner decoder put out: the text, and whether a
carriage return is held back. -/
def translatePart (final pending : Bool) (output : List Nat) : List Nat × Bool :=
  let joins := pending && (output ≠ [] || final)
  let output := if joins then 13 :: output else output
  if output.getLast? = some 13 ∧ final = false then (translate output.dropLast, true)
  else (translate output, pending && !joins)

theorem translate_cons {c : Nat} {rest : List Nat} (h : c = 13 → rest.head? ≠ some 10) :
    translate (c :: rest) = (if c = 13 then 10 else c) :: translate rest := by
  rw [translate.eq_def]
  split
  · next heq =>
    obtain ⟨rfl, rfl⟩ := List.cons.inj heq
    exact absurd rfl (h rfl)
  · next heq =>
    obtain ⟨rfl, rfl⟩ := List.cons.inj heq
    rfl
  · next heq => cases heq

/-- Two texts are translated one by one, unless the cut is between a carriage return and its line
feed. -/
theorem translate_append {x y : List Nat} (h : x.getLast? = some 13 → y.head? ≠ some 10) :
    translate (x ++ y) = translate x ++ translate y := by
  fun_induction translate x with
  | case1 rest ih =>
    rw [List.cons_append, List.cons_append, translate, ih, List.cons_append]
    intro hlast
    refine h ?_
    rw [List.getLast?_cons, List.getLast?_cons, hlast]
    rfl
  | case2 c rest hpair ih =>
    rw [List.cons_append, translate_cons, ih, List.cons_append]
    · intro hlast
      refine h ?_
      rw [List.getLast?_cons, hlast]
      rfl
    · rintro rfl hhead
      cases rest with
      | nil => exact h rfl hhead
      | cons d rest =>
        obtain rfl : d = 10 := Option.some.inj hhead
        exact hpair rest rfl rfl
  | case3 => rfl

/-- **Translating goes on where it stopped.** -/
theorem translatePart_append {pending : Bool} {output rest : List Nat} :
    translate (pendingReturn pending ++ (output ++ rest)) = (translatePart false pending output).1 ++
      translate (pendingReturn (translatePart false pending output).2 ++ rest) := by
  by_cases hne : output = []
  · subst hne
    have hnone : translatePart false pending [] = ([], pending) := by cases pending <;> rfl
    rw [hnone]
    rfl
  have hpart : translatePart false pending output =
      if (pendingReturn pending ++ output).getLast? = some 13 then
        (translate (pendingReturn pending ++ output).dropLast, true)
      else (translate (pendingReturn pending ++ output), false) := by
    cases pending <;> simp [translatePart, pendingReturn, hne]
  rw [hpart, ← List.append_assoc]
  generalize pendingReturn pending ++ output = whole
  split
  · next hlast =>
    obtain ⟨start, rfl⟩ := List.getLast?_eq_some_iff.mp hlast
    rw [List.dropLast_concat, List.append_assoc]
    refine translate_append fun _ => ?_
    rintro ⟨⟩
  · next hlast => exact translate_append fun hend => absurd hend hlast

theorem translatePart_final {pending : Bool} {output : List Nat} :
    (translatePart true pending output).1 = translate (pendingReturn pending ++ output) := by
  cases pending with
  | false => simp [translatePart, pendingReturn]
  | true => simp [translatePart, pendingReturn]

/-! ## 4. Both -/

/-- `octets.decode("utf-8", "surrogateescape")` with its lines ended by line feeds. -/
def decodedText (octets : Bytes) : PyStr := ⟨translate (decodeEscaped octets)⟩

/-- `decode(block)` of each block, and last `decode(b"", final=True)`, from what is held back. -/
def decodedChunks : (held : Bytes) → (pending : Bool) → List Bytes → List PyStr
  | held, pending, [] => [⟨(translatePart true pending (decodeEscaped held)).1⟩]
  | held, pending, block :: blocks =>
    let part := decodePart false 0 (held ++ block)
    let text := translatePart false pending part.1
    ⟨text.1⟩ :: decodedChunks part.2 text.2 blocks

/-- **Wherever a stream is cut, its text is the same.** -/
theorem decodedChunks_flatten {held : Bytes} {pending : Bool} {blocks : List Bytes} :
    (decodedChunks held pending blocks).flatMap PyStr.codePoints =
      translate (pendingReturn pending ++ decodeEscaped (held ++ blocks.flatten)) := by
  induction blocks generalizing held pending with
  | nil =>
    simp only [decodedChunks, List.flatMap_cons, List.flatMap_nil, List.append_nil, translatePart_final,
      List.flatten_nil]
  | cons block blocks ih =>
    simp only [decodedChunks, List.flatMap_cons, ih, List.flatten_cons]
    rw [← List.append_assoc held, decodeEscaped_append (held ++ block), translatePart_append]

example : decodedChunks [] false [[0xc3], [0xa9, 13], [10, 0xff, 0xed], [0xa0, 13]] =
    [⟨[]⟩, ⟨[0xe9]⟩, ⟨[10, 0xdcff]⟩, ⟨[0xdced, 0xdca0]⟩, ⟨[10]⟩] := by decide +kernel

end Supplementary
