/-
# Bytes and strings

Python `bytes` are lists of octets.  A Python `str` is a sequence of code points, lone surrogates
included: `json.loads` can produce them and only the strict UTF-8 codec refuses them, so `PyStr`
keeps the code points and `utf8Encode` is partial.

`utf8Decode` is the strict decoder.  `validUtf8_of_decode` ties it to Lean's own encoder: what it
accepts is the encoding of some characters, so "valid UTF-8" below means what `String` means by
it.
-/
import Supplementary.Python.Outcome
import Mathlib.Data.List.Sort
import Mathlib.Data.List.Infix

namespace Supplementary

/-! ## 1. Bytes -/

/-- Python `bytes`. -/
abbrev Bytes := List UInt8

/-- A `b"..."` literal of ASCII characters. -/
def bytes (s : String) : Bytes := s.toList.map fun c => c.toNat.toUInt8

/-- `payload[start:end]` for `start ≤ end`. -/
def slice (payload : Bytes) (start stop : Nat) : Bytes := (payload.drop start).take (stop - start)

theorem length_slice {payload : Bytes} {start stop : Nat} (h : stop ≤ payload.length) :
    (slice payload start stop).length = stop - start := by
  simp only [slice, List.length_take, List.length_drop]
  omega

/-- Adjacent slices concatenate. -/
theorem slice_append_drop {payload : Bytes} {start stop : Nat} (h : start ≤ stop) :
    slice payload start stop ++ payload.drop stop = payload.drop start := by
  have hd : payload.drop stop = (payload.drop start).drop (stop - start) := by
    rw [List.drop_drop]
    congr 1
    omega
  rw [slice, hd, List.take_append_drop]

/-- `0 <= byte <= 9`, `[0-9]` of a bytes pattern. -/
def isDigit (b : UInt8) : Bool := 48 ≤ b && b ≤ 57

/-- `[0-9a-f]` of a bytes pattern. -/
def isHex (b : UInt8) : Bool := isDigit b || (97 ≤ b && b ≤ 102)

/-- `payload & 0xC0 == 0x80`: a UTF-8 continuation byte. -/
def isContinuation (b : UInt8) : Bool := 128 ≤ b && b < 192

/-- The number a run of ASCII digits denotes. -/
def decimal (digits : Bytes) : Nat := digits.foldl (fun n d => 10 * n + (d.toNat - 48)) 0

/-- `int(digits)`: CPython refuses to convert more than 4300 digits. -/
def intOfDigits (digits : Bytes) : Py Nat :=
  if 4300 < digits.length then .error (.valueError "Exceeds the limit for integer string conversion")
  else .ok (decimal digits)

/-! ## 2. Strings -/

/-- A Python `str`, by its code points. -/
structure PyStr where
  codePoints : List Nat
  deriving DecidableEq, Repr

namespace PyStr

def ofString (s : String) : PyStr := ⟨s.toList.map Char.toNat⟩

instance : Coe String PyStr := ⟨ofString⟩

instance : Inhabited PyStr := ⟨⟨[]⟩⟩

instance : Append PyStr := ⟨fun s t => ⟨s.codePoints ++ t.codePoints⟩⟩

/-- `len(text)`: the number of code points. -/
def length (s : PyStr) : Nat := s.codePoints.length

def startsWith (s t : PyStr) : Bool := t.codePoints.isPrefixOf s.codePoints

def endsWith (s t : PyStr) : Bool := t.codePoints.isSuffixOf s.codePoints

/-- `text.split(separator)` for a separator of one character. -/
def split (s : PyStr) (separator : Char) : List PyStr :=
  (s.codePoints.splitOn separator.toNat).map PyStr.mk

/-- `left <= right` on code points, the order `sorted` uses. -/
def le (s t : PyStr) : Prop := @LE.le (List Nat) List.instLE s.codePoints t.codePoints

instance : DecidableRel le := fun s t => List.decidableLE s.codePoints t.codePoints

/-- `text.encode("ascii")` of an ASCII text. -/
def asciiBytes (s : PyStr) : Bytes := s.codePoints.map Nat.toUInt8

/-- `json.loads` of a text that `json.dumps` wrote: the escapes of a high and a low surrogate in
a row come back as the one code point they encode. -/
def rejoin : List Nat → List Nat
  | [] => []
  | [v] => [v]
  | high :: low :: rest =>
    if 0xd800 ≤ high ∧ high < 0xdc00 ∧ 0xdc00 ≤ low ∧ low < 0xe000 then
      (0x10000 + (high - 0xd800) * 1024 + (low - 0xdc00)) :: rejoin rest
    else high :: rejoin (low :: rest)

/-- `json.loads(json.dumps(text))`. -/
def reload (s : PyStr) : PyStr := ⟨rejoin s.codePoints⟩

end PyStr

/-! ## 3. UTF-8 -/

/-- The UTF-8 octets of one code point; `none` for a surrogate, which the strict codec refuses. -/
def utf8EncodePoint (v : Nat) : Option Bytes :=
  if v ≤ 0x7f then some [v.toUInt8]
  else if v ≤ 0x7ff then some [(v / 64 % 0x20 + 0xc0).toUInt8, (v % 0x40 + 0x80).toUInt8]
  else if 0xd800 ≤ v ∧ v ≤ 0xdfff then none
  else if v ≤ 0xffff then
    some [(v / 4096 % 0x10 + 0xe0).toUInt8, (v / 64 % 0x40 + 0x80).toUInt8,
      (v % 0x40 + 0x80).toUInt8]
  else
    some [(v / 262144 % 0x08 + 0xf0).toUInt8, (v / 4096 % 0x40 + 0x80).toUInt8,
      (v / 64 % 0x40 + 0x80).toUInt8, (v % 0x40 + 0x80).toUInt8]

/-- `name.encode("utf-8", errors="strict")`; `none` is the `UnicodeError`. -/
def PyStr.utf8Encode (s : PyStr) : Option Bytes :=
  (s.codePoints.mapM utf8EncodePoint).map List.flatten

/-- `payload.decode("utf-8", errors="strict")`; `none` is the `UnicodeError`.  The lead byte
fixes the length, and the bound on the code point refuses overlong forms, surrogates and
everything above U+10FFFF. -/
def utf8Decode : Bytes → Option (List Nat)
  | [] => some []
  | a :: rest =>
    if a.toNat < 0x80 then (utf8Decode rest).map (a.toNat :: ·)
    else if 0xc0 ≤ a.toNat ∧ a.toNat < 0xe0 then
      match rest with
      | b :: rest =>
        let v := (a.toNat - 0xc0) * 64 + (b.toNat - 0x80)
        if isContinuation b ∧ 0x80 ≤ v then (utf8Decode rest).map (v :: ·) else none
      | _ => none
    else if 0xe0 ≤ a.toNat ∧ a.toNat < 0xf0 then
      match rest with
      | b :: c :: rest =>
        let v := (a.toNat - 0xe0) * 4096 + (b.toNat - 0x80) * 64 + (c.toNat - 0x80)
        if isContinuation b ∧ isContinuation c ∧ 0x800 ≤ v ∧ ¬ (0xd800 ≤ v ∧ v ≤ 0xdfff) then
          (utf8Decode rest).map (v :: ·)
        else none
      | _ => none
    else if 0xf0 ≤ a.toNat ∧ a.toNat < 0xf8 then
      match rest with
      | b :: c :: d :: rest =>
        let v := (a.toNat - 0xf0) * 262144 + (b.toNat - 0x80) * 4096 + (c.toNat - 0x80) * 64
          + (d.toNat - 0x80)
        if isContinuation b ∧ isContinuation c ∧ isContinuation d ∧ 0x10000 ≤ v ∧ v ≤ 0x10ffff then
          (utf8Decode rest).map (v :: ·)
        else none
      | _ => none
    else none

theorem isContinuation_iff {b : UInt8} :
    isContinuation b = true ↔ 0x80 ≤ b.toNat ∧ b.toNat < 0xc0 := by
  simp [isContinuation, UInt8.le_iff_toNat_le, UInt8.lt_iff_toNat_lt]

/-- A list of octets that is the encoding of some characters. -/
def ValidUtf8 (payload : Bytes) : Prop :=
  ∃ cs : List Char, payload = cs.flatMap String.utf8EncodeChar

theorem ofNat_eq_of_toNat {n : Nat} {b : UInt8} (h : n = b.toNat) : UInt8.ofNat n = b := by
  subst h; simp

theorem utf8EncodeChar_one {c : Char} {a : UInt8} (ha : a.toNat < 0x80) (hc : c.toNat = a.toNat) :
    String.utf8EncodeChar c = [a] := by
  have hv : c.val.toNat = a.toNat := hc
  simp only [String.utf8EncodeChar, hv]
  rw [if_pos (by omega)]
  simp

theorem utf8EncodeChar_two {c : Char} {a b : UInt8} (ha : 0xc0 ≤ a.toNat ∧ a.toNat < 0xe0)
    (hb : isContinuation b = true) (hv : c.toNat = (a.toNat - 0xc0) * 64 + (b.toNat - 0x80))
    (hlow : 0x80 ≤ c.toNat) : String.utf8EncodeChar c = [a, b] := by
  have hval : c.val.toNat = c.toNat := rfl
  rw [isContinuation_iff] at hb
  simp only [String.utf8EncodeChar, hval]
  rw [if_neg (by omega), if_pos (by omega)]
  rw [ofNat_eq_of_toNat (b := a) (by omega), ofNat_eq_of_toNat (b := b) (by omega)]

theorem utf8EncodeChar_three {c : Char} {a b d : UInt8} (ha : 0xe0 ≤ a.toNat ∧ a.toNat < 0xf0)
    (hb : isContinuation b = true) (hd : isContinuation d = true)
    (hv : c.toNat = (a.toNat - 0xe0) * 4096 + (b.toNat - 0x80) * 64 + (d.toNat - 0x80))
    (hlow : 0x800 ≤ c.toNat) : String.utf8EncodeChar c = [a, b, d] := by
  have hval : c.val.toNat = c.toNat := rfl
  rw [isContinuation_iff] at hb hd
  simp only [String.utf8EncodeChar, hval]
  rw [if_neg (by omega), if_neg (by omega), if_pos (by omega)]
  rw [ofNat_eq_of_toNat (b := a) (by omega), ofNat_eq_of_toNat (b := b) (by omega),
    ofNat_eq_of_toNat (b := d) (by omega)]

theorem utf8EncodeChar_four {c : Char} {a b d e : UInt8} (ha : 0xf0 ≤ a.toNat ∧ a.toNat < 0xf8)
    (hb : isContinuation b = true) (hd : isContinuation d = true) (he : isContinuation e = true)
    (hv : c.toNat = (a.toNat - 0xf0) * 262144 + (b.toNat - 0x80) * 4096 + (d.toNat - 0x80) * 64
      + (e.toNat - 0x80))
    (hlow : 0x10000 ≤ c.toNat) : String.utf8EncodeChar c = [a, b, d, e] := by
  have hval : c.val.toNat = c.toNat := rfl
  rw [isContinuation_iff] at hb hd he
  simp only [String.utf8EncodeChar, hval]
  rw [if_neg (by omega), if_neg (by omega), if_neg (by omega)]
  rw [ofNat_eq_of_toNat (b := a) (by omega), ofNat_eq_of_toNat (b := b) (by omega),
    ofNat_eq_of_toNat (b := d) (by omega), ofNat_eq_of_toNat (b := e) (by omega)]

/-- A code point outside the surrogates is a character. -/
theorem exists_char {v : Nat} (hmax : v ≤ 0x10ffff) (hsur : ¬ (0xd800 ≤ v ∧ v ≤ 0xdfff)) :
    ∃ c : Char, c.toNat = v := by
  have hvalid : v.isValidChar := by
    unfold Nat.isValidChar
    omega
  exact ⟨Char.ofNatAux v hvalid, rfl⟩

theorem ValidUtf8.cons {head rest : Bytes} {c : Char} (hc : String.utf8EncodeChar c = head)
    (h : ValidUtf8 rest) : ValidUtf8 (head ++ rest) := by
  obtain ⟨cs, rfl⟩ := h
  exact ⟨c :: cs, by rw [List.flatMap_cons, hc]⟩

/-- **The strict decoder accepts only UTF-8.**  Induction on the decoder's own recursion: each
accepting branch contributes the encoding of one character. -/
theorem validUtf8_of_decode {payload : Bytes} {points : List Nat}
    (h : utf8Decode payload = some points) : ValidUtf8 payload := by
  fun_induction utf8Decode payload generalizing points with
  | case1 => exact ⟨[], rfl⟩
  | case2 a rest ha ih =>
    obtain ⟨ps, hps, -⟩ := Option.map_eq_some_iff.mp h
    obtain ⟨c, hc⟩ := exists_char (v := a.toNat) (by omega) (by omega)
    exact (ih hps).cons (utf8EncodeChar_one ha hc)
  | case3 a h1 ha b rest v hv =>
    rename_i ih
    obtain ⟨ps, hps, -⟩ := Option.map_eq_some_iff.mp h
    have hb := isContinuation_iff.mp hv.1
    obtain ⟨c, hc⟩ := exists_char (v := v) (by omega) (by omega)
    exact (ih hps).cons (utf8EncodeChar_two ha hv.1 hc (hc ▸ hv.2))
  | case6 a h1 h2 ha b c rest v hv =>
    rename_i ih
    obtain ⟨ps, hps, -⟩ := Option.map_eq_some_iff.mp h
    have hb := isContinuation_iff.mp hv.1
    have hc := isContinuation_iff.mp hv.2.1
    obtain ⟨ch, hch⟩ := exists_char (v := v) (by omega) hv.2.2.2
    exact (ih hps).cons (utf8EncodeChar_three ha hv.1 hv.2.1 hch (hch ▸ hv.2.2.1))
  | case9 a h1 h2 h3 ha b c d rest v hv =>
    rename_i ih
    obtain ⟨ps, hps, -⟩ := Option.map_eq_some_iff.mp h
    obtain ⟨hb, hc, hd, hlow, hmax⟩ := hv
    obtain ⟨ch, hch⟩ := exists_char hmax (by omega)
    exact (ih hps).cons (utf8EncodeChar_four ha hb hc hd hch (hch ▸ hlow))
  | _ => exact absurd h (by simp)

end Supplementary
