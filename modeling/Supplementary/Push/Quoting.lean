/-
# Quoted paths, read back

`quote_diff_path` spells a path and `unquote_diff_path` reads one.  The two decide on different
things: the quoting on characters, the spelling on octets, so that a path with a surrogate is read
back only if nothing in it is quoted (`roundTrip_iff`).  The reader refuses a malformed spelling with
`RuntimeError`, except an octal number above 377 and a character without an encoding, which raise
what `bytearray.append` and `str.encode` raise (`refuses_iff`).
-/
import Supplementary.Push.Fixtures
import Supplementary.Push.Untracked

namespace Supplementary.Push

open PyStr

/-! ## 1. Spelled octets, read -/

theorem unquoted_plain {c : Nat} {octets : Bytes} {rest : List Nat} (hc : c ≠ 92)
    (hoctets : utf8EncodePoint c = some octets) :
    unquoted (c :: rest) = (unquoted rest).map (octets ++ ·) := by
  rw [unquoted.eq_def]
  split
  · next heq => cases heq
  · next heq => exact absurd (List.cons.inj heq).1 hc
  · next heq => exact absurd (List.cons.inj heq).1 hc
  · next heq =>
    obtain ⟨rfl, rfl⟩ := List.cons.inj heq
    rw [hoctets]
    cases unquoted rest <;> rfl

theorem unquoted_escape {c : Nat} {octet : UInt8} {rest : List Nat} (h : escapes c = some octet) :
    unquoted (92 :: c :: rest) = (unquoted rest).map (octet :: ·) := by
  rw [unquoted.eq_def]
  simp only [h]
  cases unquoted rest <;> rfl

theorem escapes_of_isOctal {c : Nat} (h : isOctal c = true) : escapes c = none := by
  simp only [isOctal, Bool.and_eq_true, decide_eq_true_eq] at h
  unfold escapes
  split <;> first | omega | rfl

theorem unquoted_octal {c d e : Nat} {rest : List Nat} (hc : isOctal c = true)
    (hd : isOctal d = true) (he : isOctal e = true) :
    unquoted (92 :: c :: d :: e :: rest) =
      octalOctet c d e >>= fun octet => (unquoted rest).map (octet :: ·) := by
  rw [unquoted, escapes_of_isOctal hc]
  simp only [hc, hd, he, Bool.not_true, Bool.false_eq_true, if_false, Bool.and_self, if_true]
  cases octalOctet c d e with
  | error error => rfl
  | ok octet => cases unquoted rest <;> rfl

theorem isOctal_octalDigit (n : Nat) : isOctal (octalDigit n) = true := by
  have hlow : 48 ≤ octalDigit n := Nat.le_add_right _ _
  have hhigh : octalDigit n ≤ 55 := by
    unfold octalDigit
    omega
  rw [isOctal, decide_eq_true hlow, decide_eq_true hhigh]
  rfl

theorem octalOctet_spelled (b : UInt8) :
    octalOctet (octalDigit (b.toNat / 64)) (octalDigit (b.toNat / 8)) (octalDigit b.toNat) = .ok b := by
  have hlt := b.toNat_lt
  have hvalue : ((octalDigit (b.toNat / 64) - 48) * 8 + (octalDigit (b.toNat / 8) - 48)) * 8 +
      (octalDigit b.toNat - 48) = b.toNat := by
    simp only [octalDigit]
    omega
  rw [octalOctet, hvalue, if_pos hlt]
  exact congrArg _ (UInt8.ofNat_toNat (x := b))

/-- What `quote_diff_path` writes for an octet is read as that octet. -/
theorem unquoted_spellOctet (b : UInt8) (rest : List Nat) :
    unquoted (spellOctet b ++ rest) = (unquoted rest).map (b :: ·) := by
  unfold spellOctet
  split_ifs with h92 h34 h9 h10 h13 hplain
  · rw [h92]
    exact unquoted_escape rfl
  · rw [h34]
    exact unquoted_escape rfl
  · rw [h9]
    exact unquoted_escape rfl
  · rw [h10]
    exact unquoted_escape rfl
  · rw [h13]
    exact unquoted_escape rfl
  · have hne : b.toNat ≠ 92 := fun h => h92 (UInt8.toNat_inj.mp h)
    have hlow : b.toNat < 0x80 := Nat.lt_of_le_of_lt hplain.2 (by decide)
    have hoctet : utf8EncodePoint b.toNat = some [b] := by
      rw [utf8EncodePoint, if_pos (by omega)]
      exact congrArg (fun octet => some [octet]) (UInt8.ofNat_toNat (x := b))
    exact unquoted_plain hne hoctet
  · rw [List.cons_append, List.cons_append, List.cons_append, List.singleton_append,
      unquoted_octal (isOctal_octalDigit _) (isOctal_octalDigit _) (isOctal_octalDigit _),
      octalOctet_spelled]
    rfl

theorem unquoted_spelled (octets : Bytes) : unquoted (octets.flatMap spellOctet) = .ok octets := by
  induction octets with
  | nil => rfl
  | cons b octets ih =>
    rw [List.flatMap_cons, unquoted_spellOctet, ih]
    rfl

/-! ## 2. The round trip -/

/-- The path is read back: nothing in it is quoted, or all of it has an encoding. -/
def Restorable (name : PyStr) : Prop :=
  name.codePoints.any needsQuote = true → ∀ c ∈ name.codePoints, ¬ (0xd800 ≤ c ∧ c ≤ 0xdfff)

instance (name : PyStr) : Decidable (Restorable name) := by
  unfold Restorable
  infer_instance

/-- The reading of the value. -/
def readPath (value : PyStr) : Except FixtureError PyStr :=
  if value.startsWith "\"" then
    if value.length < 2 || !value.endsWith "\"" then .error (.runtimeError "malformed quoted diff path")
    else do
      let decoded ← unquoted (value.codePoints.drop 1).dropLast
      match utf8Decode decoded with
      | some points => .ok ⟨points⟩
      | none => .error (.runtimeError "diff path is not UTF-8")
  else if value.codePoints.any isSpace then .error (.runtimeError "diff path contains whitespace")
  else .ok value

/-- The checks of what was read. -/
def checkedPath (side pathValue : PyStr) : Except FixtureError (Option PyStr) :=
  if !pathValue.startsWith (side ++ "/") then .error (.runtimeError "diff path prefix is invalid")
  else
    let path : PyStr := ⟨pathValue.codePoints.drop (side.length + 1)⟩
    if isSafePath path then .ok (some path) else .error (.runtimeError "diff path is unsafe")

theorem unquoteDiffPath_eq {value side : PyStr} (h : value ≠ "/dev/null") :
    unquoteDiffPath value side = readPath value >>= checkedPath side := by
  rw [unquoteDiffPath, if_neg h, readPath]
  dsimp only
  split_ifs
  · rfl
  · cases unquoted (value.codePoints.drop 1).dropLast with
    | error e => rfl
    | ok decoded =>
      simp only [ok_bind]
      cases utf8Decode decoded <;> rfl
  · rfl
  · rfl

theorem checkedPath_join {side path : PyStr} (h : isSafePath path = true) :
    checkedPath side (side ++ "/" ++ path) = .ok (some path) := by
  have hpoints : (side ++ "/" ++ path).codePoints = (side ++ "/").codePoints ++ path.codePoints :=
    codePoints_append _ _
  have hstarts : (side ++ "/" ++ path).startsWith (side ++ "/") = true := by
    rw [startsWith, List.isPrefixOf_iff_prefix, hpoints]
    exact List.prefix_append _ _
  have hlength : (side ++ ("/" : PyStr)).codePoints.length = side.length + 1 := by
    rw [codePoints_append, List.length_append]
    rfl
  have hdrop : (⟨(side ++ "/" ++ path).codePoints.drop (side.length + 1)⟩ : PyStr) = path := by
    rw [hpoints, ← hlength, List.drop_left]
  simp only [checkedPath, hstarts, hdrop, h, Bool.not_true, Bool.false_eq_true, if_false, if_true]

theorem readPath_quoted (octets : Bytes) : readPath (quoted octets) = match utf8Decode octets with
    | some points => .ok ⟨points⟩
    | none => .error (.runtimeError "diff path is not UTF-8") := by
  have hpoints : (quoted octets).codePoints = 34 :: (octets.flatMap spellOctet ++ [34]) := by
    simp only [quoted, codePoints_append]
    rfl
  have hstarts : (quoted octets).startsWith "\"" = true := by
    rw [startsWith, hpoints]
    simp [ofString]
  have hlength : ¬ (quoted octets).length < 2 := by
    rw [PyStr.length, hpoints]
    simp
  have hends : (quoted octets).endsWith "\"" = true := by
    rw [endsWith, hpoints, List.isSuffixOf_iff_suffix]
    exact ⟨34 :: octets.flatMap spellOctet, rfl⟩
  have hpayload : ((quoted octets).codePoints.drop 1).dropLast = octets.flatMap spellOctet := by
    rw [hpoints, List.drop_one, List.tail_cons, List.dropLast_concat]
  simp only [readPath, hstarts, if_true, decide_eq_false hlength, hends, hpayload, unquoted_spelled,
    Bool.not_true, Bool.or_false, Bool.false_eq_true, if_false, ok_bind]

theorem decoded_encodable {octets : Bytes} {points : List Nat} (h : utf8Decode octets = some points) :
    ∀ c ∈ points, ¬ (0xd800 ≤ c ∧ c ≤ 0xdfff) := by
  intro c hc
  have hencodable := (utf8Encode_eq_some.mp (utf8Encode_of_decode h)).1 c hc
  rwa [isSome_utf8EncodePoint] at hencodable

theorem encodeEscaped_of_encodable {s : PyStr} {octets : Bytes} (h : s.utf8Encode = some octets) :
    encodeEscaped s = .ok octets := by
  have hencodable := (utf8Encode_eq_some.mp h).1
  have hsame : ∀ points : List Nat, (∀ c ∈ points, (utf8EncodePoint c).isSome = true) →
      points.mapM escapedPoint = points.mapM utf8EncodePoint := by
    intro points hpoints
    induction points with
    | nil => rfl
    | cons c points ih =>
      obtain ⟨hc, hrest⟩ := List.forall_mem_cons.mp hpoints
      rw [isSome_utf8EncodePoint] at hc
      rw [List.mapM_cons, List.mapM_cons, ih hrest, escapedPoint, if_neg (by omega)]
  obtain ⟨parts, hparts, rfl⟩ := Option.map_eq_some_iff.mp h
  rw [encodeEscaped, hsame _ hencodable, hparts]

/-- What is read is what was spelled. -/
def RoundTrips (side name : PyStr) : Prop :=
  ∃ text, quoteDiffPath side name = .ok text ∧ unquoteDiffPath text side = .ok (some name)

theorem quoted_ne_null (octets : Bytes) : quoted octets ≠ "/dev/null" := by
  intro h
  have hhead := congrArg (fun s : PyStr => s.codePoints.head?) h
  have hquote : (quoted octets).codePoints.head? = some 34 := by
    simp only [quoted, codePoints_append]
    rfl
  simp only [hquote] at hhead
  cases hhead

/-- **A path is read back exactly if it is restorable.** -/
theorem roundTrips_iff {side name : PyStr} (hside : side = "a" ∨ side = "b") (htext : name.IsText)
    (hsafe : isSafePath name = true) : RoundTrips side name ↔ Restorable name := by
  obtain ⟨letter, hletter, hplain, hlow⟩ : ∃ letter, side.codePoints = [letter] ∧
      needsQuote letter = false ∧ letter < 0x80 := by
    rcases hside with rfl | rfl
    · exact ⟨97, rfl, rfl, by omega⟩
    · exact ⟨98, rfl, rfl, by omega⟩
  have hpoints : (side ++ "/" ++ name).codePoints = letter :: 47 :: name.codePoints := by
    rw [codePoints_append, codePoints_append, hletter]
    rfl
  have hany : (side ++ "/" ++ name).codePoints.any needsQuote = name.codePoints.any needsQuote := by
    rw [hpoints, List.any_cons, List.any_cons, hplain]
    rfl
  have hnull : side ++ "/" ++ name ≠ "/dev/null" := by
    intro h
    have hhead := congrArg (fun s : PyStr => s.codePoints.head?) h
    simp only [hpoints, List.head?_cons] at hhead
    obtain rfl : letter = 47 := Option.some.inj hhead
    rcases hside with rfl | rfl <;> cases hletter
  unfold RoundTrips Restorable quoteDiffPath
  dsimp only
  rw [hany]
  by_cases hquote : name.codePoints.any needsQuote = true
  · simp only [hquote, if_true, true_implies]
    constructor
    · rintro ⟨text, htext', hread⟩ c hc
      obtain ⟨octets, -, htext'⟩ := bind_eq_ok.mp htext'
      obtain rfl : quoted octets = text := Except.ok.inj htext'
      rw [unquoteDiffPath_eq (quoted_ne_null octets), readPath_quoted] at hread
      cases hdecode : utf8Decode octets with
      | none =>
        rw [hdecode] at hread
        cases hread
      | some points =>
        rw [hdecode, ok_bind, checkedPath] at hread
        dsimp only at hread
        split_ifs at hread
        cases hread
        exact decoded_encodable hdecode c (List.mem_of_mem_drop hc)
    · intro hencodable
      obtain ⟨octets, hoctets⟩ : ∃ octets, (side ++ "/" ++ name).utf8Encode = some octets := by
        refine ⟨_, utf8Encode_eq_some.mpr ⟨?_, rfl⟩⟩
        intro c hc
        rw [isSome_utf8EncodePoint]
        rw [hpoints, List.mem_cons, List.mem_cons] at hc
        rcases hc with rfl | rfl | hc
        · omega
        · omega
        · exact hencodable c hc
      have htext' : (side ++ "/" ++ name).IsText := by
        intro c hc
        rw [hpoints, List.mem_cons, List.mem_cons] at hc
        rcases hc with rfl | rfl | hc
        · omega
        · omega
        · exact htext c hc
      refine ⟨quoted octets, by rw [encodeEscaped_of_encodable hoctets]; rfl, ?_⟩
      rw [unquoteDiffPath_eq (quoted_ne_null octets), readPath_quoted,
        utf8Decode_utf8Encode htext' hoctets]
      exact checkedPath_join hsafe
  · simp only [hquote, Bool.false_eq_true, if_false, false_implies, iff_true]
    refine ⟨_, rfl, ?_⟩
    have hstarts : (side ++ "/" ++ name).startsWith "\"" = false := by
      rw [startsWith, hpoints]
      rcases hside with rfl | rfl <;> cases hletter <;> rfl
    have hspace : (side ++ "/" ++ name).codePoints.any isSpace = false := by
      rw [List.any_eq_false]
      intro c hc hspace
      refine hquote (hany ▸ List.any_eq_true.mpr ⟨c, hc, ?_⟩)
      rw [needsQuote, hspace]
      rfl
    have hread : readPath (side ++ "/" ++ name) = .ok (side ++ "/" ++ name) := by
      rw [readPath, hstarts, hspace]
      rfl
    rw [unquoteDiffPath_eq hnull, hread]
    exact checkedPath_join hsafe

/-! ## 3. Refusals -/

/-- Nothing but `RuntimeError` is raised. -/
def Ordinary {α : Type} (r : Except FixtureError α) : Prop :=
  ∀ e, r = .error e → ∃ message, e = .runtimeError message

/-- Before the first malformed escape, every octal number is at most 377 and every character has an
encoding. -/
def EscapesFit : List Nat → Prop
  | [] => True
  | [92] => True
  | 92 :: c :: rest =>
    if (escapes c).isSome then EscapesFit rest
    else if isOctal c then
      match rest with
      | d :: e :: rest => isOctal d = true → isOctal e = true → c ≤ 51 ∧ EscapesFit rest
      | _ => True
    else True
  | c :: rest => ¬ (0xd800 ≤ c ∧ c ≤ 0xdfff) ∧ EscapesFit rest

theorem ordinary_ok {α : Type} (a : α) : Ordinary (.ok a) := by
  intro e h
  cases h

theorem ordinary_runtimeError {α : Type} (message : PyStr) :
    Ordinary (.error (.runtimeError message) : Except FixtureError α) := by
  intro e h
  cases h
  exact ⟨message, rfl⟩

theorem ordinary_error {α : Type} {e : FixtureError} :
    Ordinary (.error e : Except FixtureError α) ↔ ∃ message, e = .runtimeError message := by
  constructor
  · intro h
    exact h e rfl
  · intro h e' he
    cases he
    exact h

theorem ordinary_map {α β : Type} {r : Except FixtureError α} {f : α → β} :
    Ordinary (r.map f) ↔ Ordinary r := by
  cases r with
  | ok a => exact iff_of_true (ordinary_ok _) (ordinary_ok _)
  | error e => exact ordinary_error.trans ordinary_error.symm

theorem not_ordinary_valueError {α : Type} :
    ¬ Ordinary (.error .valueError : Except FixtureError α) := by
  intro h
  obtain ⟨message, h⟩ := h _ rfl
  cases h

theorem not_ordinary_unicodeError {α : Type} :
    ¬ Ordinary (.error .unicodeError : Except FixtureError α) := by
  intro h
  obtain ⟨message, h⟩ := h _ rfl
  cases h

theorem unquoted_not_octal {c d e : Nat} {rest : List Nat} (hc : isOctal c = true)
    (h : (isOctal d && isOctal e) = false) : unquoted (92 :: c :: d :: e :: rest) =
      .error (.runtimeError "diff path octal is invalid") := by
  rw [unquoted, escapes_of_isOctal hc]
  simp only [hc, h, Bool.not_true, Bool.false_eq_true, if_false]

theorem unquoted_unencodable {c : Nat} {rest : List Nat} (hc : c ≠ 92)
    (h : utf8EncodePoint c = none) : unquoted (c :: rest) = .error .unicodeError := by
  rw [unquoted.eq_def]
  split
  · next heq => cases heq
  · next heq => exact absurd (List.cons.inj heq).1 hc
  · next heq => exact absurd (List.cons.inj heq).1 hc
  · next heq =>
    obtain ⟨rfl, rfl⟩ := List.cons.inj heq
    rw [h]

theorem octalOctet_eq {c d e : Nat} (hc : isOctal c = true) (hd : isOctal d = true)
    (he : isOctal e = true) :
    (c ≤ 51 → ∃ octet, octalOctet c d e = .ok octet) ∧
      (¬ c ≤ 51 → octalOctet c d e = .error .valueError) := by
  simp only [isOctal, Bool.and_eq_true, decide_eq_true_eq] at hc hd he
  unfold octalOctet
  dsimp only
  constructor
  · intro h
    exact ⟨_, if_pos (by omega)⟩
  · intro h
    exact if_neg (by omega)

theorem ordinary_unquoted (payload : List Nat) : Ordinary (unquoted payload) ↔ EscapesFit payload := by
  fun_induction EscapesFit payload with
  | case1 => exact iff_of_true (ordinary_ok _) trivial
  | case2 => exact iff_of_true (ordinary_runtimeError _) trivial
  | case3 c rest hescape ih =>
    obtain ⟨octet, hescape⟩ := Option.isSome_iff_exists.mp hescape
    rw [unquoted_escape hescape, ordinary_map, ih]
  | case4 c hescape hc d e rest ih =>
    by_cases hd : isOctal d = true
    · by_cases he : isOctal e = true
      · obtain ⟨hsmall, hlarge⟩ := octalOctet_eq hc hd he
        rw [unquoted_octal hc hd he]
        by_cases hle : c ≤ 51
        · obtain ⟨octet, hoctet⟩ := hsmall hle
          rw [hoctet, ok_bind, ordinary_map, ih]
          exact ⟨fun h _ _ => ⟨hle, h⟩, fun h => (h hd he).2⟩
        · rw [hlarge hle, error_bind]
          exact iff_of_false not_ordinary_valueError fun h => hle (h hd he).1
      · rw [unquoted_not_octal hc (by simp [he])]
        exact iff_of_true (ordinary_runtimeError _) fun _ h => absurd h he
    · rw [unquoted_not_octal hc (by simp [hd])]
      exact iff_of_true (ordinary_runtimeError _) fun h => absurd h hd
  | case5 c rest hescape hc hshort =>
    have hread : unquoted (92 :: c :: rest) = .error (.runtimeError "diff path octal is invalid") := by
      rw [unquoted.eq_def]
      simp only [escapes_of_isOctal hc, hc, Bool.not_true, Bool.false_eq_true, if_false]
    rw [hread]
    exact iff_of_true (ordinary_runtimeError _) trivial
  | case6 c rest hescape hc =>
    have hread : unquoted (92 :: c :: rest) = .error (.runtimeError "diff path escape is unsafe") := by
      rw [unquoted.eq_def]
      simp only [Option.not_isSome_iff_eq_none.mp hescape, hc, Bool.not_false, if_true]
    rw [hread]
    exact iff_of_true (ordinary_runtimeError _) trivial
  | case7 c rest hlast hescape ih =>
    have hc : c ≠ 92 := by
      intro hc
      cases rest with
      | nil => exact hlast hc rfl
      | cons d rest => exact hescape d rest hc rfl
    cases hoctets : utf8EncodePoint c with
    | none =>
      have hsurrogate : ¬ ¬ (0xd800 ≤ c ∧ c ≤ 0xdfff) := by
        rw [← isSome_utf8EncodePoint, hoctets]
        exact Bool.false_ne_true
      rw [unquoted_unencodable hc hoctets]
      exact iff_of_false not_ordinary_unicodeError fun h => hsurrogate h.1
    | some octets =>
      have hplain : ¬ (0xd800 ≤ c ∧ c ≤ 0xdfff) := by
        rw [← isSome_utf8EncodePoint, hoctets]
        rfl
      rw [unquoted_plain hc hoctets, ordinary_map, ih]
      exact ⟨fun h => ⟨hplain, h⟩, And.right⟩

/-- The value can be read, or is refused as it should be: what is escaped in it fits. -/
def Readable (value : PyStr) : Prop :=
  value.startsWith "\"" = true → 2 ≤ value.length → value.endsWith "\"" = true →
    EscapesFit (value.codePoints.drop 1).dropLast

/-- A safe path is read, or `RuntimeError` raised. -/
def Answers (value side : PyStr) : Prop :=
  (∃ path, unquoteDiffPath value side = .ok (some path) ∧ isSafePath path = true) ∨
    ∃ message, unquoteDiffPath value side = .error (.runtimeError message)

theorem checkedPath_answers (side pathValue : PyStr) :
    (∃ path, checkedPath side pathValue = .ok (some path) ∧ isSafePath path = true) ∨
      ∃ message, checkedPath side pathValue = .error (.runtimeError message) := by
  unfold checkedPath
  dsimp only
  split_ifs with hstarts hsafe
  · exact Or.inr ⟨_, rfl⟩
  · exact Or.inl ⟨_, rfl, hsafe⟩
  · exact Or.inr ⟨_, rfl⟩

theorem ordinary_readPath (value : PyStr) : Ordinary (readPath value) ↔ Readable value := by
  unfold readPath Readable
  split_ifs with hstarts hmalformed hspace
  · refine iff_of_true (ordinary_runtimeError _) fun _ hlength hends => ?_
    rw [Bool.or_eq_true, decide_eq_true_eq, hends] at hmalformed
    rcases hmalformed with h | h
    · omega
    · cases h
  · rw [Bool.or_eq_true, decide_eq_true_eq, not_or, Bool.not_eq_true', Bool.not_eq_false] at hmalformed
    simp only [hstarts, hmalformed.2, Nat.not_lt.mp hmalformed.1, true_implies]
    rw [← ordinary_unquoted]
    cases unquoted (value.codePoints.drop 1).dropLast with
    | error e =>
      rw [error_bind]
      exact ordinary_error.trans ordinary_error.symm
    | ok decoded =>
      rw [ok_bind]
      cases utf8Decode decoded with
      | none => exact iff_of_true (ordinary_runtimeError _) (ordinary_ok _)
      | some points => exact iff_of_true (ordinary_ok _) (ordinary_ok _)
  · exact iff_of_true (ordinary_runtimeError _) fun h => absurd h hstarts
  · exact iff_of_true (ordinary_ok _) fun h => absurd h hstarts

/-- **A value is answered exactly if it names a file and is readable.** -/
theorem answers_iff (value side : PyStr) :
    Answers value side ↔ value ≠ "/dev/null" ∧ Readable value := by
  by_cases hnull : value = "/dev/null"
  · refine iff_of_false ?_ fun h => h.1 hnull
    rw [Answers, unquoteDiffPath, if_pos hnull]
    rintro (⟨path, hread, -⟩ | ⟨message, hread⟩)
    · cases hread
    · cases hread
  · rw [Answers, unquoteDiffPath_eq hnull, ← ordinary_readPath]
    cases hread : readPath value with
    | error e =>
      rw [error_bind]
      constructor
      · rintro (⟨path, h, -⟩ | ⟨message, h⟩)
        · cases h
        · cases h
          exact ⟨hnull, ordinary_runtimeError message⟩
      · rintro ⟨-, hordinary⟩
        obtain ⟨message, rfl⟩ := hordinary e rfl
        exact Or.inr ⟨message, rfl⟩
    | ok pathValue =>
      rw [ok_bind]
      exact iff_of_true (checkedPath_answers side pathValue) ⟨hnull, ordinary_ok _⟩

/-- **Where the reader undoes the spelling, and what it refuses with `RuntimeError`.** -/
theorem quoting_exact (side name value : PyStr) :
    (side = "a" ∨ side = "b" → name.IsText → isSafePath name = true →
      (RoundTrips side name ↔ Restorable name)) ∧
    (Answers value side ↔ value ≠ "/dev/null" ∧ Readable value) :=
  ⟨fun hside htext hsafe => roundTrips_iff hside htext hsafe, answers_iff value side⟩

theorem quoting_exact_sample : RoundTrips "a" "docs/a b.md" ↔ Restorable "docs/a b.md" :=
  (quoting_exact "a" "docs/a b.md" "").1 (Or.inl rfl) (by simp [IsText, ofString]) (by decide)

/-- An octal number above 377 raises `ValueError`; a space brings the octets of a surrogate into the
spelling, and they are no UTF-8. -/
theorem quoting_differs : ¬ Answers "\"\\777\"" "a" ∧
    isSafePath ⟨[97, 32, 0xdc80]⟩ = true ∧ ¬ RoundTrips "a" ⟨[97, 32, 0xdc80]⟩ := by
  refine ⟨?_, by decide, ?_⟩
  · rintro (⟨path, hread, -⟩ | ⟨message, hread⟩)
    · cases hread
    · cases hread
  · rw [roundTrips_iff (Or.inl rfl) (by simp [IsText]) (by decide)]
    decide

end Supplementary.Push
