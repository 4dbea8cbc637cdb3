/-
# What is redacted

`redact_text` replaces the canary and then what nine patterns match: keys, tokens, credentials and
assignments of secrets.  None of the replacements makes a text a secret label that was none
(`label_of_redacted`): what is put in stands between brackets or spaces, and a label has neither.
-/
import Supplementary.Lib.Regex
import Supplementary.Python.Replace

namespace Supplementary.Evidence

open PyStr Regex

/-! ## 1. Character classes -/

/-- The lower case of a character as `(?i)` compares it. -/
def foldCase (c : Nat) : Nat :=
  if 65 ≤ c ∧ c ≤ 90 then c + 32
  else if c = 0x130 ∨ c = 0x131 then 105
  else if c = 0x17f then 115
  else if c = 0x212a then 107
  else c

def isDigit (c : Nat) : Bool := 48 ≤ c && c ≤ 57

/-- `[a-z0-9]` and the other characters, with `(?i)`. -/
def lowerOr (others : List Nat) (c : Nat) : Bool :=
  (97 ≤ foldCase c && foldCase c ≤ 122) || isDigit c || others.contains c

/-- `[A-Za-z0-9_-]`. -/
def isBase64Url (c : Nat) : Bool :=
  (65 ≤ c && c ≤ 90) || (97 ≤ c && c ≤ 122) || isDigit c || c = 95 || c = 45

/-- The text of a pattern, with `(?i)`. -/
def anyCase (s : String) : Regex Nat := word foldCase (s.toList.map Char.toNat)

/-- The text of a pattern. -/
def exactly (s : String) : Regex Nat := word id (s.toList.map Char.toNat)

/-- One of the characters. -/
def among (s : String) : Regex Nat := char fun c => (s.toList.map Char.toNat).contains c

/-- `[_-]?`. -/
def separator : Regex Nat := opt (among "_-")

/-- `\s*`. -/
def spaces : Regex Nat := many isSpace 0 none true

/-- `\b`: the Unicode tables say which characters belong to a word. -/
def boundary (isWord : Nat → Bool) : Regex Nat :=
  Regex.look fun place => place.1.head?.any isWord != place.2.head?.any isWord

/-- `^` with `(?m)`. -/
def lineStart : Regex Nat := Regex.look fun place => place.1.head?.all (· = 10)

/-- `$` with `(?m)`. -/
def lineEnd : Regex Nat := Regex.look fun place => place.2.head?.all (· = 10)

/-! ## 2. Patterns -/

def passwordNames : List (Regex Nat) := [anyCase "password", anyCase "passwd", anyCase "secret"]

def tokenNames : List (Regex Nat) :=
  [chain [anyCase "access", separator, anyCase "token"],
    chain [anyCase "refresh", separator, anyCase "token"],
    chain [anyCase "id", separator, anyCase "token"]]

def clientSecret : Regex Nat := chain [anyCase "client", separator, anyCase "secret"]

def proxyAuthorization : Regex Nat := chain [anyCase "proxy", separator, anyCase "authorization"]

def cookieNames : List (Regex Nat) :=
  [anyCase "cookie", anyCase "set-cookie", chain [anyCase "api", separator, anyCase "key"],
    chain [anyCase "x", separator, anyCase "api", separator, anyCase "key"]]

def privateKeyName : Regex Nat := chain [anyCase "private", separator, anyCase "key"]

def keyNames : List (Regex Nat) :=
  [chain [anyCase "bind", separator, anyCase "credential"], privateKeyName,
    chain [anyCase "root", separator, anyCase "token"],
    chain [anyCase "unseal", separator, anyCase "key"],
    chain [anyCase "recovery", separator, anyCase "key"],
    chain [anyCase "activation", separator, alt (anyCase "code") (anyCase "key")]]

/-- `SECRET_KEY_RE`. -/
def secretKey : Regex Nat :=
  oneOf (passwordNames ++ tokenNames ++ [anyCase "authorization", proxyAuthorization] ++
    cookieNames ++ keyNames)

/-- Matches are replaced as a whole. -/
def whole (r : Regex Nat) (replacement : String) : Rewrite Nat :=
  ⟨empty, r, empty, replacement.toList.map Char.toNat⟩

/-- `"[REDACTED]"`. -/
def placeholder : PyStr := "[REDACTED]"

/-- What follows the part of a match that is kept becomes the placeholder, up to the last part. -/
def keeping (head body tail : Regex Nat) : Rewrite Nat := ⟨head, body, tail, placeholder.codePoints⟩

variable (isWord : Nat → Bool)

/-- `PRIVATE_KEY_RE`. -/
def privateKey : Rewrite Nat :=
  let label := many (fun c => (65 ≤ c && c ≤ 90) || isDigit c || c = 32) 0 none true
  whole (chain [exactly "-----BEGIN ", label, exactly "PRIVATE KEY-----",
    many (fun _ => true) 0 none false, exactly "-----END ", label, exactly "PRIVATE KEY-----"])
    "[REDACTED PRIVATE KEY]"

/-- `BEARER_RE`. -/
def bearer : Rewrite Nat :=
  whole (chain [boundary isWord, anyCase "bearer", many isSpace 1 none true,
    many (lowerOr ("._~+/=-".toList.map Char.toNat)) 8 none true]) "Bearer [REDACTED]"

/-- `BASIC_AUTH_RE`. -/
def basicAuth : Rewrite Nat :=
  whole (chain [boundary isWord, anyCase "basic", many isSpace 1 none true,
    many (lowerOr ("+/".toList.map Char.toNat)) 4 none true, many (· = 61) 0 (some 2) true])
    "Basic [REDACTED]"

/-- `JWT_RE`. -/
def jwt : Rewrite Nat :=
  whole (chain [Regex.look fun place => !place.1.head?.any isBase64Url,
    exactly "eyJ", many isBase64Url 5 none true, exactly ".", many isBase64Url 5 none true,
    exactly ".", many isBase64Url 5 none true, Regex.look fun place => !place.2.head?.any isBase64Url])
    "[REDACTED JWT]"

/-- `API_KEY_RE`. -/
def apiKey : Rewrite Nat :=
  let letters (others : String) := lowerOr (others.toList.map Char.toNat)
  let oneIn (s : String) := char fun c => (s.toList.map Char.toNat).contains (foldCase c)
  whole (chain [boundary isWord,
    oneOf [chain [anyCase "gh", oneIn "pousr", anyCase "_", many (letters "") 20 none true],
      chain [anyCase "github_pat_", many (letters "_") 20 none true],
      chain [oneOf [anyCase "akia", anyCase "asia"], many (letters "") 16 (some 16) true],
      chain [anyCase "xox", oneIn "baprs", anyCase "-", many (letters "-") 10 none true],
      chain [anyCase "sk-", many (letters "_-") 20 none true]],
    boundary isWord]) "[REDACTED API KEY]"

/-- `URL_CREDENTIAL_RE`. -/
def urlCredential : Rewrite Nat :=
  keeping (chain [exactly "://", many (fun c => !isSpace c && c ≠ 47 && c ≠ 58 && c ≠ 64) 1 none true,
      exactly ":"])
    (many (fun c => !isSpace c && c ≠ 47 && c ≠ 64) 1 none true) (exactly "@")

/-- `SENSITIVE_HEADER_RE`. -/
def sensitiveHeader : Rewrite Nat :=
  keeping (chain [lineStart, spaces,
      oneOf [anyCase "authorization", anyCase "proxy-authorization", anyCase "cookie",
        anyCase "set-cookie", anyCase "x-api-key", anyCase "api-key"],
      spaces, exactly ":", spaces])
    (chain [many (· ≠ 10) 1 none true, lineEnd]) empty

/-- `XML_SECRET_PROPERTY_RE`. -/
def xmlSecretProperty : Rewrite Nat :=
  keeping (chain [boundary isWord, anyCase "name", spaces, exactly "=", spaces, among "\"'",
      oneOf (passwordNames ++ [clientSecret] ++ tokenNames ++ [anyCase "authorization"] ++
        cookieNames ++ [privateKeyName]),
      among "\"'", many (· ≠ 62) 0 none false, boundary isWord, anyCase "value", spaces,
      exactly "=", spaces, among "\"'"])
    (many (fun c => c ≠ 34 && c ≠ 39) 0 none true) (among "\"'")

/-- `SECRET_ASSIGNMENT_RE`. -/
def secretAssignment : Rewrite Nat :=
  let quoted (quote : Nat) := chain [char (· = quote),
    many (fun c => c ≠ quote && c ≠ 13 && c ≠ 10) 0 none true, char (· = quote)]
  keeping (chain [boundary isWord,
      oneOf (passwordNames ++ [clientSecret] ++ tokenNames ++
        [anyCase "authorization", proxyAuthorization] ++ cookieNames ++ keyNames),
      boundary isWord, spaces, among ":=", spaces])
    (oneOf [quoted 34, quoted 39,
      many (fun c => !isSpace c && c ≠ 44 && c ≠ 125 && c ≠ 93) 1 none true]) empty

/-! ## 3. `redact_text` -/

/-- `CANARY`. -/
def canary : PyStr := "LIT_EVIDENCE_REDACTION_CANARY_7f38f67e"

/-- The patterns in the order in which they are replaced. -/
def rewrites : List (Rewrite Nat) :=
  [privateKey, bearer isWord, basicAuth isWord, jwt, apiKey isWord, urlCredential, sensitiveHeader,
    xmlSecretProperty isWord, secretAssignment isWord]

/-- `redact_text`. -/
def redactText (value : PyStr) : PyStr :=
  ⟨(rewrites isWord).foldl (fun text w => w.sub text) (value.replace canary placeholder).codePoints⟩

/-- `SECRET_KEY_RE.search(text) is not None`. -/
def isSecretKey (text : PyStr) : Bool := secretKey.search text.codePoints

/-! ## 4. Labels in a redacted text -/

/-- The characters of a secret label. -/
def IsLabelLetter (c : Nat) : Prop := (97 ≤ c ∧ c ≤ 122) ∨ c = 45 ∨ c = 95

instance : DecidablePred IsLabelLetter := fun c =>
  inferInstanceAs (Decidable ((97 ≤ c ∧ c ≤ 122) ∨ c = 45 ∨ c = 95))

theorem foldCase_of_sign {c d : Nat} (hd : d = 45 ∨ d = 95) : foldCase c = d ↔ c = d := by
  unfold foldCase
  split_ifs <;> omega

theorem isPlain_anyCase {s : String} (h : ∀ c ∈ s.toList.map Char.toNat, IsLabelLetter c) :
    (anyCase s).IsPlain foldCase IsLabelLetter :=
  isPlain_word h

theorem isPlain_separator : separator.IsPlain foldCase IsLabelLetter := by
  refine ⟨fun c hc => ?_, trivial⟩
  have hsign : c = 45 ∨ c = 95 := by
    simpa [Or.comm] using hc
  have hfold : foldCase c = c := (foldCase_of_sign hsign).mpr rfl
  rw [hfold]
  refine ⟨Or.inr hsign, fun d hd => ?_⟩
  rw [(foldCase_of_sign hsign).mp hd]
  exact hc

theorem isPlain_secretKey : secretKey.IsPlain foldCase IsLabelLetter := by
  simp (disch := decide) only [secretKey, passwordNames, tokenNames, cookieNames, keyNames,
    proxyAuthorization, privateKeyName, List.cons_append, List.nil_append, isPlain_oneOf,
    isPlain_chain, List.forall_mem_cons, isPlain_separator, isPlain_anyCase, IsPlain,
    List.not_mem_nil, false_implies, implies_true, and_self]

variable {isWord : Nat → Bool}

section

variable {m : List Nat} (hletters : ∀ c ∈ m, IsLabelLetter c)
    (hlabel : ∀ text : List Nat, m <:+: text.map foldCase → secretKey.search text = true)

include hletters hlabel

/-- What is put in between brackets shows no label. -/
theorem setsOff_of_brackets {w : Rewrite Nat} {inner : List Nat}
    (hreplacement : w.replacement = 91 :: (inner ++ [93])) (hinner : secretKey.search inner = false) :
    w.SetsOff foldCase m := by
  refine ⟨[], 91, inner, 93, hreplacement, ?_, ?_, ?_, fun _ _ _ _ _ => List.nil_prefix⟩
  · intro hmem
    exact absurd (hletters _ hmem) (by decide)
  · intro hmem
    exact absurd (hletters _ hmem) (by decide)
  · intro hshows
    rw [hlabel _ hshows] at hinner
    cases hinner

/-- The name of the scheme is put in for itself. -/
theorem setsOff_of_scheme {scheme : String} {lead : List Nat} {rest : List (Regex Nat)}
    {w : Rewrite Nat} (hhead : w.head = empty)
    (hbody : w.body = chain (boundary isWord :: anyCase scheme :: rest))
    (hreplacement : w.replacement = lead ++ 32 :: ("[REDACTED".toList.map Char.toNat ++ [93]))
    (hlead : lead.map foldCase = scheme.toList.map Char.toNat) : w.SetsOff foldCase m := by
  refine ⟨lead, 32, "[REDACTED".toList.map Char.toNat, 93, hreplacement, ?_, ?_, ?_, ?_⟩
  · intro hmem
    exact absurd (hletters _ hmem) (by decide)
  · intro hmem
    exact absurd (hletters _ hmem) (by decide)
  · intro hshows
    have hsearch := hlabel _ hshows
    revert hsearch
    decide
  · intro start first second hfirst hsecond
    rw [hhead] at hfirst
    rw [List.mem_singleton.mp hfirst]
    rw [hbody, List.mem_singleton.mp hfirst, chain, ends, List.mem_flatMap] at hsecond
    obtain ⟨middle, hboundary, hrest⟩ := hsecond
    rw [boundary, ends] at hboundary
    split at hboundary
    · rw [List.mem_singleton.mp hboundary, chain, ends, List.mem_flatMap] at hrest
      obtain ⟨after, hword, _⟩ := hrest
      rw [hlead]
      exact mem_word_ends hword
    · cases hboundary

/-- The replacements show no part of a label. -/
theorem setsOff_of_rewrites : ∀ w ∈ rewrites isWord, w.SetsOff foldCase m := by
  have hplaceholder : secretKey.search ("REDACTED".toList.map Char.toNat) = false := by decide
  have hbrackets {w : Rewrite Nat} (h : w.replacement = placeholder.codePoints) :
      w.SetsOff foldCase m := setsOff_of_brackets hletters hlabel
        (h.trans (rfl : _ = 91 :: ("REDACTED".toList.map Char.toNat ++ [93]))) hplaceholder
  simp only [rewrites, List.forall_mem_cons]
  refine ⟨?_, ?_, ?_, ?_, ?_, hbrackets rfl, hbrackets rfl, hbrackets rfl, hbrackets rfl, by simp⟩
  · exact setsOff_of_brackets hletters hlabel
      (rfl : _ = 91 :: ("REDACTED PRIVATE KEY".toList.map Char.toNat ++ [93])) (by decide)
  · exact setsOff_of_scheme hletters hlabel rfl rfl
      (rfl : _ = "Bearer".toList.map Char.toNat ++ _) (by decide)
  · exact setsOff_of_scheme hletters hlabel rfl rfl
      (rfl : _ = "Basic".toList.map Char.toNat ++ _) (by decide)
  · exact setsOff_of_brackets hletters hlabel
      (rfl : _ = 91 :: ("REDACTED JWT".toList.map Char.toNat ++ [93])) (by decide)
  · exact setsOff_of_brackets hletters hlabel
      (rfl : _ = 91 :: ("REDACTED API KEY".toList.map Char.toNat ++ [93])) (by decide)

end

/-- `str.replace` is a rewriting of a pattern that is a text. -/
theorem replaceFrom_eq_sub {old new : List Nat} (hold : old ≠ []) (skip : Nat)
    (before text : List Nat) : replaceFrom old new skip text =
      (⟨empty, word id old, empty, new⟩ : Rewrite Nat).subFrom skip before text := by
  induction text generalizing skip before with
  | nil => cases skip <;> rfl
  | cons c rest ih =>
    cases skip with
    | succ skip => exact ih skip (c :: before)
    | zero =>
      have hpositive : 1 ≤ old.length := List.length_pos_iff.mpr hold
      rw [replaceFrom, Rewrite.subFrom, Rewrite.find?]
      simp only [ends, word_ends, List.flatMap_singleton]
      by_cases hstarts : old.isPrefixOf (c :: rest) = true
      · have hlength := (List.isPrefixOf_iff_prefix.mp hstarts).length_le
        rw [List.length_cons] at hlength
        have hless : (rest.length + 1) - old.length < rest.length + 1 := by omega
        have hskip : rest.length - (rest.length + 1 - old.length) = old.length - 1 := by omega
        simp [hstarts, hpositive, hless, hskip, ih (old.length - 1) (c :: before)]
      · simp [hstarts, ih 0 (c :: before)]

/-- **Redaction makes no label.** -/
theorem label_of_redacted {s : PyStr} (h : isSecretKey (redactText isWord s) = true) :
    isSecretKey s = true := by
  obtain ⟨m, hletters, hshows, hlabel⟩ := isPlain_secretKey.word_of_search h
  apply hlabel
  have hcanary : (whole (exactly "LIT_EVIDENCE_REDACTION_CANARY_7f38f67e") "[REDACTED]").SetsOff
      foldCase m := setsOff_of_brackets hletters hlabel
    (rfl : _ = 91 :: ("REDACTED".toList.map Char.toNat ++ [93])) (by decide)
  have hreplaced := Rewrite.shows_of_foldl (setsOff_of_rewrites hletters hlabel) hshows
  rw [replace_codePoints, replaceFrom_eq_sub (by decide) 0 []] at hreplaced
  exact Rewrite.shows_of_sub hcanary hreplaced

end Supplementary.Evidence
