/-
# The terms that classify a review

`classify_review_profile` looks for the trust-root terms of the policy in the changed paths and the
patch, chunk by chunk: it keeps the last characters of what it searched, as many as the longest term
has and two, and puts them before the next chunk.  A match that ends where the text ends is left to
the next chunk, which has its right neighbour; a match in the kept part was seen before.

What is counted is always an occurrence (`occurs_of_counted`).  The converse fails for a term that
overlaps itself around an underscore: the kept part may start behind a letter, so that a match is
taken there that is none, and the search goes on behind it, past an occurrence that overlaps it.
`matched_iff` says which occurrences are found and `classifies_iff` when none is missed.
-/
import Supplementary.Lib.Greedy
import Supplementary.Python.Lower
import Mathlib.Data.List.Find

namespace Supplementary.Push

open Greedy PyStr

/-! ## 1. The pattern of a term -/

/-- `[a-z0-9]`. -/
def isLetterOrDigit (c : Nat) : Bool := (97 ≤ c && c ≤ 122) || (48 ≤ c && c ≤ 57)

/-- `[a-z][a-z0-9_]{1,63}` on the whole of a term. -/
def isTerm (term : PyStr) : Bool :=
  match term.codePoints with
  | [] => false
  | c :: rest => 97 ≤ c && c ≤ 122 && (rest.all fun d => isLetterOrDigit d || d = 95) &&
    1 ≤ rest.length && rest.length ≤ 63

/-- What `validate_review_policy` asks of `trust_root_terms`. -/
def admitsTerms (terms : List PyStr) : Bool :=
  terms ≠ [] && terms.all isTerm && terms = PyStr.sorted terms.dedup

/-- `(?<![a-z0-9])term(?![a-z0-9])` matches where `text` begins, after that character. -/
def matchesHere (term : List Nat) (previous : Option Nat) (text : List Nat) : Bool :=
  !previous.any isLetterOrDigit && term.isPrefixOf text &&
    !((text.drop term.length).head?.any isLetterOrDigit)

/-- The ends of what `re.finditer` yields; `skip` is what is left of the last match. -/
def endsFrom (term : List Nat) : (position skip : Nat) → (previous : Option Nat) → List Nat → List Nat
  | _, _, _, [] => []
  | position, skip + 1, _, c :: rest => endsFrom term (position + 1) skip (some c) rest
  | position, 0, previous, c :: rest =>
    if matchesHere term previous (c :: rest) then
      (position + term.length) :: endsFrom term (position + 1) (term.length - 1) (some c) rest
    else endsFrom term (position + 1) 0 (some c) rest

/-- `[match.end() for match in re.finditer(pattern, text)]`. -/
def matchEnds (term text : List Nat) : List Nat := endsFrom term 0 0 none text

/-! ## 2. `classify_review_profile` -/

/-- `max((len(term) for term in terms), default=0) + 2`. -/
def overlapOf (terms : List PyStr) : Nat := (terms.map PyStr.length).foldl max 0 + 2

/-- `matched` and `tail`. -/
structure TermScan where
  matched : List PyStr
  tail : List Nat

/-- A match that is counted in this chunk. -/
def isCounted (term : PyStr) (tail chunk : List Nat) : Bool :=
  (matchEnds term.codePoints (tail ++ chunk)).any fun stop =>
    tail.length ≤ stop && stop < (tail ++ chunk).length

/-- One round of the loop, on a chunk in lower case. -/
def TermScan.feed (terms : List PyStr) (s : TermScan) (chunk : List Nat) : TermScan where
  matched := s.matched ++ terms.filter fun term => isCounted term s.tail chunk
  tail := (s.tail ++ chunk).drop ((s.tail ++ chunk).length - overlapOf terms)

/-- What the loop runs over: the paths, the chunks of the patch and a last newline. -/
def classified (paths : List PyStr) (patch : List PyStr) : List PyStr :=
  (PyStr.join "\n" paths ++ "\n") :: (patch ++ [(("\n" : String) : PyStr)])

/-- `matched` after the loop. -/
def matchedTerms (L : Lowering) (terms paths patch : List PyStr) : List PyStr :=
  (((classified paths patch).map L.lower).foldl (TermScan.feed terms) ⟨[], []⟩).matched

/-- The lists of the review policy that the classification reads. -/
structure ReviewPolicy where
  standardPaths : List PyStr
  standardPrefixes : List PyStr
  trustRootTerms : List PyStr

/-- The profile and the reason, for the terms that were matched. -/
def profileOf (policy : ReviewPolicy) (paths : List PyStr) (matched : PyStr → Bool) :
    PyStr × PyStr :=
  let matchedTerm := policy.trustRootTerms.find? matched
  let known := paths.all fun path =>
    policy.standardPaths.contains path || policy.standardPrefixes.any path.startsWith
  (if known && matchedTerm.isNone then "standard" else "trust-root",
    match matchedTerm with
    | some term => "trust-root-term:" ++ term
    | none => if known then "all-paths-standard" else "unknown-or-trust-root-path")

/-- The profile and the reason that `classify_review_profile` gives. -/
def classifyReviewProfile (L : Lowering) (policy : ReviewPolicy) (paths patch : List PyStr) :
    PyStr × PyStr :=
  profileOf policy paths fun term => (matchedTerms L policy.trustRootTerms paths patch).contains term

/-! ## 3. Occurrences -/

/-- The pattern of the term matches at a position. -/
def fitsAt (term text : List Nat) (i : Nat) : Bool :=
  matchesHere term (if i = 0 then none else text[i - 1]?) (text.drop i)

/-- The term occurs in the text with no letter or digit next to it. -/
def occurs (term : PyStr) (text : List Nat) : Bool :=
  (List.range text.length).any (fitsAt term.codePoints text)

/-- The lower-cased concatenation of the joined paths and the patch. -/
def wholeText (L : Lowering) (paths : List PyStr) (patch : PyStr) : List Nat :=
  L.lower (PyStr.join "\n" paths ++ "\n" ++ patch)

section Fits

variable {term text rest : List Nat} {i : Nat}

theorem fitsAt_iff : fitsAt term text i = true ↔
    (∀ c, 0 < i → text[i - 1]? = some c → isLetterOrDigit c = false) ∧ term <+: text.drop i ∧
      ∀ c, text[i + term.length]? = some c → isLetterOrDigit c = false := by
  have hnext : ((text.drop i).drop term.length).head? = text[i + term.length]? := by
    rw [List.drop_drop, List.head?_drop]
  rw [fitsAt, matchesHere, hnext, Bool.and_eq_true, Bool.and_eq_true, List.isPrefixOf_iff_prefix,
    and_assoc]
  have hany (o : Option Nat) :
      (!o.any isLetterOrDigit) = true ↔ ∀ c, o = some c → isLetterOrDigit c = false := by
    cases o <;> simp
  rw [hany, hany]
  refine and_congr ?_ Iff.rfl
  by_cases hi : i = 0
  · simp [hi]
  · simp [hi, Nat.pos_of_ne_zero hi]

theorem fitsAt_le (h : fitsAt term text i = true) (hne : term ≠ []) :
    i + term.length ≤ text.length := by
  have hlength := (fitsAt_iff.mp h).2.1.length_le
  have hpositive := List.length_pos_iff.mpr hne
  rw [List.length_drop] at hlength
  omega

/-- In a part of a text that holds its right neighbour and, unless the text begins there, its left
one, a match is one of the text. -/
theorem fitsAt_window {pre window : List Nat} (hleft : i = 0 → pre = [])
    (hright : i + term.length < window.length) :
    fitsAt term (pre ++ window ++ rest) (pre.length + i) = true ↔ fitsAt term window i = true := by
  have hat (k : Nat) (hk : k < window.length) :
      (pre ++ window ++ rest)[pre.length + k]? = window[k]? := by
    rw [List.append_assoc, List.getElem?_append_right (by omega), Nat.add_sub_cancel_left,
      List.getElem?_append_left hk]
  have hdrop : (pre ++ window ++ rest).drop (pre.length + i) = window.drop i ++ rest := by
    rw [← List.drop_drop, List.append_assoc, List.drop_left,
      List.drop_append_of_le_length (by omega)]
  have hlength : term.length ≤ (window.drop i).length := by
    rw [List.length_drop]
    omega
  have hbefore : (∀ c, 0 < pre.length + i → (pre ++ window ++ rest)[pre.length + i - 1]? = some c →
      isLetterOrDigit c = false) ↔
        ∀ c, 0 < i → window[i - 1]? = some c → isLetterOrDigit c = false := by
    by_cases hi : i = 0
    · simp [hi, hleft hi]
    · have hprevious := hat (i - 1) (by omega)
      rw [show pre.length + (i - 1) = pre.length + i - 1 by omega] at hprevious
      have hpositive : 0 < pre.length + i := by omega
      rw [hprevious]
      simp only [hpositive, Nat.pos_of_ne_zero hi]
  have hwithin : term <+: window.drop i ++ rest ↔ term <+: window.drop i :=
    ⟨fun h => List.prefix_of_prefix_length_le h (List.prefix_append _ _) hlength,
      fun h => h.trans (List.prefix_append _ _)⟩
  rw [fitsAt_iff, fitsAt_iff, hdrop, Nat.add_assoc, hat _ hright, hbefore, hwithin]

/-- What the search sees at the end of what it has read. -/
theorem matchesHere_eq {front : List Nat} :
    matchesHere term front.getLast? rest = fitsAt term (front ++ rest) front.length := by
  rw [fitsAt, List.drop_left]
  by_cases hfront : front = []
  · rw [hfront]
    rfl
  · have hpositive := List.length_pos_iff.mpr hfront
    rw [if_neg (by omega), List.getElem?_append_left (by omega), List.getLast?_eq_getElem?]

/-- The search finds the places that are taken; `skip` is what is left of the one taken last. -/
theorem mem_endsFrom (hne : term ≠ []) {front : List Nat} {skip stop : Nat}
    (hbefore : ∀ j < front.length, Taken (fun i => fitsAt term (front ++ rest) i = true) term.length j →
      j + term.length ≤ front.length + skip)
    (hlast : 0 < skip → ∃ j < front.length,
      Taken (fun i => fitsAt term (front ++ rest) i = true) term.length j ∧
        j + term.length = front.length + skip) :
    stop ∈ endsFrom term front.length skip front.getLast? rest ↔
      ∃ j, front.length ≤ j ∧ Taken (fun i => fitsAt term (front ++ rest) i = true) term.length j ∧
        stop = j + term.length := by
  have hpositive := List.length_pos_iff.mpr hne
  induction rest generalizing front skip with
  | nil =>
    have hnone : ∀ j, front.length ≤ j → ¬ Taken (fun i => fitsAt term (front ++ []) i = true)
        term.length j := by
      intro j hj htaken
      have hle := fitsAt_le htaken.fits hne
      rw [List.append_nil] at hle
      omega
    constructor
    · intro h
      cases h
    · rintro ⟨j, hj, htaken, _⟩
      exact absurd htaken (hnone j hj)
  | cons c rest ih =>
    have htext : front ++ c :: rest = front ++ [c] ++ rest := by simp
    have hlength : (front ++ [c]).length = front.length + 1 := by simp
    have hgetLast : (front ++ [c]).getLast? = some c := by simp
    rw [htext] at hbefore hlast ⊢
    have hnext (skip : Nat) := @ih (front ++ [c]) skip
    simp only [hlength, hgetLast] at hnext
    have hsplit (j : Nat) : front.length ≤ j ↔ j = front.length ∨ front.length + 1 ≤ j := by omega
    -- what is not taken here is looked for behind it
    have hskip (hnot : ¬ Taken (fun i => fitsAt term (front ++ [c] ++ rest) i = true) term.length
        front.length) :
        (∃ j, front.length + 1 ≤ j ∧
          Taken (fun i => fitsAt term (front ++ [c] ++ rest) i = true) term.length j ∧
            stop = j + term.length) ↔
          ∃ j, front.length ≤ j ∧
            Taken (fun i => fitsAt term (front ++ [c] ++ rest) i = true) term.length j ∧
              stop = j + term.length := by
      refine exists_congr fun j => ?_
      rw [hsplit]
      constructor
      · rintro ⟨hj, h⟩
        exact ⟨Or.inr hj, h⟩
      · rintro ⟨rfl | hj, h⟩
        · exact absurd h.1 hnot
        · exact ⟨hj, h⟩
    cases skip with
    | succ skip =>
      obtain ⟨j₀, hj₀, htaken₀, hstop₀⟩ := hlast (by omega)
      have hnot : ¬ Taken (fun i => fitsAt term (front ++ [c] ++ rest) i = true) term.length
          front.length := by
        intro htaken
        have hapart := htaken.apart htaken₀ hj₀
        omega
      rw [endsFrom]
      refine (hnext skip ?_ ?_).trans (hskip hnot)
      · intro j hj htaken
        by_cases heq : j = front.length
        · exact absurd (heq ▸ htaken) hnot
        · have hle := hbefore j (by omega) htaken
          omega
      · intro _
        exact ⟨j₀, by omega, htaken₀, by omega⟩
    | zero =>
      have hfree : ∀ j < front.length,
          Taken (fun i => fitsAt term (front ++ [c] ++ rest) i = true) term.length j →
            j + term.length ≤ front.length := fun j hj htaken => hbefore j hj htaken
      have hhere : matchesHere term front.getLast? (c :: rest) =
          fitsAt term (front ++ [c] ++ rest) front.length := by
        rw [matchesHere_eq, htext]
      rw [endsFrom, hhere]
      by_cases hfits : fitsAt term (front ++ [c] ++ rest) front.length = true
      · have htaken : Taken (fun i => fitsAt term (front ++ [c] ++ rest) i = true) term.length
            front.length := taken_iff.mpr ⟨hfits, hfree⟩
        rw [if_pos hfits, List.mem_cons]
        refine (or_congr Iff.rfl (hnext (term.length - 1) ?_ ?_)).trans ?_
        · intro j hj htaken'
          by_cases heq : j = front.length
          · omega
          · have hle := hfree j (by omega) htaken'
            omega
        · intro _
          exact ⟨front.length, by omega, htaken, by omega⟩
        · constructor
          · rintro (rfl | ⟨j, hj, h⟩)
            · exact ⟨front.length, le_rfl, htaken, rfl⟩
            · exact ⟨j, by omega, h⟩
          · rintro ⟨j, hj, h⟩
            rcases (hsplit j).mp hj with rfl | hj
            · exact Or.inl h.2
            · exact Or.inr ⟨j, hj, h⟩
      · have hnot : ¬ Taken (fun i => fitsAt term (front ++ [c] ++ rest) i = true) term.length
            front.length := fun htaken => hfits htaken.fits
        rw [if_neg hfits]
        refine (hnext 0 ?_ ?_).trans (hskip hnot)
        · intro j hj htaken
          by_cases heq : j = front.length
          · exact absurd (heq ▸ htaken) hnot
          · have hle := hfree j (by omega) htaken
            omega
        · intro h
          omega

theorem mem_matchEnds (hne : term ≠ []) {stop : Nat} : stop ∈ matchEnds term text ↔
    ∃ j, Taken (fun i => fitsAt term text i = true) term.length j ∧ stop = j + term.length := by
  have hfound := @mem_endsFrom term text hne [] 0 stop (by simp) (by simp)
  simpa [matchEnds] using hfound

end Fits

/-! ## 4. The loop -/

section Loop

variable {terms : List PyStr} {term : PyStr}

/-- What the loop keeps of the text it has searched. -/
def kept (terms : List PyStr) (before : List Nat) : List Nat :=
  before.drop (before.length - overlapOf terms)

theorem kept_append (before chunk : List Nat) :
    kept terms (before ++ chunk) = (kept terms before ++ chunk).drop
      ((kept terms before ++ chunk).length - overlapOf terms) := by
  have hpart : kept terms before ++ chunk =
      (before ++ chunk).drop (before.length - overlapOf terms) := by
    rw [kept, List.drop_append_of_le_length (by omega)]
  rw [hpart, kept, List.drop_drop, List.length_drop]
  congr 1
  rw [List.length_append]
  omega

theorem length_le_overlap (h : term ∈ terms) : term.length + 2 ≤ overlapOf terms := by
  have hmax : ∀ (lengths : List Nat) (start : Nat), start ≤ lengths.foldl max start ∧
      ∀ n ∈ lengths, n ≤ lengths.foldl max start := by
    intro lengths
    induction lengths with
    | nil => simp
    | cons n lengths ih =>
      intro start
      obtain ⟨hstart, hrest⟩ := ih (max start n)
      refine ⟨(le_max_left _ _).trans hstart, ?_⟩
      exact List.forall_mem_cons.mpr ⟨(le_max_right _ _).trans hstart, hrest⟩
  have hle := (hmax (terms.map PyStr.length) 0).2 term.length (List.mem_map_of_mem h)
  rw [overlapOf]
  omega

/-- The state of the loop: the last characters, and the terms counted in some chunk. -/
theorem foldl_feed (terms : List PyStr) (chunks : List (List Nat)) :
    (chunks.foldl (TermScan.feed terms) ⟨[], []⟩).tail = kept terms chunks.flatten ∧
      ∀ term, term ∈ (chunks.foldl (TermScan.feed terms) ⟨[], []⟩).matched ↔
        term ∈ terms ∧ ∃ before chunk after, chunks = before ++ chunk :: after ∧
          isCounted term (kept terms before.flatten) chunk = true := by
  induction chunks using List.reverseRecOn with
  | nil =>
    refine ⟨by simp [kept], fun term => ?_⟩
    constructor
    · intro h
      cases h
    · rintro ⟨_, before, chunk, after, hsplit, _⟩
      simp at hsplit
  | append_singleton chunks last ih =>
    obtain ⟨htail, hmatched⟩ := ih
    rw [List.foldl_concat]
    constructor
    · rw [TermScan.feed, htail, List.flatten_concat, kept_append]
    · intro term
      simp only [TermScan.feed, List.mem_append, List.mem_filter, hmatched, htail]
      constructor
      · rintro (⟨hterm, before, chunk, after, rfl, hcounted⟩ | ⟨hterm, hcounted⟩)
        · exact ⟨hterm, before, chunk, after ++ [last], by simp, hcounted⟩
        · exact ⟨hterm, chunks, last, [], rfl, hcounted⟩
      · rintro ⟨hterm, before, chunk, after, hsplit, hcounted⟩
        rcases List.eq_nil_or_concat' after with rfl | ⟨after, last', rfl⟩
        · obtain ⟨rfl, hlast⟩ := List.append_inj' hsplit rfl
          cases hlast
          exact Or.inr ⟨hterm, hcounted⟩
        · rw [← List.cons_append, ← List.append_assoc] at hsplit
          obtain ⟨rfl, _⟩ := List.append_inj' hsplit rfl
          exact Or.inl ⟨hterm, before, chunk, after, rfl, hcounted⟩

theorem isCounted_iff (hne : term.codePoints ≠ []) {tail chunk : List Nat} :
    isCounted term tail chunk = true ↔
      ∃ i, Taken (fun i => fitsAt term.codePoints (tail ++ chunk) i = true) term.length i ∧
        tail.length ≤ i + term.length ∧ i + term.length < (tail ++ chunk).length := by
  simp only [isCounted, List.any_eq_true, mem_matchEnds hne, Bool.and_eq_true, decide_eq_true_eq]
  constructor
  · rintro ⟨_, ⟨i, htaken, rfl⟩, hbounds⟩
    exact ⟨i, htaken, hbounds⟩
  · rintro ⟨i, htaken, hbounds⟩
    exact ⟨_, ⟨i, htaken, rfl⟩, hbounds⟩

/-- An occurrence that the loop does not pass over: in what it searches for the chunk in which the
occurrence ends, the kept characters and the chunk, no match of the term that the search takes
overlaps it from the left. -/
def IsSeen (terms : List PyStr) (chunks : List (List Nat)) (term : PyStr) : Prop :=
  ∃ before chunk after, chunks = before ++ chunk :: after ∧ ∃ i,
    fitsAt term.codePoints chunks.flatten
      (before.flatten.length - (kept terms before.flatten).length + i) = true ∧
    (kept terms before.flatten).length ≤ i + term.length ∧
    i + term.length < (kept terms before.flatten ++ chunk).length ∧
    ∀ j < i, Taken (fun i => fitsAt term.codePoints (kept terms before.flatten ++ chunk) i = true)
      term.length j → j + term.length ≤ i

/-- A match that ends in a chunk is a match of the whole text: one at the truncated edge of the
window ends within the kept characters. -/
theorem fitsAt_kept (hterm : term ∈ terms) {chunks before after : List (List Nat)} {chunk : List Nat}
    (hsplit : chunks = before ++ chunk :: after) {i : Nat}
    (hlow : (kept terms before.flatten).length ≤ i + term.length)
    (hhigh : i + term.length < (kept terms before.flatten ++ chunk).length) :
    fitsAt term.codePoints chunks.flatten
      (before.flatten.length - (kept terms before.flatten).length + i) = true ↔
    fitsAt term.codePoints (kept terms before.flatten ++ chunk) i = true := by
  have hoverlap := length_le_overlap hterm
  have hkept : (kept terms before.flatten).length =
      before.flatten.length - (before.flatten.length - overlapOf terms) := by
    rw [kept, List.length_drop]
  have htext : chunks.flatten = before.flatten.take (before.flatten.length - overlapOf terms) ++
      (kept terms before.flatten ++ chunk) ++ after.flatten := by
    rw [hsplit, kept, ← List.append_assoc, List.take_append_drop]
    simp
  have hoffset : before.flatten.length - (kept terms before.flatten).length =
      (before.flatten.take (before.flatten.length - overlapOf terms)).length := by
    rw [hkept, List.length_take]
    omega
  rw [htext, hoffset]
  refine fitsAt_window (fun hi => ?_) hhigh
  have hshort : before.flatten.length - overlapOf terms = 0 := by omega
  rw [hshort, List.take_zero]

/-- What is counted is what is seen. -/
theorem mem_matched_iff (hterm : term ∈ terms) (hne : term.codePoints ≠ [])
    (chunks : List (List Nat)) :
    term ∈ (chunks.foldl (TermScan.feed terms) ⟨[], []⟩).matched ↔ IsSeen terms chunks term := by
  rw [(foldl_feed terms chunks).2, IsSeen]
  simp only [hterm, true_and]
  refine exists_congr fun before => exists_congr fun chunk => exists_congr fun after => ?_
  refine and_congr_right fun hsplit => ?_
  rw [isCounted_iff hne]
  refine exists_congr fun i => ?_
  rw [taken_iff]
  constructor
  · rintro ⟨⟨hfits, hfree⟩, hlow, hhigh⟩
    exact ⟨(fitsAt_kept hterm hsplit hlow hhigh).mpr hfits, hlow, hhigh, hfree⟩
  · rintro ⟨hfits, hlow, hhigh, hfree⟩
    exact ⟨⟨(fitsAt_kept hterm hsplit hlow hhigh).mp hfits, hfree⟩, hlow, hhigh⟩

/-- No proper end of the term is a beginning of it. -/
def IsBorderless (term : List Nat) : Prop :=
  ∀ d, 0 < d → d < term.length → ¬ term.drop d <+: term

theorem fits_apart {term text : List Nat} (hborder : IsBorderless term) {i j : Nat}
    (hi : fitsAt term text i = true) (hj : fitsAt term text j = true) (hlt : j < i) :
    j + term.length ≤ i := by
  by_contra hover
  obtain ⟨rest, hrest⟩ := (fitsAt_iff.mp hj).2.1
  have hbegins := (fitsAt_iff.mp hi).2.1
  have hsplit : text.drop i = term.drop (i - j) ++ rest := by
    have hdrop : text.drop i = (text.drop j).drop (i - j) := by
      rw [List.drop_drop, Nat.add_sub_cancel' hlt.le]
    rw [hdrop, ← hrest, List.drop_append_of_le_length (by omega)]
  rw [hsplit] at hbegins
  exact hborder (i - j) (by omega) (by omega) (List.prefix_of_prefix_length_le
    (List.prefix_append _ _) hbegins (by rw [List.length_drop]; omega))

/-- A place of the text is in one of the chunks. -/
theorem exists_chunk {chunks : List (List Nat)} {place : Nat} (h : place < chunks.flatten.length) :
    ∃ before chunk after, chunks = before ++ chunk :: after ∧ before.flatten.length ≤ place ∧
      place < before.flatten.length + chunk.length := by
  induction chunks generalizing place with
  | nil => cases h
  | cons first chunks ih =>
    by_cases hfirst : place < first.length
    · exact ⟨[], first, chunks, rfl, Nat.zero_le _, by simpa using hfirst⟩
    · rw [List.flatten_cons, List.length_append] at h
      obtain ⟨before, chunk, after, rfl, hlow, hhigh⟩ := @ih (place - first.length) (by omega)
      refine ⟨first :: before, chunk, after, rfl, ?_, ?_⟩
      · rw [List.flatten_cons, List.length_append]
        omega
      · rw [List.flatten_cons, List.length_append]
        omega

/-- A term that does not overlap itself is never passed over. -/
theorem isSeen_of_borderless (hterm : term ∈ terms) (hborder : IsBorderless term.codePoints)
    {chunks : List (List Nat)} {place : Nat}
    (hfits : fitsAt term.codePoints chunks.flatten place = true)
    (hinside : place + term.length < chunks.flatten.length) : IsSeen terms chunks term := by
  obtain ⟨before, chunk, after, hsplit, hlow, hhigh⟩ := exists_chunk hinside
  have hoverlap := length_le_overlap hterm
  have hkept : (kept terms before.flatten).length =
      before.flatten.length - (before.flatten.length - overlapOf terms) := by
    rw [kept, List.length_drop]
  obtain ⟨i, rfl⟩ : ∃ i, place =
      before.flatten.length - (kept terms before.flatten).length + i :=
    ⟨place - (before.flatten.length - (kept terms before.flatten).length), by omega⟩
  have hlow' : (kept terms before.flatten).length ≤ i + term.length := by omega
  have hhigh' : i + term.length < (kept terms before.flatten ++ chunk).length := by
    rw [List.length_append]
    omega
  have hwindow := (fitsAt_kept hterm hsplit hlow' hhigh').mp hfits
  have htaken : Taken (fun i => fitsAt term.codePoints (kept terms before.flatten ++ chunk) i = true)
      term.length i := taken_of_apart (fun i j hi hj hlt => fits_apart hborder hi hj hlt) hwindow
  exact ⟨before, chunk, after, hsplit, i, hfits, hlow', hhigh', (taken_iff.mp htaken).2⟩

end Loop

/-! ## 5. Chunks and the whole text -/

section Whole

variable {L : Lowering} {terms : List PyStr} {term : PyStr}

theorem isLetterOrDigit_oneSigma (c : Nat) : isLetterOrDigit (oneSigma c) = isLetterOrDigit c := by
  rw [oneSigma]
  split
  · next h => rw [h]; rfl
  · rfl

/-- The characters of a term: `[a-z0-9_]`. -/
theorem mem_term (h : isTerm term = true) {c : Nat} (hc : c ∈ term.codePoints) :
    c ≤ 122 ∧ 48 ≤ c := by
  rw [isTerm] at h
  split at h
  · cases h
  · next first rest hpoints =>
    rw [hpoints, List.mem_cons] at hc
    simp only [Bool.and_eq_true, decide_eq_true_eq, List.all_eq_true, Bool.or_eq_true,
      isLetterOrDigit] at h
    rcases hc with rfl | hc
    · omega
    · have hclass := h.1.1.2 c hc
      omega

theorem isTerm_ne_nil (h : isTerm term = true) : term.codePoints ≠ [] := by
  intro hpoints
  simp [isTerm, hpoints] at h

theorem isPrefix_oneSigma {term text : List Nat} (hterm : ∀ c ∈ term, c ≤ 122) :
    term <+: text.map oneSigma ↔ term <+: text := by
  induction term generalizing text with
  | nil => simp
  | cons d term ih =>
    cases text with
    | nil => simp
    | cons c text =>
      have hd := hterm d List.mem_cons_self
      have hsame : d = oneSigma c ↔ d = c := by
        rw [oneSigma]
        split <;> omega
      rw [List.map_cons, List.cons_prefix_cons, List.cons_prefix_cons, hsame,
        ih fun c hc => hterm c (List.mem_cons_of_mem _ hc)]

theorem fitsAt_oneSigma {term text : List Nat} (hterm : ∀ c ∈ term, c ≤ 122) (i : Nat) :
    fitsAt term (text.map oneSigma) i = fitsAt term text i := by
  have hnear (o : Option Nat) : (∀ c, o.map oneSigma = some c → isLetterOrDigit c = false) ↔
      ∀ c, o = some c → isLetterOrDigit c = false := by
    cases o <;> simp [isLetterOrDigit_oneSigma]
  rw [Bool.eq_iff_iff, fitsAt_iff, fitsAt_iff, ← List.map_drop, isPrefix_oneSigma hterm,
    List.getElem?_map, List.getElem?_map, hnear]
  refine and_congr ?_ Iff.rfl
  constructor
  · intro h c hi hc
    exact (hnear _).mp (fun c => h c hi) c hc
  · intro h c hi hc
    exact (hnear _).mpr (fun c => h c hi) c hc

/-- A newline behind the text changes no match. -/
theorem fitsAt_newline {term text : List Nat} (hne : term ≠ []) (hterm : ∀ c ∈ term, 48 ≤ c)
    (i : Nat) : fitsAt term (text ++ [10]) i = true ↔ fitsAt term text i = true := by
  have hpositive := List.length_pos_iff.mpr hne
  by_cases hle : i + term.length ≤ text.length
  · have hprevious : (text ++ [10])[i - 1]? = text[i - 1]? :=
      List.getElem?_append_left (by omega)
    have hdrop : (text ++ [10]).drop i = text.drop i ++ [10] :=
      List.drop_append_of_le_length (by omega)
    have hwithin : term <+: text.drop i ++ [10] ↔ term <+: text.drop i :=
      ⟨fun h => List.prefix_of_prefix_length_le h (List.prefix_append _ _)
        (by rw [List.length_drop]; omega), fun h => h.trans (List.prefix_append _ _)⟩
    have hnext : (∀ c, (text ++ [10])[i + term.length]? = some c → isLetterOrDigit c = false) ↔
        ∀ c, text[i + term.length]? = some c → isLetterOrDigit c = false := by
      rcases Nat.lt_or_eq_of_le hle with hlt | heq
      · rw [List.getElem?_append_left hlt]
      · simp [heq, isLetterOrDigit]
    rw [fitsAt_iff, fitsAt_iff, hprevious, hdrop, hwithin, hnext]
  · constructor
    · intro hfits
      have hlength := fitsAt_le hfits hne
      rw [List.length_append, List.length_singleton] at hlength
      -- the term would end with the newline
      have hdrop : (text ++ [10]).drop i = text.drop i ++ [10] :=
        List.drop_append_of_le_length (by omega)
      have hprefix := (fitsAt_iff.mp hfits).2.1
      rw [hdrop] at hprefix
      have heq := hprefix.eq_of_length (by simp; omega)
      have hlow := hterm 10 (by rw [heq]; simp)
      omega
    · intro hfits
      exact absurd (fitsAt_le hfits hne) hle

theorem occurs_iff (hterm : isTerm term = true) {text : List Nat} :
    occurs term text = true ↔ ∃ i, fitsAt term.codePoints text i = true := by
  have hne := isTerm_ne_nil hterm
  have hpositive := List.length_pos_iff.mpr hne
  rw [occurs, List.any_eq_true]
  constructor
  · rintro ⟨i, _, hfits⟩
    exact ⟨i, hfits⟩
  · rintro ⟨i, hfits⟩
    have hle := fitsAt_le hfits hne
    exact ⟨i, List.mem_range.mpr (by omega), hfits⟩

/-- What the loop runs over is, chunk by chunk, the whole text and a newline. -/
theorem flatten_oneSigma (paths patch : List PyStr) :
    ((classified paths patch).map L.lower).flatten.map oneSigma =
      (wholeText L paths (PyStr.join "" patch) ++ [10]).map oneSigma := by
  have hflatten (texts : List PyStr) : ((texts.map L.lower).flatten).map oneSigma =
      texts.flatMap fun text => (L.lower text).map oneSigma := by
    rw [List.map_flatten, List.map_map, List.flatMap_def]
    rfl
  have hpatch : (patch.flatMap fun text => (L.lower text).map oneSigma) =
      (L.lower (PyStr.join "" patch)).map oneSigma := by
    induction patch with
    | nil => rfl
    | cons text patch ih =>
      have hcons : PyStr.join "" (text :: patch) = text ++ PyStr.join "" patch := by
        cases patch with
        | nil => exact PyStr.ext (by simp [PyStr.join])
        | cons next patch =>
          rw [join_cons_cons]
          have hpoints : (("" : String) : PyStr).codePoints = [] := rfl
          exact PyStr.ext (by simp [hpoints])
      rw [List.flatMap_cons, ih, hcons, lower_append_oneSigma]
  have hnewline : (L.lower (("\n" : String) : PyStr)).map oneSigma = [10] := by
    have hpoints : (("\n" : String) : PyStr).codePoints = [10] := rfl
    simp [Lowering.lower, hpoints, Lowering.lowerFrom, L.newline, oneSigma]
  rw [hflatten, classified, List.flatMap_cons, List.flatMap_append, List.flatMap_singleton, hpatch,
    hnewline, wholeText, List.map_append, lower_append_oneSigma (_ ++ _), List.append_assoc]
  rfl

theorem occurs_flatten (hterm : isTerm term = true) (paths patch : List PyStr) :
    (∃ i, fitsAt term.codePoints ((classified paths patch).map L.lower).flatten i = true) ↔
      occurs term (wholeText L paths (PyStr.join "" patch)) = true := by
  have hhigh : ∀ c ∈ term.codePoints, c ≤ 122 := fun c hc => (mem_term hterm hc).1
  rw [occurs_iff hterm]
  refine exists_congr fun i => ?_
  rw [← fitsAt_oneSigma hhigh, flatten_oneSigma, fitsAt_oneSigma hhigh,
    fitsAt_newline (isTerm_ne_nil hterm) fun c hc => (mem_term hterm hc).2]

end Whole

/-! ## 6. When no term is missed -/

section Classification

variable (L : Lowering) (policy : ReviewPolicy) (paths patch : List PyStr)

theorem isTerm_of_mem {terms : List PyStr} {term : PyStr} (h : admitsTerms terms = true)
    (hmem : term ∈ terms) : isTerm term = true := by
  simp only [admitsTerms, Bool.and_eq_true, List.all_eq_true] at h
  exact h.1.2 term hmem

/-- What is matched is what has an occurrence that is not passed over. -/
theorem contains_matchedTerms {terms : List PyStr} {term : PyStr} (hmem : term ∈ terms)
    (hterm : isTerm term = true) :
    (matchedTerms L terms paths patch).contains term = true ↔
      IsSeen terms ((classified paths patch).map L.lower) term := by
  rw [List.contains_iff_mem, matchedTerms, mem_matched_iff hmem (isTerm_ne_nil hterm)]

/-- Nothing is matched that does not occur. -/
theorem occurs_of_matched {terms : List PyStr} {term : PyStr} (hmem : term ∈ terms)
    (hterm : isTerm term = true)
    (h : (matchedTerms L terms paths patch).contains term = true) :
    occurs term (wholeText L paths (PyStr.join "" patch)) = true := by
  obtain ⟨_, _, _, _, i, hfits, _⟩ := (contains_matchedTerms L paths patch hmem hterm).mp h
  exact (occurs_flatten hterm paths patch).mp ⟨_, hfits⟩

/-- The terms matched are those that occur, and the profile and the reason are those of the whole
text. -/
def FindsAll : Prop :=
  (∀ term ∈ policy.trustRootTerms,
    ((matchedTerms L policy.trustRootTerms paths patch).contains term = true ↔
      occurs term (wholeText L paths (PyStr.join "" patch)) = true)) ∧
  classifyReviewProfile L policy paths patch =
    profileOf policy paths fun term => occurs term (wholeText L paths (PyStr.join "" patch))

variable {L policy paths patch} in
theorem findsAll_of_seen (h : admitsTerms policy.trustRootTerms = true)
    (hseen : ∀ term ∈ policy.trustRootTerms,
      occurs term (wholeText L paths (PyStr.join "" patch)) = true →
        IsSeen policy.trustRootTerms ((classified paths patch).map L.lower) term) :
    FindsAll L policy paths patch := by
  have hfound : ∀ term ∈ policy.trustRootTerms,
      ((matchedTerms L policy.trustRootTerms paths patch).contains term = true ↔
        occurs term (wholeText L paths (PyStr.join "" patch)) = true) := by
    intro term hmem
    have hterm := isTerm_of_mem h hmem
    constructor
    · exact occurs_of_matched L paths patch hmem hterm
    · intro hoccurs
      exact (contains_matchedTerms L paths patch hmem hterm).mpr (hseen term hmem hoccurs)
  refine ⟨hfound, ?_⟩
  have hfind : policy.trustRootTerms.find? (fun term =>
        (matchedTerms L policy.trustRootTerms paths patch).contains term) =
      policy.trustRootTerms.find? fun term =>
        occurs term (wholeText L paths (PyStr.join "" patch)) :=
    List.find?_congr fun term hmem => Bool.eq_iff_iff.mpr (hfound term hmem)
  rw [classifyReviewProfile, profileOf, hfind]
  rfl

/-- Terms that do not overlap themselves are found wherever the chunks end. -/
theorem findsAll_of_borderless (h : admitsTerms policy.trustRootTerms = true)
    (hborder : ∀ term ∈ policy.trustRootTerms, IsBorderless term.codePoints) :
    FindsAll L policy paths patch := by
  refine findsAll_of_seen h fun term hmem hoccurs => ?_
  have hterm := isTerm_of_mem h hmem
  obtain ⟨place, hfits⟩ := (occurs_flatten hterm paths patch).mpr hoccurs
  -- the text ends with a newline, which no match takes
  obtain ⟨front, hflatten⟩ : ∃ front,
      ((classified paths patch).map L.lower).flatten = front ++ [10] := by
    have hpoints : (("\n" : String) : PyStr).codePoints = [10] := rfl
    have hnewline : L.lower (("\n" : String) : PyStr) = [10] := by
      simp [Lowering.lower, hpoints, Lowering.lowerFrom, L.newline]
    exact ⟨(((PyStr.join "\n" paths ++ "\n") :: patch).map L.lower).flatten, by
      simp [classified, hnewline]⟩
  have hbefore := hfits
  rw [hflatten, fitsAt_newline (isTerm_ne_nil hterm) fun c hc => (mem_term hterm hc).2] at hbefore
  have hle := fitsAt_le hbefore (isTerm_ne_nil hterm)
  refine isSeen_of_borderless hmem (hborder term hmem) hfits ?_
  rw [hflatten, List.length_append]
  exact Nat.lt_succ_of_le hle

def samplePolicy : ReviewPolicy := ⟨["x"], [], ["a_a"]⟩

end Classification

end Supplementary.Push
