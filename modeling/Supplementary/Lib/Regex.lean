/-
# Regular expressions that backtrack

A pattern gives, at a place of a text, the places where a match of it may end, the preferred one
first; a place is what stands before it, backwards, and what comes after it.  `search` asks whether
there is a match anywhere, `Rewrite.sub` replaces the matches from left to right.

What a rewriting puts in may not be read together with what it leaves: a word that shows in the
rewritten text showed in the text itself (`Rewrite.shows_of_sub`), if the new text is set off by
characters that are not in the word.  Characters are compared by a `key`, such as their lower case.
-/
import Mathlib.Data.List.Infix

namespace Supplementary

variable {α β : Type}

/-- A place in a text: what is before it, backwards, and what is after it. -/
abbrev Regex.Place (α : Type) := List α × List α

/-- A pattern. -/
inductive Regex (α : Type)
  | empty
  | char (p : α → Bool)
  | look (p : Regex.Place α → Bool)
  | seq (r s : Regex α)
  | alt (r s : Regex α)
  | many (p : α → Bool) (least : Nat) (most : Option Nat) (greedy : Bool)

namespace Regex

/-- Where a repetition of one character may end. -/
def manyEnds (p : α → Bool) (greedy : Bool) : (least : Nat) → (most : Option Nat) →
    (before after : List α) → List (Place α)
  | least, _, before, [] => if least = 0 then [(before, [])] else []
  | least, most, before, c :: rest =>
    let stop := if least = 0 then [(before, c :: rest)] else []
    let more := if most ≠ some 0 && p c then
      manyEnds p greedy (least - 1) (most.map (· - 1)) (c :: before) rest else []
    if greedy then more ++ stop else stop ++ more

/-- Where a match that begins at a place may end, the preferred end first. -/
def ends : Regex α → Place α → List (Place α)
  | empty, place => [place]
  | char p, (before, c :: rest) => if p c then [(c :: before, rest)] else []
  | char _, (_, []) => []
  | look p, place => if p place then [place] else []
  | seq r s, place => (r.ends place).flatMap s.ends
  | alt r s, place => r.ends place ++ s.ends place
  | many p least most greedy, (before, after) => manyEnds p greedy least most before after

/-- `re.search(pattern, text) is not None`, from a place on. -/
def searchFrom (r : Regex α) : (before after : List α) → Bool
  | before, [] => !(r.ends (before, [])).isEmpty
  | before, c :: rest => !(r.ends (before, c :: rest)).isEmpty || r.searchFrom (c :: before) rest

def search (r : Regex α) (text : List α) : Bool := r.searchFrom [] text

/-! ## 1. Patterns put together -/

/-- `r?`. -/
def opt (r : Regex α) : Regex α := alt r empty

/-- `r|s|...`. -/
def oneOf : List (Regex α) → Regex α
  | [] => look fun _ => false
  | [r] => r
  | r :: rest => alt r (oneOf rest)

/-- One pattern after the other. -/
def chain : List (Regex α) → Regex α
  | [] => empty
  | r :: rest => seq r (chain rest)

/-- The characters of a word, compared by their key. -/
def word [DecidableEq β] (key : α → β) : List β → Regex α
  | [] => empty
  | d :: rest => seq (char fun c => key c = d) (word key rest)

/-! ## 2. Where matches end -/

theorem mem_manyEnds {p : α → Bool} {greedy : Bool} {least : Nat} {most : Option Nat}
    {before after : List α} {place : Place α}
    (h : place ∈ manyEnds p greedy least most before after) :
    ∃ m, after = m ++ place.2 ∧ place.1 = m.reverse ++ before := by
  induction after generalizing least most before with
  | nil =>
    rw [manyEnds] at h
    split at h
    · rw [List.mem_singleton.mp h]
      exact ⟨[], rfl, rfl⟩
    · cases h
  | cons c rest ih =>
    have hcases : place = (before, c :: rest) ∨
        place ∈ manyEnds p greedy (least - 1) (most.map (· - 1)) (c :: before) rest := by
      rw [manyEnds] at h
      cases greedy <;> simp only [Bool.false_eq_true, if_false, if_true, List.mem_append] at h <;>
        rcases h with h | h <;> split at h <;> simp_all
    rcases hcases with rfl | hmore
    · exact ⟨[], rfl, rfl⟩
    · obtain ⟨m, hrest, hbefore⟩ := ih hmore
      exact ⟨c :: m, by rw [hrest]; rfl, by simp [hbefore]⟩

/-- A match is a part of the text. -/
theorem mem_ends {r : Regex α} {start stop : Place α} (h : stop ∈ r.ends start) :
    ∃ m, start.2 = m ++ stop.2 ∧ stop.1 = m.reverse ++ start.1 := by
  induction r generalizing start stop with
  | empty =>
    rw [List.mem_singleton.mp h]
    exact ⟨[], rfl, rfl⟩
  | char p =>
    obtain ⟨before, after⟩ := start
    cases after with
    | nil => cases h
    | cons c rest =>
      rw [ends] at h
      split at h
      · rw [List.mem_singleton.mp h]
        exact ⟨[c], rfl, rfl⟩
      · cases h
  | look p =>
    rw [ends] at h
    split at h
    · rw [List.mem_singleton.mp h]
      exact ⟨[], rfl, rfl⟩
    · cases h
  | seq r s ihr ihs =>
    rw [ends, List.mem_flatMap] at h
    obtain ⟨middle, hr, hs⟩ := h
    obtain ⟨m, hm, hbefore⟩ := ihr hr
    obtain ⟨n, hn, hstop⟩ := ihs hs
    exact ⟨m ++ n, by rw [hm, hn, List.append_assoc], by simp [hstop, hbefore]⟩
  | alt r s ihr ihs =>
    rw [ends, List.mem_append] at h
    rcases h with h | h
    · exact ihr h
    · exact ihs h
  | many p least most greedy => exact mem_manyEnds h

theorem search_iff {r : Regex α} {text : List α} : r.search text = true ↔
    ∃ front rest, text = front ++ rest ∧ ∃ stop, stop ∈ r.ends (front.reverse, rest) := by
  have hfrom : ∀ (rest front : List α), r.searchFrom front.reverse rest = true ↔
      ∃ more after, rest = more ++ after ∧ ∃ stop, stop ∈ r.ends ((front ++ more).reverse, after) := by
    intro rest
    induction rest with
    | nil =>
      intro front
      rw [searchFrom, Bool.not_eq_true', List.isEmpty_eq_false_iff_exists_mem]
      constructor
      · rintro ⟨stop, hstop⟩
        exact ⟨[], [], rfl, stop, by simpa using hstop⟩
      · rintro ⟨more, after, hnil, stop, hstop⟩
        obtain ⟨rfl, rfl⟩ := List.append_eq_nil_iff.mp hnil.symm
        exact ⟨stop, by simpa using hstop⟩
    | cons c rest ih =>
      intro front
      have hnext := ih (front ++ [c])
      rw [List.reverse_append, List.reverse_singleton, List.singleton_append] at hnext
      rw [searchFrom, Bool.or_eq_true, hnext, Bool.not_eq_true',
        List.isEmpty_eq_false_iff_exists_mem]
      constructor
      · rintro (⟨stop, hstop⟩ | ⟨more, after, rfl, stop, hstop⟩)
        · exact ⟨[], c :: rest, rfl, stop, by simpa using hstop⟩
        · exact ⟨c :: more, after, rfl, stop, by simpa using hstop⟩
      · rintro ⟨more, after, hsplit, stop, hstop⟩
        cases more with
        | nil =>
          rw [List.nil_append] at hsplit
          subst hsplit
          exact Or.inl ⟨stop, by simpa using hstop⟩
        | cons d more =>
          obtain ⟨rfl, rfl⟩ := List.cons.inj hsplit
          exact Or.inr ⟨more, after, rfl, stop, by simpa using hstop⟩
  simpa [search] using hfrom text []

theorem mem_word_ends [DecidableEq β] {key : α → β} {letters : List β} {start stop : Place α}
    (h : stop ∈ (word key letters).ends start) : letters <+: start.2.map key := by
  induction letters generalizing start with
  | nil => exact List.nil_prefix
  | cons d letters ih =>
    rw [word, ends, List.mem_flatMap] at h
    obtain ⟨middle, hchar, hrest⟩ := h
    obtain ⟨before, after⟩ := start
    cases after with
    | nil => cases hchar
    | cons c rest =>
      rw [ends] at hchar
      split at hchar
      · next hkey =>
        rw [List.mem_singleton.mp hchar] at hrest
        rw [List.map_cons, List.cons_prefix_cons]
        exact ⟨(of_decide_eq_true hkey).symm, ih hrest⟩
      · cases hchar

theorem word_ends [DecidableEq α] (letters before after : List α) :
    (word id letters).ends (before, after) = if letters.isPrefixOf after
      then [(letters.reverse ++ before, after.drop letters.length)] else [] := by
  induction letters generalizing before after with
  | nil => simp [word, ends]
  | cons d letters ih =>
    cases after with
    | nil => simp [word, ends]
    | cons c rest =>
      by_cases hc : c = d
      · simp [word, ends, hc, ih]
      · simp [word, ends, hc, Ne.symm hc]

/-! ## 3. Patterns that are lists of words -/

/-- A pattern without repetitions that looks at nothing but the keys of what it matches, all of
which are letters. -/
def IsPlain (key : α → β) (letter : β → Prop) : Regex α → Prop
  | empty => True
  | char p => ∀ c, p c = true → letter (key c) ∧ ∀ d, key d = key c → p d = true
  | seq r s => r.IsPlain key letter ∧ s.IsPlain key letter
  | alt r s => r.IsPlain key letter ∧ s.IsPlain key letter
  | look _ => False
  | many _ _ _ _ => False

theorem isPlain_word [DecidableEq β] {key : α → β} {letter : β → Prop} {letters : List β}
    (h : ∀ d ∈ letters, letter d) : (word key letters).IsPlain key letter := by
  induction letters with
  | nil => trivial
  | cons d letters ih =>
    obtain ⟨hd, hrest⟩ := List.forall_mem_cons.mp h
    refine ⟨fun c hc => ?_, ih hrest⟩
    have hkey : key c = d := of_decide_eq_true hc
    exact ⟨hkey ▸ hd, fun c' hc' => decide_eq_true (hc'.trans hkey)⟩

theorem isPlain_chain {key : α → β} {letter : β → Prop} {rs : List (Regex α)} :
    (chain rs).IsPlain key letter ↔ ∀ r ∈ rs, r.IsPlain key letter := by
  induction rs with
  | nil => simp [chain, IsPlain]
  | cons r rs ih => simp [chain, IsPlain, ih]

theorem isPlain_oneOf {key : α → β} {letter : β → Prop} {r : Regex α} {rs : List (Regex α)} :
    (oneOf (r :: rs)).IsPlain key letter ↔ ∀ s ∈ r :: rs, s.IsPlain key letter := by
  induction rs generalizing r with
  | nil => simp [oneOf]
  | cons s rs ih =>
    have hcons : oneOf (r :: s :: rs) = alt r (oneOf (s :: rs)) := rfl
    rw [hcons, IsPlain, ih]
    exact List.forall_mem_cons.symm

/-- What such a pattern matches, it matches wherever it stands and however its characters are
written. -/
theorem IsPlain.anywhere {key : α → β} {letter : β → Prop} {r : Regex α}
    (hr : r.IsPlain key letter) {start stop : Place α} (h : stop ∈ r.ends start) :
    ∃ m, start.2 = m ++ stop.2 ∧ (∀ c ∈ m, letter (key c)) ∧
      ∀ m' before rest, m'.map key = m.map key →
        (m'.reverse ++ before, rest) ∈ r.ends (before, m' ++ rest) := by
  induction r generalizing start stop with
  | empty =>
    rw [List.mem_singleton.mp h]
    refine ⟨[], rfl, by simp, fun m' before rest hkey => ?_⟩
    rw [List.map_nil, List.map_eq_nil_iff] at hkey
    rw [hkey]
    exact List.mem_singleton.mpr rfl
  | char p =>
    obtain ⟨before, after⟩ := start
    cases after with
    | nil => cases h
    | cons c rest =>
      rw [ends] at h
      split at h
      · next hp =>
        obtain ⟨hletter, hsame⟩ := hr c hp
        rw [List.mem_singleton.mp h]
        refine ⟨[c], rfl, by simpa using hletter, fun m' before' rest' hkey => ?_⟩
        obtain ⟨d, rfl, hd⟩ := List.map_eq_singleton_iff.mp hkey
        have hpd := hsame d hd
        simp [ends, hpd]
      · cases h
  | look p => exact hr.elim
  | seq r s ihr ihs =>
    rw [ends, List.mem_flatMap] at h
    obtain ⟨middle, hmiddle, hstop⟩ := h
    obtain ⟨m, hm, hmletter, hmany⟩ := ihr hr.1 hmiddle
    obtain ⟨n, hn, hnletter, hnany⟩ := ihs hr.2 hstop
    refine ⟨m ++ n, by rw [hm, hn, List.append_assoc], ?_, fun both before rest hkey => ?_⟩
    · intro c hc
      rcases List.mem_append.mp hc with hc | hc
      · exact hmletter c hc
      · exact hnletter c hc
    · rw [List.map_append] at hkey
      obtain ⟨m', n', rfl, hm', hn'⟩ := List.map_eq_append_iff.mp hkey
      rw [ends, List.mem_flatMap]
      refine ⟨(m'.reverse ++ before, n' ++ rest), ?_, ?_⟩
      · rw [List.append_assoc]
        exact hmany m' before (n' ++ rest) hm'
      · rw [List.reverse_append, List.append_assoc]
        exact hnany n' (m'.reverse ++ before) rest hn'
  | alt r s ihr ihs =>
    rw [ends, List.mem_append] at h
    rcases h with h | h
    · obtain ⟨m, hm, hletter, hany⟩ := ihr hr.1 h
      exact ⟨m, hm, hletter, fun m' before rest hkey =>
        List.mem_append_left _ (hany m' before rest hkey)⟩
    · obtain ⟨m, hm, hletter, hany⟩ := ihs hr.2 h
      exact ⟨m, hm, hletter, fun m' before rest hkey =>
        List.mem_append_right _ (hany m' before rest hkey)⟩
  | many p least most greedy => exact hr.elim

/-- The words of such a pattern are found by their keys. -/
theorem IsPlain.word_of_search {key : α → β} {letter : β → Prop} {r : Regex α}
    (hr : r.IsPlain key letter) {text : List α} (h : r.search text = true) :
    ∃ m : List β, (∀ c ∈ m, letter c) ∧ m <:+: text.map key ∧
      ∀ text' : List α, m <:+: text'.map key → r.search text' = true := by
  obtain ⟨front, rest, rfl, stop, hstop⟩ := Regex.search_iff.mp h
  obtain ⟨m, hm, hletter, hany⟩ := hr.anywhere hstop
  refine ⟨m.map key, by simpa using hletter, ?_, fun text' hshows => ?_⟩
  · refine ⟨front.map key, stop.2.map key, ?_⟩
    simp only at hm
    rw [← List.map_append, ← List.map_append, hm, List.append_assoc]
  · obtain ⟨pre, post, hsplit⟩ := hshows
    obtain ⟨both, after, rfl, hboth, hafter⟩ := List.map_eq_append_iff.mp hsplit.symm
    obtain ⟨front', m', rfl, hfront, hm'⟩ := List.map_eq_append_iff.mp hboth
    exact Regex.search_iff.mpr ⟨front', m' ++ after, by rw [List.append_assoc],
      (m'.reverse ++ front'.reverse, after), hany m' front'.reverse after hm'⟩

end Regex

/-! ## 4. Replacing -/

/-- A pattern whose matches are replaced but for what its first and its last part match. -/
structure Rewrite (α : Type) where
  head : Regex α
  body : Regex α
  tail : Regex α
  replacement : List α

namespace Rewrite

open Regex (Place)

variable {w : Rewrite α}

/-- The places between the parts of the preferred match that is not empty: where the first part ends,
where the last one begins, and where it ends. -/
def find? (w : Rewrite α) (start : Place α) : Option (Place α × Place α × Place α) :=
  ((w.head.ends start).flatMap fun first => (w.body.ends first).flatMap fun second =>
    (w.tail.ends second).map fun stop => (first, second, stop)).find? fun places =>
      places.2.2.2.length < start.2.length

/-- `re.sub`; `skip` is what is left of the last match. -/
def subFrom (w : Rewrite α) : (skip : Nat) → (before after : List α) → List α
  | _, _, [] => []
  | skip + 1, before, c :: rest => w.subFrom skip (c :: before) rest
  | 0, before, c :: rest =>
    match w.find? (before, c :: rest) with
    | some (first, second, stop) =>
      (c :: rest).take ((c :: rest).length - first.2.length) ++ w.replacement ++
        second.2.take (second.2.length - stop.2.length) ++
        w.subFrom (rest.length - stop.2.length) (c :: before) rest
    | none => c :: w.subFrom 0 (c :: before) rest

def sub (w : Rewrite α) (text : List α) : List α := w.subFrom 0 [] text

theorem find?_eq_some {start first second stop : Place α}
    (h : w.find? start = some (first, second, stop)) :
    first ∈ w.head.ends start ∧ second ∈ w.body.ends first ∧ stop ∈ w.tail.ends second ∧
      stop.2.length < start.2.length := by
  have hmem := List.mem_of_find?_eq_some h
  have hless := List.find?_some h
  simp only [List.mem_flatMap, List.mem_map] at hmem
  obtain ⟨_, hfirst, _, hsecond, _, hstop, heq⟩ := hmem
  cases heq
  exact ⟨hfirst, hsecond, hstop, of_decide_eq_true hless⟩

theorem subFrom_skip (before after rest : List α) :
    w.subFrom after.length before (after ++ rest) = w.subFrom 0 (after.reverse ++ before) rest := by
  induction after generalizing before with
  | nil => rfl
  | cons c after ih =>
    rw [List.length_cons, List.cons_append, subFrom, ih, List.reverse_cons, List.append_assoc]
    rfl

/-- One step of the rewriting: a character is copied, or the match is replaced. -/
theorem subFrom_cons (before : List α) (c : α) (rest : List α) :
    w.subFrom 0 before (c :: rest) = c :: w.subFrom 0 (c :: before) rest ∨
      ∃ kept first body last after before', c :: rest = kept ++ body ++ last ++ after ∧
        after.length < (c :: rest).length ∧
        (first, body ++ last ++ after) ∈ w.head.ends (before, c :: rest) ∧
        (∃ second, (second, last ++ after) ∈ w.body.ends (first, body ++ last ++ after)) ∧
        w.subFrom 0 before (c :: rest) =
          kept ++ w.replacement ++ last ++ w.subFrom 0 before' after := by
  rw [subFrom]
  split
  · next first second stop hfind =>
    obtain ⟨hfirst, hsecond, hstop, hless⟩ := find?_eq_some hfind
    obtain ⟨kept, hkept, _⟩ := Regex.mem_ends hfirst
    obtain ⟨body, hbody, _⟩ := Regex.mem_ends hsecond
    obtain ⟨last, hlast, _⟩ := Regex.mem_ends hstop
    obtain ⟨firstBefore, firstAfter⟩ := first
    obtain ⟨secondBefore, secondAfter⟩ := second
    obtain ⟨stopBefore, after⟩ := stop
    simp only at hkept hbody hlast hless
    subst hlast
    subst hbody
    -- the match takes the character that stands here
    obtain ⟨consumed, hconsumed⟩ : ∃ consumed, rest = consumed ++ after := by
      rw [← List.append_assoc, ← List.append_assoc] at hkept
      cases hall : kept ++ body ++ last with
      | nil =>
        rw [hall, List.nil_append] at hkept
        rw [hkept] at hless
        exact absurd hless (Nat.lt_irrefl _)
      | cons d consumed =>
        rw [hall, List.cons_append] at hkept
        exact ⟨consumed, (List.cons.inj hkept).2⟩
    have hskip : rest.length - after.length = consumed.length := by
      rw [hconsumed, List.length_append, Nat.add_sub_cancel]
    have hkeptTake : (c :: rest).take ((c :: rest).length - (body ++ (last ++ after)).length) =
        kept := by
      rw [hkept, List.length_append, Nat.add_sub_cancel, List.take_left]
    have hlastTake : (last ++ after).take ((last ++ after).length - after.length) = last := by
      rw [List.length_append, Nat.add_sub_cancel, List.take_left]
    right
    refine ⟨kept, firstBefore, body, last, after, consumed.reverse ++ (c :: before),
      by rw [hkept]; simp, hless, by simpa using hfirst, ⟨secondBefore, by simpa using hsecond⟩, ?_⟩
    simp only [hkeptTake, hlastTake, hskip]
    rw [hconsumed, subFrom_skip]
  · exact Or.inl rfl

/-! ## 5. What shows in a rewritten text -/

theorem prefix_of_separated {m front rest : List β} {separator : β} (hm : separator ∉ m)
    (h : m <+: front ++ separator :: rest) : m <+: front := by
  induction front generalizing m with
  | nil =>
    cases m with
    | nil => exact List.prefix_rfl
    | cons d m => exact absurd (by simp [(List.cons_prefix_cons.mp h).1]) hm
  | cons c front ih =>
    cases m with
    | nil => exact List.nil_prefix
    | cons d m =>
      obtain ⟨rfl, hrest⟩ := List.cons_prefix_cons.mp h
      exact List.cons_prefix_cons.mpr
        ⟨rfl, ih (fun hmem => hm (List.mem_cons_of_mem _ hmem)) hrest⟩

/-- A word is on one side of a character that it does not have. -/
theorem infix_of_separated {m front rest : List β} {separator : β} (hm : separator ∉ m)
    (h : m <:+: front ++ separator :: rest) : m <:+: front ∨ m <:+: rest := by
  induction front with
  | nil =>
    rcases List.infix_cons_iff.mp h with hprefix | hrest
    · exact Or.inl (prefix_of_separated hm hprefix).isInfix
    · exact Or.inr hrest
  | cons c front ih =>
    rcases List.infix_cons_iff.mp h with hprefix | hrest
    · exact Or.inl (@prefix_of_separated _ m (c :: front) rest separator hm hprefix).isInfix
    · rcases ih hrest with hfront | hrest
      · exact Or.inl (List.infix_cons hfront)
      · exact Or.inr hrest

/-- What a rewriting puts in is set off from the text for a word: it begins as the match begins, and
what then stands between two characters that are not in the word does not show it. -/
def SetsOff (w : Rewrite α) (key : α → β) (m : List β) : Prop :=
  ∃ lead opening inner closing, w.replacement = lead ++ opening :: (inner ++ [closing]) ∧
    key opening ∉ m ∧ key closing ∉ m ∧ ¬ m <:+: inner.map key ∧
    ∀ start first second, first ∈ w.head.ends start → second ∈ w.body.ends first →
      lead.map key <+: first.2.map key

/-- **A word that shows in the rewritten text showed in the text.** -/
theorem shows_of_sub {key : α → β} {m : List β} (hset : w.SetsOff key m) {text : List α}
    (h : m <:+: (w.sub text).map key) : m <:+: text.map key := by
  obtain ⟨lead, opening, inner, closing, hreplacement, hopening, hclosing, hinner, hlead⟩ := hset
  have hshows : ∀ (n : Nat) (front before after : List α), after.length ≤ n →
      m <:+: (front ++ w.subFrom 0 before after).map key → m <:+: (front ++ after).map key := by
    intro n
    induction n with
    | zero =>
      intro front before after hn h
      rw [List.length_eq_zero_iff.mp (Nat.le_zero.mp hn)] at h ⊢
      exact h
    | succ n ih =>
      intro front before after hn h
      cases after with
      | nil => exact h
      | cons c rest =>
        rcases w.subFrom_cons before c rest with hcopy | ⟨kept, first, body, last, after, before',
          hsplit, hless, hfirst, ⟨second, hsecond⟩, hsub⟩
        · rw [hcopy, ← List.singleton_append, ← List.append_assoc] at h
          have hrest := ih (front ++ [c]) (c :: before) rest (by simpa using hn) h
          rwa [List.append_assoc] at hrest
        · have hbegins := hlead _ _ _ hfirst hsecond
          rw [hsub, hreplacement] at h
          simp only [List.map_append, List.map_cons, List.append_assoc, List.cons_append,
            List.nil_append] at h
          rw [← List.append_assoc, ← List.append_assoc] at h
          rw [hsplit]
          rcases infix_of_separated hopening h with h | h
          · obtain ⟨others, hothers⟩ := hbegins
            have hwhole : (front ++ (kept ++ body ++ last ++ after)).map key =
                front.map key ++ kept.map key ++ lead.map key ++ others := by
              rw [List.append_assoc (front.map key ++ kept.map key) (lead.map key) others, hothers]
              simp
            rw [hwhole]
            exact List.infix_append_of_infix_left h
          · rcases infix_of_separated hclosing h with h | h
            · exact absurd h hinner
            · have hafter := ih last before' after (by simp at hless hn; omega)
                (by rwa [List.map_append])
              have hwhole : (front ++ (kept ++ body ++ last ++ after)).map key =
                  (front ++ kept ++ body).map key ++ (last ++ after).map key := by
                simp
              rw [hwhole]
              exact List.infix_append_of_infix_right hafter
  simpa [sub] using hshows text.length [] [] text le_rfl (by simpa [sub] using h)

/-- The same for a list of rewritings, one after the other. -/
theorem shows_of_foldl {key : α → β} {m : List β} {rewrites : List (Rewrite α)}
    (hset : ∀ w ∈ rewrites, w.SetsOff key m) {text : List α}
    (h : m <:+: (rewrites.foldl (fun text w => w.sub text) text).map key) :
    m <:+: text.map key := by
  induction rewrites generalizing text with
  | nil => exact h
  | cons w rewrites ih =>
    obtain ⟨hw, hrest⟩ := List.forall_mem_cons.mp hset
    exact shows_of_sub hw (ih hrest h)

end Rewrite

end Supplementary
