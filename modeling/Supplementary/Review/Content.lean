/-
# The classifier of review content

`require_usable_review_content` refuses a review whose texts, once normalized, hold one of the markers
of an unsuccessful review.  `normalize` folds ASCII letters, expands contractions and removes
whitespace, in that order: a contraction is one only where it is written without whitespace in it.
Whitespace anywhere else does not matter, `requireUsableReviewContent_respaced`.
-/
import Supplementary.Python.Replace
import Supplementary.Python.Value

namespace Supplementary.Review

open PyStr

/-! ## 1. `normalize` -/

/-- `chr(ord(char) + 32) if "A" <= char <= "Z" else char`. -/
def asciiLower (c : Nat) : Nat := if 65 ≤ c ∧ c ≤ 90 then c + 32 else c

/-- The contractions and what they stand for, in the order of the calls. -/
def contractions : List (PyStr × PyStr) :=
  [("can't", "cannot"), ("can\u2019t", "cannot"), ("n't", " not"), ("n\u2019t", " not")]

/-- `expanded`. -/
def expand (s : PyStr) : PyStr := contractions.foldl (fun s rule => s.replace rule.1 rule.2) s

/-- `normalize(value)`. -/
def normalize (value : PyStr) : PyStr :=
  let expanded := expand ⟨value.codePoints.map asciiLower⟩
  ⟨expanded.codePoints.filter fun c => !isSpace c⟩

/-! ## 2. `require_usable_review_content` -/

def failureMarkers : List PyStr :=
  ["unabletoreviewthispullrequest", "cannotreviewthispullrequest", "cannotreviewanyfiles",
    "notabletoreviewthispullrequest", "wasnotabletoreviewthispullrequest",
    "nofilestoreview", "nofileswerereviewed",
    "unabletoreviewanyfiles",
    "notabletoreviewanyfiles",
    "wasnotabletoreviewanyfiles",
    "quotaexhausted",
    "quotaexceeded",
    "premiumrequestquota",
    "premiumrequestsquota",
    "suppressedcomment",
    "encounteredanerror"]

structure ReviewContentError where
  message : PyStr
  deriving DecidableEq

/-- A value, if its type is `str`. -/
def strOf : Value → Option PyStr
  | .str s => some s
  | _ => none

/-- `review_body or ""`, if that is `None` or a `str`. -/
def bodyText : Value → Option PyStr
  | .none => some ""
  | v => strOf v

/-- The inline bodies, if they are a list of `str`. -/
def inlineTexts : Value → Option (List PyStr)
  | .list items => items.mapM strOf
  | _ => none

/-- `require_usable_review_content(review_body, inline_bodies)`. -/
def requireUsableReviewContent (reviewBody inlineBodies : Value) :
    Except ReviewContentError Unit :=
  match bodyText reviewBody with
  | none => .error ⟨"review-body-shape"⟩
  | some body => match inlineTexts inlineBodies with
    | none => .error ⟨"inline-body-shape"⟩
    | some inline =>
      let parts := normalize body :: inline.map normalize
      if parts.all fun part => part.codePoints = [] then .error ⟨"review-content-empty"⟩
      else if parts.any fun part => failureMarkers.any fun marker => part.contains marker then
        .error ⟨"review-content-failed"⟩
      else .ok ()

/-! ## 3. Whitespace -/

/-- No contraction has letters on both sides of the place between `u` and `v`. -/
def BetweenWords (u v : List Nat) : Prop :=
  ∀ rule ∈ contractions, Apart rule.1.codePoints (u.map asciiLower) (v.map asciiLower)

instance {u v : List Nat} : Decidable (BetweenWords u v) :=
  inferInstanceAs (Decidable (∀ rule ∈ contractions, _))

/-- Whitespace is inserted and deleted, never inside a contraction. -/
inductive Respaced : PyStr → PyStr → Prop
  | refl (s : PyStr) : Respaced s s
  | insert {s : PyStr} {u v : List Nat} {c : Nat} : Respaced s ⟨u ++ v⟩ → isSpace c = true →
      BetweenWords u v → Respaced s ⟨u ++ c :: v⟩
  | delete {s : PyStr} {u v : List Nat} {c : Nat} : Respaced s ⟨u ++ c :: v⟩ → isSpace c = true →
      BetweenWords u v → Respaced s ⟨u ++ v⟩

/-- The same for a value: a text is respaced, what is no text stays. -/
inductive RespacedValue : Value → Value → Prop
  | same (v : Value) : RespacedValue v v
  | str {s t : PyStr} : Respaced s t → RespacedValue (.str s) (.str t)

/-- The same for the inline bodies. -/
inductive RespacedList : Value → Value → Prop
  | same (v : Value) : RespacedList v v
  | list {items items' : List Value} : List.Forall₂ RespacedValue items items' →
      RespacedList (.list items) (.list items')

theorem asciiLower_of_isSpace {c : Nat} (h : isSpace c = true) : asciiLower c = c := by
  rw [asciiLower, if_neg]
  rintro ⟨hlow, hhigh⟩
  simp only [isSpace, Bool.or_eq_true, Bool.and_eq_true, decide_eq_true_eq] at h
  omega

/-- No contraction has whitespace in it. -/
theorem not_mem_contraction {c : Nat} (h : isSpace c = true) :
    ∀ rule ∈ contractions, c ∉ rule.1.codePoints := by
  intro rule hrule hmem
  have hnone : ∀ rule ∈ contractions, ∀ d ∈ rule.1.codePoints, isSpace d = false := by decide
  rw [hnone rule hrule c hmem] at h
  cases h

/-- What an expansion puts in ends with a letter that no contraction has but at its end, and begins
with one that no contraction has but at its beginning. -/
theorem contractions_ends : ∀ rule ∈ contractions, rule.1.codePoints ≠ [] ∧
    rule.2.codePoints.getLast? = some 116 ∧
    ∀ later ∈ contractions, 116 ∉ later.1.codePoints.dropLast ∧
      ∃ first ∈ [99, 32], rule.2.codePoints.head? = some first ∧
        first ∉ later.1.codePoints.tail := by
  decide

/-- The replacements, one after the other. -/
def rewrite (rules : List (PyStr × PyStr)) (s : List Nat) : List Nat :=
  rules.foldl (fun s rule => replaceFrom rule.1.codePoints rule.2.codePoints 0 s) s

theorem foldl_replace (rules : List (PyStr × PyStr)) (s : PyStr) :
    (rules.foldl (fun (s : PyStr) rule => s.replace rule.1 rule.2) s).codePoints =
      rewrite rules s.codePoints := by
  induction rules generalizing s with
  | nil => rfl
  | cons rule rules ih =>
    rw [List.foldl_cons, ih, replace_codePoints]
    rfl

/-- The two sides of a place that no word reaches across are rewritten on their own. -/
theorem rewrite_append {rules : List (PyStr × PyStr)} {u v : List Nat}
    (hrules : ∀ rule ∈ rules, rule ∈ contractions)
    (h : ∀ rule ∈ rules, Apart rule.1.codePoints u v) :
    rewrite rules (u ++ v) = rewrite rules u ++ rewrite rules v := by
  induction rules generalizing u v with
  | nil => rfl
  | cons rule rules ih =>
    obtain ⟨hold, hend, hlater⟩ := contractions_ends rule (hrules rule List.mem_cons_self)
    change rewrite rules (replaceFrom _ _ 0 (u ++ v)) = _
    rw [replaceFrom_append hold (h rule List.mem_cons_self)]
    refine ih (fun later hl => hrules later (List.mem_cons_of_mem _ hl)) fun later hl => ?_
    obtain ⟨hlast, first, -, hhead, hfirst⟩ := hlater later (hrules later (List.mem_cons_of_mem _ hl))
    exact (h later (List.mem_cons_of_mem _ hl)).replaceFrom hold hhead hend hlast hfirst

/-- Whitespace passes through the replacements. -/
theorem rewrite_space {c : Nat} (h : isSpace c = true) : rewrite contractions [c] = [c] := by
  have hsame : ∀ rules : List (PyStr × PyStr), (∀ rule ∈ rules, rule ∈ contractions) →
      rewrite rules [c] = [c] := by
    intro rules hrules
    induction rules with
    | nil => rfl
    | cons rule rules ih =>
      have hmem := hrules rule List.mem_cons_self
      have hnot : ¬ rule.1.codePoints <+: [c] := by
        intro hword
        obtain ⟨d, word, hd⟩ := List.exists_cons_of_ne_nil (contractions_ends rule hmem).1
        rw [hd, List.cons_prefix_cons] at hword
        exact not_mem_contraction h rule hmem (by simp [hd, hword.1])
      change rewrite rules (replaceFrom _ _ 0 [c]) = [c]
      rw [replaceFrom_cons hnot]
      exact ih fun later hl => hrules later (List.mem_cons_of_mem _ hl)
  exact hsame contractions fun _ h => h

/-- `normalize` on code points. -/
theorem normalize_codePoints (s : List Nat) : normalize ⟨s⟩ =
    ⟨(rewrite contractions (s.map asciiLower)).filter fun c => !isSpace c⟩ := by
  rw [normalize]
  simp only [expand, foldl_replace]

/-- Whitespace between words is lost. -/
theorem normalize_insert {u v : List Nat} {c : Nat} (hc : isSpace c = true)
    (h : BetweenWords u v) : normalize ⟨u ++ c :: v⟩ = normalize ⟨u ++ v⟩ := by
  have hleft : ∀ rule ∈ contractions,
      Apart rule.1.codePoints (u.map asciiLower) (c :: v.map asciiLower) :=
    fun rule hrule => apart_cons_of_not_mem (not_mem_contraction hc rule hrule)
  have hright : ∀ rule ∈ contractions, Apart rule.1.codePoints [c] (v.map asciiLower) :=
    fun rule hrule => apart_singleton_of_not_mem (not_mem_contraction hc rule hrule)
  have hsplit : rewrite contractions (c :: v.map asciiLower) =
      c :: rewrite contractions (v.map asciiLower) := by
    have happend := rewrite_append (fun _ h => h) hright
    rw [rewrite_space hc] at happend
    exact happend
  rw [normalize_codePoints, normalize_codePoints, List.map_append, List.map_append, List.map_cons,
    asciiLower_of_isSpace hc, rewrite_append (fun _ h => h) hleft, hsplit,
    rewrite_append (fun _ h => h) h]
  simp [hc]

/-- What is respaced is normalized alike. -/
theorem Respaced.normalize {s t : PyStr} (h : Respaced s t) : normalize t = normalize s := by
  induction h with
  | refl => rfl
  | insert _ hc hbetween ih => rw [normalize_insert hc hbetween, ih]
  | delete _ hc hbetween ih => rw [← normalize_insert hc hbetween, ih]

/-! ## 4. The verdict -/

theorem RespacedValue.strOf {v v' : Value} (h : RespacedValue v v') :
    (strOf v').map normalize = (strOf v).map normalize := by
  cases h with
  | same => rfl
  | str hs => exact congrArg some hs.normalize

theorem RespacedValue.bodyText {v v' : Value} (h : RespacedValue v v') :
    (bodyText v').map normalize = (bodyText v).map normalize := by
  cases h with
  | same => rfl
  | str hs => exact congrArg some hs.normalize

theorem RespacedList.inlineTexts {v v' : Value} (h : RespacedList v v') :
    (inlineTexts v').map (List.map Review.normalize) =
      (inlineTexts v).map (List.map Review.normalize) := by
  cases h with
  | same => rfl
  | list hitems =>
    rw [Review.inlineTexts, Review.inlineTexts]
    induction hitems with
    | nil => rfl
    | @cons item item' items items' hitem _ ih =>
      have htext := hitem.strOf
      rw [List.mapM_cons, List.mapM_cons]
      cases ht : Review.strOf item <;> cases ht' : Review.strOf item' <;>
        simp only [ht, ht', Option.map_some, Option.map_none, reduceCtorEq, Option.some.injEq]
          at htext
      · rfl
      · cases hrest : items.mapM Review.strOf <;> cases hrest' : items'.mapM Review.strOf <;>
          simp only [hrest, hrest', Option.map_some, Option.map_none, reduceCtorEq,
            Option.some.injEq] at ih
        · rfl
        · simp [htext, ih]

/-- The verdict reads the normalized texts only. -/
theorem requireUsable_congr {body body' inline inline' : Value}
    (hbody : (bodyText body').map normalize = (bodyText body).map normalize)
    (hinline : (inlineTexts inline').map (List.map normalize) =
      (inlineTexts inline).map (List.map normalize)) :
    requireUsableReviewContent body' inline' = requireUsableReviewContent body inline := by
  rw [requireUsableReviewContent, requireUsableReviewContent]
  cases hb : bodyText body <;> cases hb' : bodyText body' <;>
    simp only [hb, hb', Option.map_some, Option.map_none, reduceCtorEq, Option.some.injEq] at hbody
  · rfl
  · cases hi : inlineTexts inline <;> cases hi' : inlineTexts inline' <;>
      simp only [hi, hi', Option.map_some, Option.map_none, reduceCtorEq, Option.some.injEq]
        at hinline
    · rfl
    · simp only [hbody, hinline]

/-- **Whitespace between words does not matter.**  However whitespace is inserted into a review body and
its inline bodies and deleted from them, unless inside a contraction, the verdict is the same. -/
theorem requireUsableReviewContent_respaced (body body' inline inline' : Value)
    (hbody : RespacedValue body body') (hinline : RespacedList inline inline') :
    requireUsableReviewContent body' inline' = .ok () ↔
      requireUsableReviewContent body inline = .ok () := by
  rw [requireUsable_congr hbody.bodyText hinline.inlineTexts]

/-- Spaces beside the words of a text. -/
theorem requireUsableReviewContent_respaced_spaces :
    requireUsableReviewContent (.str "all  ok") (.list []) = .ok () ↔
      requireUsableReviewContent (.str "all ok") (.list []) = .ok () := by
  refine requireUsableReviewContent_respaced _ _ _ _ (.str ?_) (.same _)
  exact .insert (u := [97, 108, 108, 32]) (v := [111, 107]) (.refl _) (c := 32) rfl (by decide)

/-- One space inside a contraction hides it. -/
theorem contraction_with_space :
    requireUsableReviewContent (.str (("can" : PyStr) ++ "'t review any files")) (.list []) =
      .error ⟨"review-content-failed"⟩ ∧
    requireUsableReviewContent (.str (("can" : PyStr) ++ " " ++ "'t review any files")) (.list []) =
      .ok () := by
  constructor <;> rfl

end Supplementary.Review
