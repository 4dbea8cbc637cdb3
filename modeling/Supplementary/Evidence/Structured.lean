/-
# Secrets in JSON evidence

`redact_json` and `_structured_secret_findings` walk a JSON value side by side.  Both look at the
entries with a secret name, and in an object that names a secret at the entries that hold its value.
The scanner is the weaker of the two: under a secret name it looks at strings alone, and through lists
alone (`findings_eq_false`); what the redactor has rewritten it never reports
(`findings_redactJson`).
-/
import Supplementary.Evidence.Redaction
import Supplementary.Python.Lower
import Supplementary.Python.Value

namespace Supplementary.Evidence

open PyStr

/-! ## 1. Parts of a value -/

/-- `part` is the value, or is inside it. -/
inductive Within (part : Value) : Value → Prop
  | here : Within part part
  | item {items : List Value} {item : Value} (hitem : item ∈ items) (h : Within part item) :
      Within part (.list items)
  | entry {entries : List (PyStr × Value)} {entry : PyStr × Value} (hentry : entry ∈ entries)
      (h : Within part entry.2) : Within part (.dict entries)

/-- `part` is the value, or an item of it, or of an item that is a list. -/
inductive WithinLists (part : Value) : Value → Prop
  | here : WithinLists part part
  | item {items : List Value} {item : Value} (hitem : item ∈ items) (h : WithinLists part item) :
      WithinLists part (.list items)

/-- A value is proved by its items and entries. -/
theorem byParts {motive : Value → Prop}
    (scalar : ∀ v : Value, (∀ items, v ≠ .list items) → (∀ entries, v ≠ .dict entries) → motive v)
    (list : ∀ items : List Value, (∀ item ∈ items, motive item) → motive (.list items))
    (dict : ∀ entries : List (PyStr × Value), (∀ entry ∈ entries, motive entry.2) →
      motive (.dict entries)) (v : Value) : motive v := by
  refine @Value.rec motive (fun items => ∀ item ∈ items, motive item)
    (fun entries => ∀ entry ∈ entries, motive entry.2) (fun entry => motive entry.2)
    (scalar _ ?_ ?_) (fun _ => scalar _ ?_ ?_) (fun _ => scalar _ ?_ ?_)
    (fun _ => scalar _ ?_ ?_) (fun _ => scalar _ ?_ ?_) list dict (scalar _ ?_ ?_)
    (by simp) (fun _ _ hitem hrest => List.forall_mem_cons.mpr ⟨hitem, hrest⟩)
    (by simp) (fun _ _ hentry hrest => List.forall_mem_cons.mpr ⟨hentry, hrest⟩)
    (fun _ _ h => h) v
  all_goals simp

/-! ## 2. What is looked at -/

variable (L : Lowering) (isWord : Nat → Bool)

/-- `str(key).lower() in names`. -/
def isNamed (names : List PyStr) (key : PyStr) : Bool :=
  names.any fun name => L.lower key = name.codePoints

/-- `_structured_secret_label`. -/
def structuredSecretLabel : Value → Bool
  | .str s => isSecretKey s
  | _ => false

/-- The entries that may name what an object is about. -/
def labelNames : List PyStr := ["name", "key", "header", "parameter", "field"]

/-- The entries that may hold it. -/
def valueNames : List PyStr := ["value", "values", "content", "text", "default"]

/-- `label is not None`. -/
def hasSecretLabel (entries : List (PyStr × Value)) : Bool :=
  entries.any fun entry => isNamed L labelNames entry.1 && structuredSecretLabel entry.2

mutual

/-- `_contains_unredacted_value`. -/
def containsUnredactedValue : Value → Bool
  | .dict _ => false
  | .list items => containsUnredactedItem items
  | .str s => s ≠ "" && s ≠ placeholder
  | _ => false

def containsUnredactedItem : List Value → Bool
  | [] => false
  | item :: rest => containsUnredactedValue item || containsUnredactedItem rest

end

mutual

/-- `_contains_structured_secret_value`. -/
def containsStructuredSecretValue : Value → Bool
  | .dict entries => containsSecretEntry entries
  | .list items => containsSecretItem items
  | .none => false
  | .str s => s ≠ "" && s ≠ placeholder
  | _ => true

def containsSecretItem : List Value → Bool
  | [] => false
  | item :: rest => containsStructuredSecretValue item || containsSecretItem rest

def containsSecretEntry : List (PyStr × Value) → Bool
  | [] => false
  | entry :: rest => containsStructuredSecretValue entry.2 || containsSecretEntry rest

end

mutual

/-- `redact_json`. -/
def redactJson : Value → Value
  | .dict entries => .dict (redactEntries (hasSecretLabel L entries) entries)
  | .list items => .list (redactItems items)
  | .str s => .str (redactText isWord s)
  | value => value

def redactItems : List Value → List Value
  | [] => []
  | item :: rest => redactJson item :: redactItems rest

/-- The entries of an object, which names a secret or does not. -/
def redactEntries (labelled : Bool) : List (PyStr × Value) → List (PyStr × Value)
  | [] => []
  | entry :: rest =>
    (entry.1, if labelled && isNamed L valueNames entry.1 then .str placeholder
      else if isSecretKey entry.1 then .str placeholder else redactJson entry.2) ::
      redactEntries labelled rest

end

mutual

/-- `_structured_secret_findings`. -/
def structuredSecretFindings : Value → Bool
  | .dict entries =>
    (entries.any fun entry => isSecretKey entry.1 && containsUnredactedValue entry.2) ||
      (hasSecretLabel L entries && entries.any fun entry =>
        isNamed L valueNames entry.1 && containsStructuredSecretValue entry.2) ||
      findingsInEntries entries
  | .list items => findingsInItems items
  | _ => false

def findingsInItems : List Value → Bool
  | [] => false
  | item :: rest => structuredSecretFindings item || findingsInItems rest

def findingsInEntries : List (PyStr × Value) → Bool
  | [] => false
  | entry :: rest => structuredSecretFindings entry.2 || findingsInEntries rest

end

/-! ## 3. The walks as statements -/

section Lists

variable {L : Lowering} {isWord : Nat → Bool}

theorem containsUnredactedItem_eq_false {items : List Value} :
    containsUnredactedItem items = false ↔ ∀ item ∈ items, containsUnredactedValue item = false := by
  induction items with
  | nil => simp [containsUnredactedItem]
  | cons item rest ih => simp [containsUnredactedItem, ih]

theorem containsSecretItem_eq_false {items : List Value} : containsSecretItem items = false ↔
    ∀ item ∈ items, containsStructuredSecretValue item = false := by
  induction items with
  | nil => simp [containsSecretItem]
  | cons item rest ih => simp [containsSecretItem, ih]

theorem containsSecretEntry_eq_false {entries : List (PyStr × Value)} :
    containsSecretEntry entries = false ↔
      ∀ entry ∈ entries, containsStructuredSecretValue entry.2 = false := by
  induction entries with
  | nil => simp [containsSecretEntry]
  | cons entry rest ih => rw [containsSecretEntry, Bool.or_eq_false_iff, ih, List.forall_mem_cons]

theorem findingsInItems_eq_false {items : List Value} : findingsInItems L items = false ↔
    ∀ item ∈ items, structuredSecretFindings L item = false := by
  induction items with
  | nil => simp [findingsInItems]
  | cons item rest ih => simp [findingsInItems, ih]

theorem findingsInEntries_eq_false {entries : List (PyStr × Value)} :
    findingsInEntries L entries = false ↔
      ∀ entry ∈ entries, structuredSecretFindings L entry.2 = false := by
  induction entries with
  | nil => simp [findingsInEntries]
  | cons entry rest ih => rw [findingsInEntries, Bool.or_eq_false_iff, ih, List.forall_mem_cons]

theorem redactItems_eq {items : List Value} :
    redactItems L isWord items = items.map (redactJson L isWord) := by
  induction items with
  | nil => rfl
  | cons item rest ih => rw [redactItems, ih, List.map_cons]

/-- What an entry becomes. -/
def redactEntry (L : Lowering) (isWord : Nat → Bool) (labelled : Bool) (entry : PyStr × Value) :
    PyStr × Value :=
  (entry.1, if labelled && isNamed L valueNames entry.1 then .str placeholder
    else if isSecretKey entry.1 then .str placeholder else redactJson L isWord entry.2)

theorem redactEntries_eq {labelled : Bool} {entries : List (PyStr × Value)} :
    redactEntries L isWord labelled entries = entries.map (redactEntry L isWord labelled) := by
  induction entries with
  | nil => rfl
  | cons entry rest ih => rw [redactEntries, ih, List.map_cons, redactEntry]

end Lists

/-- A value that holds no secret: the placeholder, the empty text or none. -/
def IsBlank (v : Value) : Prop := v = .none ∨ v = .str "" ∨ v = .str placeholder

/-- Nothing in the value but objects and lists is left. -/
def RedactedThroughout (v : Value) : Prop :=
  ∀ part, Within part v → (∀ items, part ≠ .list items) → (∀ entries, part ≠ .dict entries) →
    IsBlank part

/-- No text in the value is left that is reached through lists alone. -/
def TextsRedacted (v : Value) : Prop :=
  ∀ s, WithinLists (.str s) v → s = "" ∨ s = placeholder

theorem containsUnredactedValue_eq_false {v : Value} :
    containsUnredactedValue v = false ↔ TextsRedacted v := by
  induction v using byParts with
  | scalar v hlist hdict =>
    have honly (s : PyStr) : WithinLists (.str s) v ↔ v = .str s := by
      constructor
      · intro h
        cases h with
        | here => rfl
        | item => exact absurd rfl (hlist _)
      · rintro rfl
        exact .here
    simp only [TextsRedacted, honly]
    cases v with
    | str s =>
      simp only [containsUnredactedValue, Value.str.injEq, forall_eq', Bool.and_eq_false_iff,
        decide_eq_false_iff_not, not_not]
    | list items => exact absurd rfl (hlist _)
    | dict entries => exact absurd rfl (hdict _)
    | _ => simp [containsUnredactedValue]
  | list items ih =>
    rw [containsUnredactedValue, containsUnredactedItem_eq_false]
    constructor
    · intro hitems s h
      cases h with
      | item hitem hwithin => exact (ih _ hitem).mp (hitems _ hitem) s hwithin
    · intro htexts item hitem
      exact (ih item hitem).mpr fun s hwithin => htexts s (.item hitem hwithin)
  | dict entries ih =>
    simp only [containsUnredactedValue, true_iff]
    intro s h
    cases h

theorem containsStructuredSecretValue_eq_false {v : Value} :
    containsStructuredSecretValue v = false ↔ RedactedThroughout v := by
  induction v using byParts with
  | scalar v hlist hdict =>
    have hblank : containsStructuredSecretValue v = false ↔ IsBlank v := by
      cases v with
      | str s =>
        simp only [containsStructuredSecretValue, IsBlank, Value.str.injEq, Bool.and_eq_false_iff,
          decide_eq_false_iff_not, not_not, reduceCtorEq, false_or]
      | list items => exact absurd rfl (hlist _)
      | dict entries => exact absurd rfl (hdict _)
      | _ => simp [containsStructuredSecretValue, IsBlank]
    rw [hblank]
    constructor
    · intro h part hwithin _ _
      cases hwithin with
      | here => exact h
      | item => exact absurd rfl (hlist _)
      | entry => exact absurd rfl (hdict _)
    · intro h
      exact h v .here hlist hdict
  | list items ih =>
    rw [containsStructuredSecretValue, containsSecretItem_eq_false]
    constructor
    · intro hitems part hwithin hlist hdict
      cases hwithin with
      | here => exact absurd rfl (hlist _)
      | item hitem h => exact (ih _ hitem).mp (hitems _ hitem) part h hlist hdict
    · intro hparts item hitem
      exact (ih item hitem).mpr fun part h => hparts part (.item hitem h)
  | dict entries ih =>
    rw [containsStructuredSecretValue, containsSecretEntry_eq_false]
    constructor
    · intro hentries part hwithin hlist hdict
      cases hwithin with
      | here => exact absurd rfl (hdict _)
      | entry hentry h => exact (ih _ hentry).mp (hentries _ hentry) part h hlist hdict
    · intro hparts entry hentry
      exact (ih entry hentry).mpr fun part h => hparts part (.entry hentry h)

/-! ## 4. The scanner and the redactor -/

/-- What the scanner asks of an object: under a secret name no text that is reached through lists
alone, and in an object that names a secret nothing at all in the entries that hold its value. -/
def IsCleanObject (L : Lowering) (entries : List (PyStr × Value)) : Prop :=
  (∀ entry ∈ entries, isSecretKey entry.1 = true → TextsRedacted entry.2) ∧
    (hasSecretLabel L entries = true → ∀ entry ∈ entries, isNamed L valueNames entry.1 = true →
      RedactedThroughout entry.2)

section Walks

variable {L : Lowering} {isWord : Nat → Bool}

theorem isCleanObject_iff {entries : List (PyStr × Value)} : IsCleanObject L entries ↔
    (entries.any fun entry => isSecretKey entry.1 && containsUnredactedValue entry.2) = false ∧
      (hasSecretLabel L entries && entries.any fun entry =>
        isNamed L valueNames entry.1 && containsStructuredSecretValue entry.2) = false := by
  simp only [IsCleanObject, ← containsUnredactedValue_eq_false,
    ← containsStructuredSecretValue_eq_false, List.any_eq_false, Bool.and_eq_true, not_and,
    Bool.not_eq_true, Bool.and_eq_false_imp]

/-- The scanner finds nothing exactly in a value whose objects are all clean. -/
theorem findings_eq_false {v : Value} : structuredSecretFindings L v = false ↔
    ∀ entries, Within (.dict entries) v → IsCleanObject L entries := by
  induction v using byParts with
  | scalar v hlist hdict =>
    have hfound : structuredSecretFindings L v = false := by
      cases v with
      | list items => exact absurd rfl (hlist _)
      | dict entries => exact absurd rfl (hdict _)
      | _ => simp [structuredSecretFindings]
    refine iff_of_true hfound fun entries hwithin => ?_
    cases hwithin with
    | here => exact absurd rfl (hdict _)
    | item => exact absurd rfl (hlist _)
    | entry => exact absurd rfl (hdict _)
  | list items ih =>
    rw [structuredSecretFindings, findingsInItems_eq_false]
    constructor
    · intro hitems entries hwithin
      cases hwithin with
      | item hitem h => exact (ih _ hitem).mp (hitems _ hitem) entries h
    · intro hobjects item hitem
      exact (ih item hitem).mpr fun entries h => hobjects entries (.item hitem h)
  | dict entries ih =>
    rw [structuredSecretFindings, Bool.or_eq_false_iff, Bool.or_eq_false_iff,
      findingsInEntries_eq_false, ← isCleanObject_iff]
    constructor
    · rintro ⟨hobject, hentries⟩ inner hwithin
      cases hwithin with
      | here => exact hobject
      | entry hentry h => exact (ih _ hentry).mp (hentries _ hentry) inner h
    · intro hobjects
      exact ⟨hobjects entries .here, fun entry hentry =>
        (ih entry hentry).mpr fun inner h => hobjects inner (.entry hentry h)⟩

/-- A secret label in what an object became was one before. -/
theorem hasSecretLabel_of_redacted {labelled : Bool} {entries : List (PyStr × Value)}
    (h : hasSecretLabel L (entries.map (redactEntry L isWord labelled)) = true) :
    hasSecretLabel L entries = true := by
  simp only [hasSecretLabel, List.any_map, List.any_eq_true, Function.comp_apply,
    Bool.and_eq_true] at h ⊢
  obtain ⟨entry, hentry, hnamed, hlabel⟩ := h
  refine ⟨entry, hentry, hnamed, ?_⟩
  have hplaceholder : structuredSecretLabel (.str placeholder) = false := by decide
  rw [redactEntry] at hlabel
  simp only at hlabel
  split_ifs at hlabel with hvalue hsecret
  · rw [hplaceholder] at hlabel
    cases hlabel
  · rw [hplaceholder] at hlabel
    cases hlabel
  · cases hitem : entry.2 with
    | str s =>
      rw [hitem, redactJson, structuredSecretLabel] at hlabel
      exact label_of_redacted hlabel
    | _ => simp [hitem, redactJson, structuredSecretLabel] at hlabel

/-- What the redactor has rewritten is clean. -/
theorem isCleanObject_of_redacted {entries : List (PyStr × Value)} :
    IsCleanObject L (redactEntries L isWord (hasSecretLabel L entries) entries) := by
  rw [redactEntries_eq]
  constructor
  · intro entry hentry hsecret
    obtain ⟨before, _, rfl⟩ := List.mem_map.mp hentry
    have hitem : (redactEntry L isWord (hasSecretLabel L entries) before).2 = .str placeholder := by
      rw [redactEntry] at hsecret ⊢
      simp only at hsecret ⊢
      rw [if_pos hsecret, ite_self]
    rw [hitem]
    exact containsUnredactedValue_eq_false.mp (by decide)
  · intro hlabel entry hentry hvalue
    obtain ⟨before, _, rfl⟩ := List.mem_map.mp hentry
    have hlabelled := hasSecretLabel_of_redacted hlabel
    have hitem : (redactEntry L isWord (hasSecretLabel L entries) before).2 = .str placeholder := by
      rw [redactEntry] at hvalue ⊢
      simp only at hvalue ⊢
      rw [hlabelled, hvalue]
      rfl
    rw [hitem]
    exact containsStructuredSecretValue_eq_false.mp (by decide)

theorem findings_redactJson (v : Value) :
    structuredSecretFindings L (redactJson L isWord v) = false := by
  induction v using byParts with
  | scalar v hlist hdict =>
    cases v with
    | list items => exact absurd rfl (hlist _)
    | dict entries => exact absurd rfl (hdict _)
    | _ => simp [redactJson, structuredSecretFindings]
  | list items ih =>
    rw [redactJson, structuredSecretFindings, findingsInItems_eq_false, redactItems_eq]
    intro item hitem
    obtain ⟨before, hbefore, rfl⟩ := List.mem_map.mp hitem
    exact ih before hbefore
  | dict entries ih =>
    have hclean := @isCleanObject_of_redacted L isWord entries
    rw [isCleanObject_iff] at hclean
    rw [redactJson, structuredSecretFindings, hclean.1, hclean.2, Bool.false_or, Bool.false_or,
      findingsInEntries_eq_false, redactEntries_eq]
    intro entry hentry
    obtain ⟨before, hbefore, rfl⟩ := List.mem_map.mp hentry
    rw [redactEntry]
    simp only
    split_ifs
    · rfl
    · rfl
    · exact ih before hbefore

end Walks

/-- **The scanner beside the redactor.** It finds nothing exactly where every object is clean, and
never anything in what the redactor has rewritten. -/
theorem scanner_and_redactor :
    (∀ v, structuredSecretFindings L v = false ↔
      ∀ entries, Within (.dict entries) v → IsCleanObject L entries) ∧
    ∀ v, structuredSecretFindings L (redactJson L isWord v) = false :=
  ⟨fun _ => findings_eq_false, findings_redactJson⟩

/-- A password inside an object under a secret name. -/
def nestedPassword : Value := .dict [("a", .str "hunter2")]

/-- Under a secret name the scanner takes an object for no value. -/
theorem nested_password_not_found :
    structuredSecretFindings asciiLowering (.dict [("password", nestedPassword)]) = false ∧
      isSecretKey "password" = true ∧ ¬ RedactedThroughout nestedPassword := by
  refine ⟨by decide, by decide, ?_⟩
  rw [← containsStructuredSecretValue_eq_false]
  decide

end Supplementary.Evidence
