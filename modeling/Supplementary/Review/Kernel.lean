/-
# The checks of the bounded-review kernel

`scripts/bounded_review.py` validates everything it is handed before it partitions or admits
anything: exact JSON types (`bool` is not `int`), UTF-8 text without NUL, the frozen policy of
which only the budgets may be tightened, the revision binding, and paths.

`validate_policy` returns nothing; later code reads the budgets back out of the same dict.  The
model returns what it validated as a `Policy`, whose budgets carry their bounds, so that no
later step re-proves them.
-/
import Supplementary.Python.Value

namespace Supplementary.Review

open Supplementary

/-! ## 1. Guards -/

/-- `require(condition, code)`. -/
def require (condition : Prop) [Decidable condition] (code : String) : Py Unit :=
  raiseUnless (.reviewError code) condition

@[simp] theorem require_eq_ok {condition : Prop} [Decidable condition] {code : String} {u : Unit} :
    require condition code = .ok u ↔ condition := raiseUnless_eq_ok

theorem require_of {condition : Prop} [Decidable condition] {code : String} (h : condition) :
    require condition code = .ok () := raiseUnless_of h

/-- `require` raises its own code. -/
theorem require_of_not {condition : Prop} [Decidable condition] {code : String} (h : ¬ condition) :
    require condition code = .error (.reviewError code) := raiseUnless_of_not h

theorem raises_require {P : PyError → Prop} {condition : Prop} [Decidable condition]
    {code : String} (h : P (.reviewError code)) : Raises P (require condition code) :=
  raises_raiseUnless h

theorem raises_require_of {P : PyError → Prop} {condition : Prop} [Decidable condition]
    {code : String} (h : condition) : Raises P (require condition code) :=
  (require_of h : require condition code = .ok ()) ▸ raises_ok _

/-- `keys(value, expected, code)`. -/
def keys (value : Value) (expected : List PyStr) (code : String) : Py Unit :=
  require (value.isDict = true ∧ value.keySet ⊆ expected ∧ expected ⊆ value.keySet) code

/-- `integer(value, low, high, code)`: an `int` that is not a `bool`, with its bounds. -/
def integer (value : Value) (low high : Int) (code : String) : Py {n : Int // low ≤ n ∧ n ≤ high} :=
  match value with
  | .int n => if h : low ≤ n ∧ n ≤ high then .ok ⟨n, h⟩ else .error (.reviewError code)
  | _ => .error (.reviewError code)

theorem integer_eq_ok {value : Value} {low high : Int} {code : String}
    {n : {n : Int // low ≤ n ∧ n ≤ high}} (h : integer value low high code = .ok n) :
    value = .int n.1 := by
  unfold integer at h
  split at h
  · split at h
    · cases h; rfl
    · cases h
  · cases h

theorem integer_int {n low high : Int} {code : String} (h : low ≤ n ∧ n ≤ high) :
    integer (.int n) low high code = .ok ⟨n, h⟩ := by
  simp [integer, h]

/-- `integer` raises nothing but its own code. -/
theorem raises_integer {P : PyError → Prop} {value : Value} {low high : Int} {code : String}
    (h : P (.reviewError code)) : Raises P (integer value low high code) := by
  unfold integer
  split
  · split
    · exact raises_ok _
    · exact raises_error h
  · exact raises_error h

/-- After `keys` the expected keys are there. -/
theorem item_of_keys {value : Value} {expected : List PyStr} {code : String} {u : Unit}
    (h : keys value expected code = .ok u) {key : PyStr} (hkey : key ∈ expected) :
    ∃ v, value.item key = .ok v := by
  obtain ⟨hdict, -, hsub⟩ := require_eq_ok.mp h
  cases value with
  | dict entries =>
    obtain ⟨v, hv⟩ : ∃ v, lookup entries key = some v :=
      Option.isSome_iff_exists.mp (lookup_isSome.mpr (hsub hkey))
    exact ⟨v, by simp [Value.item, Value.find?, hv]⟩
  | _ => cases hdict

/-- `text(payload)`. -/
def text (payload : Bytes) : Py Unit := do
  require (0 ∉ payload) "binary-input"
  require ((utf8Decode payload).isSome = true) "non-utf8-input"

theorem text_eq_ok {payload : Bytes} {u : Unit} (h : text payload = .ok u) :
    0 ∉ payload ∧ ValidUtf8 payload := by
  simp only [text, bind_eq_ok, require_eq_ok] at h
  obtain ⟨_, hnul, hutf⟩ := h
  obtain ⟨points, hp⟩ := Option.isSome_iff_exists.mp hutf
  exact ⟨hnul, validUtf8_of_decode hp⟩

/-! ## 2. Limits -/

/-- `MAX_UNIT_BYTES`. -/
def maxUnitBytes : Nat := 199999

/-- `MAX_UNITS`. -/
def maxUnits : Nat := 64

/-- `MAX_TOTAL_BYTES`. -/
def maxTotalBytes : Nat := maxUnits * maxUnitBytes

/-- `validate_unit(payload)`. -/
def validateUnit (payload : Bytes) : Py Unit := do
  text payload
  require (1 ≤ payload.length ∧ payload.length ≤ maxUnitBytes) "unit-byte-boundary"

theorem validateUnit_eq_ok {payload : Bytes} {u : Unit} (h : validateUnit payload = .ok u) :
    ValidUtf8 payload ∧ 1 ≤ payload.length ∧ payload.length ≤ maxUnitBytes := by
  simp only [validateUnit, bind_eq_ok, require_eq_ok] at h
  obtain ⟨_, ht, hlen⟩ := h
  exact ⟨(text_eq_ok ht).2, hlen⟩

/-- `VERSION`. -/
def version : PyStr := "bounded-review/v1"

/-- `FORMAT`. -/
def format : PyStr := "git-diff-binary-full-index-no-renames-v1"

/-- `SCHEMA`. -/
def schema : Value := .dict [
  ("version", .str version),
  ("manifest", .list [.str "version", .str "binding", .str "assets", .str "policy",
    .str "total_bytes", .str "diff_sha256", .str "files", .str "units"]),
  ("review", .list [.str "manifest_sha256", .str "subject", .str "payload_sha256", .str "verdict",
    .str "findings", .str "semantic_coverage"]),
  ("aggregate", .list [.str "manifest_sha256", .str "diff_sha256", .str "unit_count",
    .str "coverage"])]

/-- `policy()`. -/
def policy (rt : Runtime) : Value := .dict [
  ("version", .str "compatibility-199999/v1"),
  ("unit_limit", .int maxUnitBytes),
  ("max_units", .int maxUnits),
  ("max_total_bytes", .int maxTotalBytes),
  ("max_review_seconds", .int 7200),
  ("per_review_seconds", .int 100),
  ("max_cost_microusd", .int 66000000),
  ("per_review_cost_microusd", .int 1000000),
  ("max_wip", .int 1),
  ("limit_basis", .str "frozen-compatibility-no-new-limit-acceptance"),
  ("benchmark", .dict [("version", .str "not-accepted"),
    ("sha256", .str (rt.sha256 (bytes "no provider capacity benchmark claimed")))]),
  ("safety_reserve", .str "not-measured-production-activation-blocked"),
  ("scope", .str "generic-text-coverage-only"),
  ("semantic_groups", .list [])]

/-- The names of `validate_policy`'s `budgets`: only these may be tightened. -/
def budgets : List PyStr := ["max_units", "max_total_bytes", "max_review_seconds",
  "per_review_seconds", "max_cost_microusd", "per_review_cost_microusd", "max_wip"]

/-! ## 3. Paths -/

/-- `validate_path(name)`: an already decoded path. -/
def validatePath (name : PyStr) : Py Unit := do
  match name.utf8Encode with
  | none => .error (.reviewError "non-utf8-path")
  | some raw =>
    require (0 < raw.length ∧ raw.length ≤ 32768) "path-length"
    text raw
    require (name.startsWith "/" = false ∧
      ∀ part ∈ name.split '/', part ∉ ([("" : String), ".", "..", ".git"] : List PyStr)) "unsafe-path"

/-! ## 4. The policy -/

/-- A budget: a positive integer no larger than the frozen one. -/
abbrev Budget (high : Int) := {n : Int // 1 ≤ n ∧ n ≤ high}

/-- A policy that `validate_policy` accepted: the dict itself, which the manifest embeds, and
the entries later code reads out of it. -/
structure Policy where
  value : Value
  maxUnits : Budget Review.maxUnits
  maxTotalBytes : Budget Review.maxTotalBytes
  maxReviewSeconds : Budget 7200
  perReviewSeconds : Budget 100
  maxCostMicrousd : Budget 66000000
  perReviewCostMicrousd : Budget 1000000
  maxWip : Budget 1
  semanticGroups : List (List PyStr)

/-- The paths of one semantic group; `seen` holds those of the groups before it and of the
paths before this one. -/
def groupPaths (seen : List PyStr) : List Value → Py (List PyStr)
  | [] => .ok []
  | .str path :: rest => do
    require (path ∉ seen) "semantic-group-path"
    validatePath path
    let paths ← groupPaths (path :: seen) rest
    .ok (path :: paths)
  | _ :: _ => .error (.reviewError "semantic-group-path")

def validateGroups (seen : List PyStr) : List Value → Py (List (List PyStr))
  | [] => .ok []
  | .list group :: rest => do
    require (1 ≤ group.length ∧ group.length ≤ 128) "semantic-group"
    let paths ← groupPaths seen group
    let groups ← validateGroups (paths ++ seen) rest
    .ok (paths :: groups)
  | _ :: _ => .error (.reviewError "semantic-group")

/-- `groups = value["semantic_groups"]` and the checks on it. -/
def semanticGroups : Value → Py (List (List PyStr))
  | .list groups => do
    require (groups.length ≤ maxUnits) "semantic-groups"
    validateGroups [] groups
  | _ => .error (.reviewError "semantic-groups")

/-- `canonical(value[name]) == canonical(expected[name])`. -/
def sameEntry (rt : Runtime) (value expected : Value) (name : PyStr) : Py Unit := do
  let given ← canonical rt (← value.item name)
  let frozen ← canonical rt (← expected.item name)
  require (given = frozen) "unsupported-limit-policy"

/-- `integer(value[name], 1, expected[name], "invalid-budget")`. -/
def budget (value : Value) (name : PyStr) (high : Int) : Py (Budget high) := do
  integer (← value.item name) 1 high "invalid-budget"

/-- `validate_policy(value)`. -/
def validatePolicy (rt : Runtime) (value : Value) : Py Policy := do
  let expected := policy rt
  keys value expected.keySet "policy-shape"
  (expected.keySet.filter fun name => name ∉ budgets ∧ name ≠ "semantic_groups").forM
    (sameEntry rt value expected)
  let maxUnits ← budget value "max_units" maxUnits
  let maxTotalBytes ← budget value "max_total_bytes" maxTotalBytes
  let maxReviewSeconds ← budget value "max_review_seconds" 7200
  let perReviewSeconds ← budget value "per_review_seconds" 100
  let maxCostMicrousd ← budget value "max_cost_microusd" 66000000
  let perReviewCostMicrousd ← budget value "per_review_cost_microusd" 1000000
  let maxWip ← budget value "max_wip" 1
  let semanticGroups ← semanticGroups (← value.item "semantic_groups")
  .ok { value, maxUnits, maxTotalBytes, maxReviewSeconds, perReviewSeconds, maxCostMicrousd,
        perReviewCostMicrousd, maxWip, semanticGroups }

/-- The dict an accepted policy carries is the one that was validated. -/
theorem validatePolicy_value {rt : Runtime} {value : Value} {p : Policy}
    (h : validatePolicy rt value = .ok p) : p.value = value := by
  simp only [validatePolicy, bind_eq_ok] at h
  obtain ⟨_, _, _, _, _, _, _, _, _, _, _, _, _, _, _, _, _, _, _, _, _, _, h⟩ := h
  cases h
  rfl

/-! ## 5. Binding and assets -/

def isRepositoryChar (c : Nat) : Bool :=
  (65 ≤ c && c ≤ 90) || (97 ≤ c && c ≤ 122) || (48 ≤ c && c ≤ 57) || c = 95 || c = 46 || c = 45

/-- `re.fullmatch(r"[A-Za-z0-9_.-]+/[A-Za-z0-9_.-]+", text)`. -/
def isRepository (s : PyStr) : Bool :=
  match s.split '/' with
  | [owner, name] => owner.codePoints ≠ [] && name.codePoints ≠ [] &&
      owner.codePoints.all isRepositoryChar && name.codePoints.all isRepositoryChar
  | _ => false

/-- `OID.fullmatch(text)`: forty lower-case hexadecimal digits. -/
def isOid (s : PyStr) : Bool :=
  s.length = 40 && s.codePoints.all fun c => (48 ≤ c && c ≤ 57) || (97 ≤ c && c ≤ 102)

/-- `type(value) is str and ...` for a predicate on strings. -/
def isStrWith (p : PyStr → Bool) : Value → Bool
  | .str s => p s
  | _ => false

/-- `validate_binding(value)`. -/
def validateBinding (value : Value) : Py Unit := do
  keys value ["repository", "base", "head", "merge_base", "integration_tree", "format", "scope"]
    "binding-shape"
  require (isStrWith isRepository (← value.item "repository") = true) "repository"
  (["base", "head", "merge_base", "integration_tree"] : List PyStr).forM fun name => do
    require (isStrWith isOid (← value.item name) = true) "revision"
  require ((← value.item "format").isText format = true ∧
    (← value.item "scope").isText "generic" = true) "unsupported-scope"

/-- What `assets` returns. -/
structure Assets where
  promptVersion : PyStr
  promptSha256 : PyStr
  promptBytes : Nat
  schemaSha256 : PyStr
  partitionerSha256 : PyStr

def Assets.toValue (a : Assets) : Value := .dict [
  ("prompt", .dict [("version", .str a.promptVersion), ("sha256", .str a.promptSha256),
    ("bytes", .int a.promptBytes)]),
  ("schema", .dict [("version", .str version), ("sha256", .str a.schemaSha256)]),
  ("partitioner", .dict [("version", .str version), ("sha256", .str a.partitionerSha256)])]

/-- `assets(prompt, prompt_version)`. -/
def assets (rt : Runtime) (prompt : Bytes) (promptVersion : PyStr) : Py Assets := do
  text prompt
  require (0 < prompt.length ∧ prompt.length ≤ 1000000) "prompt-boundary"
  require (0 < promptVersion.length ∧ promptVersion.length ≤ 100) "prompt-version"
  let schemaText ← canonical rt schema
  .ok { promptVersion, promptSha256 := rt.sha256 prompt, promptBytes := prompt.length,
        schemaSha256 := rt.sha256 schemaText, partitionerSha256 := rt.sha256 rt.ownSource }

end Supplementary.Review
