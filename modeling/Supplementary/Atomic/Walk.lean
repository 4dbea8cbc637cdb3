/-
# Two walks to the trusted parent

`atomic_unlink._open_parent` and `atomic_path._open_bound_directory` both open a chain of
directories from `/` without following links, and compare what they open with the identities the
caller supplies.  They were written apart and treat the root differently: `_open_bound_directory`
checks a supplied identity of `/` on every path, `_open_parent` only where `/` is the parent itself.

`Enforced` is what both are for: the parent is reached through directories alone, and every
supplied identity on the way is the one that was opened.  `openParent_eq_ok_iff` and
`openBoundDirectory_eq_ok_iff` say what each walk establishes, and `enforceAlike_iff` that the two
agree exactly where no identity of `/` is lost.

A device or an inode may be given as digits of any script; `decimal` is the value of such a digit.
-/
import Supplementary.Python.Split
import Supplementary.Python.Value

namespace Supplementary.Atomic.Walk

/-! ## 1. Paths -/

/-- The slash between components. -/
def slash : Nat := 47

/-- `os.path.dirname(path)`. -/
def dirname (path : PyStr) : PyStr :=
  let head := (path.codePoints.reverse.dropWhile (· ≠ slash)).reverse
  if head.all (· = slash) then ⟨head⟩ else ⟨(head.reverse.dropWhile (· = slash)).reverse⟩

/-- `os.path.basename(path)`. -/
def basename (path : PyStr) : PyStr :=
  ⟨(path.codePoints.reverse.takeWhile (· ≠ slash)).reverse⟩

/-- The components `os.path.normpath` keeps of a path with that many initial slashes; `kept` are
those kept so far, backwards. -/
def keptFrom (initialSlashes : Nat) : (kept : List PyStr) → List PyStr → List PyStr
  | kept, [] => kept.reverse
  | kept, comp :: rest =>
    if comp = "" ∨ comp = "." then keptFrom initialSlashes kept rest
    else if comp ≠ ".." ∨ (initialSlashes = 0 ∧ kept = []) ∨ kept.head? = some ".." then
      keptFrom initialSlashes (comp :: kept) rest
    else keptFrom initialSlashes kept.tail rest

/-- POSIX keeps two initial slashes, and makes one of three or more. -/
def initialSlashes (path : PyStr) : Nat :=
  if ¬ path.startsWith "/" then 0
  else if path.startsWith "//" ∧ ¬ path.startsWith "///" then 2
  else 1

/-- `os.path.normpath(path)`. -/
def normpath (path : PyStr) : PyStr :=
  let comps := keptFrom (initialSlashes path) [] (path.segments "/")
  let normal : PyStr := ⟨List.replicate (initialSlashes path) slash⟩ ++ PyStr.join "/" comps
  if normal = "" then "." else normal

/-- The test both modules make of their target. -/
def isCanonical (path : PyStr) : Bool :=
  path.startsWith "/" && !path.startsWith "//" && normpath path = path && basename path ≠ "" &&
    path ≠ "/" && !path.codePoints.contains 0

/-! ## 2. The tree and the supplied identities -/

/-- What `os.open` with `O_RDONLY | O_DIRECTORY | O_NOFOLLOW` meets at a name.  `refused` is every
other obstacle: nothing there, a file of another kind, no permission, a name without an
encoding. -/
inductive Entry
  | directory (d : Nat)
  | symlink
  | refused
  deriving DecidableEq

/-- The directories of a file system, by number. -/
structure Tree where
  root : Entry
  entry : Nat → PyStr → Entry
  device : Nat → Nat
  inode : Nat → Nat

/-- `os.open(name, os.O_RDONLY | os.O_DIRECTORY | os.O_NOFOLLOW, dir_fd=...)`. -/
def Entry.openDirectory : Entry → Py Nat
  | .directory d => .ok d
  | _ => .error .osError

/-- `(opened.st_dev, opened.st_ino)` after `opened = os.fstat(...)`. -/
def Tree.opened (t : Tree) (d : Nat) : Nat × Nat := (t.device d, t.inode d)

/-- `_strict_integer(value, label)`; the two modules share its text. -/
def strictInteger (decimal : Nat → Option Nat) (value : Value) (label : String) : Py Nat :=
  match value with
  | .int n =>
    if n < 0 then .error (.valueError (label ++ " must be a non-negative integer"))
    else .ok n.toNat
  | .str s =>
    match s.codePoints.mapM decimal with
    | some (d :: digits) =>
      if 4300 < (d :: digits).length then
        .error (.valueError "Exceeds the limit for integer string conversion")
      else .ok ((d :: digits).foldl (fun n d => 10 * n + d) 0)
    | _ => .error (.valueError (label ++ " must be a non-negative integer"))
  | _ => .error (.valueError (label ++ " must be a non-negative integer"))

/-- `(_strict_integer(expected["device"], "device"), _strict_integer(expected["inode"], "inode"))`. -/
def identity (decimal : Nat → Option Nat) (expected : Value) : Py (Nat × Nat) := do
  let device ← expected.item "device"
  let device ← strictInteger decimal device "device"
  let inode ← expected.item "inode"
  let inode ← strictInteger decimal inode "inode"
  return (device, inode)

section Binders

variable (decimal : Nat → Option Nat) (t : Tree) (identities : List (PyStr × Value))

/-- `if path in identities:` with a check of what is supplied there. -/
def ifSupplied (path : PyStr) (check : Value → Py Unit) : Py Unit :=
  match lookup identities path with
  | some expected => check expected
  | none => .ok ()

/-! ## 3. `atomic_unlink._open_parent` -/

/-- The comparison `_open_parent` makes; what a malformed identity raises is not caught. -/
def compare (current : Nat) (expected : Value) : Py Unit := do
  let expected ← identity decimal expected
  raiseUnless .osError (t.opened current = expected)

/-- The loop of `_open_parent` over `parts`. -/
def openComponents : (current : Nat) → (currentPath : PyStr) → List PyStr → Py Nat
  | current, _, [] => .ok current
  | current, currentPath, component :: rest => do
    let next ← (t.entry current component).openDirectory
    ifSupplied identities (currentPath ++ ("/" ++ component)) (compare decimal t next)
    openComponents next (currentPath ++ ("/" ++ component)) rest

/-- `_open_parent(path, parent_identities)`. -/
def openParent (path : PyStr) : Py (Nat × PyStr) := do
  let parts := (⟨path.codePoints.drop 1⟩ : PyStr).segments "/"
  let name := parts.getLastD ""
  let current ← t.root.openDirectory
  let current ← openComponents decimal t identities current "" parts.dropLast
  raiseUnless .osError (lookup identities (dirname path)).isSome
  if dirname path = "/" then ifSupplied identities (dirname path) (compare decimal t current)
  return (current, name)

/-! ## 4. `atomic_path._open_bound_directory` -/

/-- `except (KeyError, TypeError, ValueError) as exc: raise OSError(...) from exc`. -/
def orMalformed {α : Type} (x : Py α) : Py α :=
  match x with
  | .error e =>
    if e = .keyError ∨ e = .typeError ∨ e.isValueError = true then .error .osError else .error e
  | .ok a => .ok a

/-- The comparison `_open_bound_directory` makes. -/
def compareBound (current : Nat) (expected : Value) : Py Unit := do
  raiseUnless .osError expected.isDict
  let expected ← orMalformed (identity decimal expected)
  raiseUnless .osError (t.opened current = expected)

/-- The loop of `_open_bound_directory` over `path[1:].split("/")`. -/
def openBound : (current : Nat) → (walked : PyStr) → List PyStr → Py Nat
  | current, _, [] => .ok current
  | current, walked, component :: rest =>
    if component = "" then openBound current walked rest
    else do
      let following ← (t.entry current component).openDirectory
      ifSupplied identities (walked ++ ("/" ++ component)) (compareBound decimal t following)
      openBound following (walked ++ ("/" ++ component)) rest

/-- What `_open_bound_directory` asks of the root before it walks. -/
def checkRoot (path : PyStr) (current : Nat) : Py Unit :=
  if path = "/" ∨ (lookup identities "/").isSome = true then do
    raiseUnless .osError (lookup identities "/").isSome
    ifSupplied identities "/" (compareBound decimal t current)
  else .ok ()

/-- `_open_bound_directory(path, identities)`. -/
def openBoundDirectory (path : PyStr) : Py Nat := do
  let current ← t.root.openDirectory
  checkRoot decimal t identities path current
  if path = "/" then return current
  let current ← openBound decimal t identities current ""
    ((⟨path.codePoints.drop 1⟩ : PyStr).segments "/")
  raiseUnless .osError (lookup identities path).isSome
  return current

/-! ## 5. The trust both walks are for -/

/-- The directory a chain of directory entries leads to; a link is no directory entry. -/
def Tree.descend (t : Tree) : (d : Nat) → List PyStr → Option Nat
  | d, [] => some d
  | d, component :: rest =>
    match t.entry d component with
    | .directory e => t.descend e rest
    | _ => none

/-- The directory at a chain of components below `/`. -/
def Tree.resolve (t : Tree) (parts : List PyStr) : Option Nat :=
  match t.root with
  | .directory d => t.descend d parts
  | _ => none

/-- The components of the parent of a path. -/
def parents (path : PyStr) : List PyStr :=
  ((⟨path.codePoints.drop 1⟩ : PyStr).segments "/").dropLast

/-- What the loops have spelled after those components. -/
def located (parts : List PyStr) : PyStr := ⟨parts.flatMap fun c => slash :: c.codePoints⟩

/-- The key an identity of the directory at those components has. -/
def directoryPath (parts : List PyStr) : PyStr := if parts = [] then "/" else located parts

/-- An identity is well formed and is that of the directory. -/
def Matches (expected : Value) (d : Nat) : Prop := identity decimal expected = .ok (t.opened d)

/-- An identity supplied for the directory at those components is its own. -/
def AgreesAt (parts : List PyStr) : Prop :=
  ∀ expected, lookup identities (directoryPath parts) = some expected →
    ∃ d, t.resolve parts = some d ∧ Matches decimal t expected d

/-- The parent of the path is the directory `d`, no component on the way is a link, and every
identity supplied for the parent or an ancestor, `/` included, is that of the directory opened. -/
structure Enforced (path : PyStr) (d : Nat) : Prop where
  resolves : t.resolve (parents path) = some d
  agrees : ∀ pre, pre <+: parents path → AgreesAt decimal t identities pre

/-- The two walks succeed together, on one directory, and each enforces the supplied trust. -/
structure EnforceAlike (path : PyStr) : Prop where
  same : ∀ d, (∃ name, openParent decimal t identities path = .ok (d, name)) ↔
    openBoundDirectory decimal t identities (dirname path) = .ok d
  parent : ∀ d name, openParent decimal t identities path = .ok (d, name) →
    Enforced decimal t identities path d
  bound : ∀ d, openBoundDirectory decimal t identities (dirname path) = .ok d →
    Enforced decimal t identities path d

/-- The parent lies below `/` and everything `_open_parent` looks at is in order, but the identity
supplied for `/` is malformed or not that of the root. -/
structure LosesRoot (path : PyStr) : Prop where
  deeper : parents path ≠ []
  root : ¬ AgreesAt decimal t identities []
  resolves : ∃ d, t.resolve (parents path) = some d
  below : ∀ pre, pre ≠ [] → pre <+: parents path → AgreesAt decimal t identities pre
  supplied : (lookup identities (dirname path)).isSome = true

/-! ## 6. What each comparison and each loop establishes -/

variable {decimal t identities}

theorem ifSupplied_eq_ok {path : PyStr} {check : Value → Py Unit} {u : Unit} :
    ifSupplied identities path check = .ok u ↔
      ∀ expected, lookup identities path = some expected → check expected = .ok () := by
  unfold ifSupplied
  cases lookup identities path <;> simp

theorem compare_eq_ok {expected : Value} {d : Nat} {u : Unit} :
    compare decimal t d expected = .ok u ↔ Matches decimal t expected d := by
  unfold compare Matches
  cases identity decimal expected with
  | error e => simp
  | ok id => simpa using eq_comm

theorem isDict_of_identity {expected : Value} {id : Nat × Nat}
    (h : identity decimal expected = .ok id) : expected.isDict = true := by
  cases expected with
  | dict entries => rfl
  | _ => cases h

theorem orMalformed_eq_ok {α : Type} {x : Py α} {a : α} : orMalformed x = .ok a ↔ x = .ok a := by
  cases x with
  | error e =>
    rw [orMalformed]
    split <;> simp
  | ok b => exact Iff.rfl

/-- The two comparisons accept the same identities. -/
theorem compareBound_eq_ok {expected : Value} {d : Nat} {u : Unit} :
    compareBound decimal t d expected = .ok u ↔ Matches decimal t expected d := by
  unfold compareBound Matches
  constructor
  · intro h
    obtain ⟨_, _, h⟩ := bind_eq_ok.mp h
    obtain ⟨id, hid, h⟩ := bind_eq_ok.mp h
    rw [orMalformed_eq_ok.mp hid, raiseUnless_eq_ok.mp h]
  · intro h
    rw [h, raiseUnless_of (isDict_of_identity h)]
    exact raiseUnless_of rfl

theorem located_concat (done : List PyStr) (component : PyStr) :
    located (done ++ [component]) = located done ++ ("/" ++ component) := by
  apply PyStr.ext
  simp [located]
  rfl

theorem directoryPath_of_ne_nil {parts : List PyStr} (h : parts ≠ []) :
    directoryPath parts = located parts := if_neg h

/-- On components that are not empty the two loops succeed alike. -/
theorem openBound_eq_ok {parts : List PyStr} (hparts : ∀ c ∈ parts, c ≠ "") {current d : Nat}
    {walked : PyStr} : openBound decimal t identities current walked parts = .ok d ↔
      openComponents decimal t identities current walked parts = .ok d := by
  induction parts generalizing current walked with
  | nil => rfl
  | cons component rest ih =>
    obtain ⟨hcomponent, hrest⟩ := List.forall_mem_cons.mp hparts
    rw [openBound, if_neg hcomponent, openComponents]
    simp only [bind_eq_ok, ifSupplied_eq_ok, compareBound_eq_ok, compare_eq_ok, ih hrest]

/-- A loop that has walked `done` to the directory `current` succeeds when the rest is a chain of
directories and agrees with every identity supplied for one of them. -/
theorem openComponents_eq_ok {parts : List PyStr} {current d : Nat} {done : List PyStr} :
    openComponents decimal t identities current (located done) parts = .ok d ↔
      t.descend current parts = some d ∧
        ∀ pre, pre ≠ [] → pre <+: parts → ∀ expected,
          lookup identities (located (done ++ pre)) = some expected →
            ∃ e, t.descend current pre = some e ∧ Matches decimal t expected e := by
  induction parts generalizing current done with
  | nil =>
    constructor
    · intro h
      cases h
      exact ⟨rfl, fun pre hne hpre => absurd (List.prefix_nil.mp hpre) hne⟩
    · rintro ⟨h, _⟩
      cases h
      rfl
  | cons component rest ih =>
    cases hentry : t.entry current component with
    | symlink => simp [openComponents, Entry.openDirectory, Tree.descend, hentry]
    | refused => simp [openComponents, Entry.openDirectory, Tree.descend, hentry]
    | directory next =>
      have hdescend : ∀ pre, t.descend current (component :: pre) = t.descend next pre := by
        intro pre
        rw [Tree.descend, hentry]
      rw [openComponents, hentry, ← located_concat, hdescend]
      simp only [Entry.openDirectory, ok_bind, bind_eq_ok, ifSupplied_eq_ok, compare_eq_ok, ih,
        exists_const]
      constructor
      · rintro ⟨hnext, hresolves, hrest⟩
        refine ⟨hresolves, ?_⟩
        intro pre hne hpre expected hexpected
        obtain ⟨c, pre, rfl⟩ := List.exists_cons_of_ne_nil hne
        obtain ⟨rfl, htail⟩ := List.cons_prefix_cons.mp hpre
        rw [hdescend]
        by_cases hnil : pre = []
        · subst hnil
          exact ⟨next, rfl, hnext expected hexpected⟩
        · refine hrest pre hnil htail expected ?_
          rwa [List.append_assoc]
      · rintro ⟨hresolves, hrest⟩
        refine ⟨?_, hresolves, ?_⟩
        · intro expected hexpected
          obtain ⟨e, he, hmatches⟩ := hrest [component] (List.cons_ne_nil _ _)
            (List.cons_prefix_cons.mpr ⟨rfl, List.nil_prefix⟩) expected hexpected
          rw [hdescend] at he
          cases he
          exact hmatches
        · intro pre hne hpre expected hexpected
          rw [List.append_assoc] at hexpected
          have hlonger := hrest (component :: pre) (List.cons_ne_nil _ _)
            (List.cons_prefix_cons.mpr ⟨rfl, hpre⟩) expected hexpected
          rwa [hdescend] at hlonger

/-! ## 7. Canonical paths -/

/-- What a canonical path is made of. -/
structure IsComponent (c : PyStr) : Prop where
  ne_nil : c.codePoints ≠ []
  not_slash : slash ∉ c.codePoints

theorem isComponent_of_mem_keptFrom {slashes : Nat} {kept comps : List PyStr}
    (hkept : ∀ c ∈ kept, IsComponent c) (hcomps : ∀ c ∈ comps, slash ∉ c.codePoints) :
    ∀ c ∈ keptFrom slashes kept comps, IsComponent c := by
  fun_induction keptFrom slashes kept comps with
  | case1 kept =>
    intro c hc
    exact hkept c (List.mem_reverse.mp hc)
  | case2 kept comp rest hskip ih =>
    exact ih hkept (List.forall_mem_cons.mp hcomps).2
  | case3 kept comp rest hskip hkeep ih =>
    obtain ⟨hcomp, hrest⟩ := List.forall_mem_cons.mp hcomps
    refine ih (List.forall_mem_cons.mpr ⟨⟨?_, hcomp⟩, hkept⟩) hrest
    intro hnil
    exact hskip (Or.inl (PyStr.ext hnil))
  | case4 kept comp rest hskip hdrop ih =>
    exact ih (fun c hc => hkept c (List.mem_of_mem_tail hc)) (List.forall_mem_cons.mp hcomps).2

theorem located_eq_join {comps : List PyStr} (h : comps ≠ []) :
    located comps = "/" ++ PyStr.join "/" comps := by
  induction comps with
  | nil => exact absurd rfl h
  | cons c rest ih =>
    cases rest with
    | nil =>
      apply PyStr.ext
      simp [located, PyStr.join]
      rfl
    | cons c' rest =>
      have hrest := congrArg PyStr.codePoints (ih (List.cons_ne_nil _ _))
      apply PyStr.ext
      rw [PyStr.join_cons_cons]
      simp only [located, List.flatMap_cons, PyStr.codePoints_append] at hrest ⊢
      rw [hrest]
      simp
      rfl

/-- A path that passes the test of the modules is `/` and components with slashes between them. -/
theorem exists_of_isCanonical {path : PyStr} (h : isCanonical path = true) :
    ∃ parents name, path = located (parents ++ [name]) ∧
      ∀ c ∈ parents ++ [name], IsComponent c := by
  simp only [isCanonical, Bool.and_eq_true, decide_eq_true_eq, Bool.not_eq_true'] at h
  obtain ⟨⟨⟨⟨⟨habsolute, hsingle⟩, hnormal⟩, _⟩, hroot⟩, _⟩ := h
  have hslashes : initialSlashes path = 1 := by
    simp [initialSlashes, habsolute, hsingle]
  have hcomps := @isComponent_of_mem_keptFrom 1 [] (path.segments "/") (by simp)
    (fun c hc => PyStr.not_mem_of_mem_segments hc)
  have hpath : path = "/" ++ PyStr.join "/" (keptFrom 1 [] (path.segments "/")) := by
    have hjoined : normpath path = "/" ++ PyStr.join "/" (keptFrom 1 [] (path.segments "/")) := by
      rw [normpath, hslashes]
      exact if_neg fun h => List.cons_ne_nil _ _ (congrArg PyStr.codePoints h)
    exact hnormal.symm.trans hjoined
  have hne : keptFrom 1 [] (path.segments "/") ≠ [] := by
    intro hnil
    rw [hnil] at hpath
    exact hroot hpath
  obtain ⟨parents, name, hsplit⟩ := List.eq_nil_or_concat'  _ |>.resolve_left hne
  rw [← located_eq_join hne, hsplit] at hpath
  exact ⟨parents, name, hpath, hsplit ▸ hcomps⟩

section Canonical

variable {parts : List PyStr} {name : PyStr}

theorem drop_located (hne : parts ≠ []) :
    (located parts).codePoints.drop 1 = (PyStr.join "/" parts).codePoints := by
  rw [located_eq_join hne]
  rfl

theorem segments_located (hne : parts ≠ []) (h : ∀ c ∈ parts, IsComponent c) :
    (⟨(located parts).codePoints.drop 1⟩ : PyStr).segments "/" = parts := by
  rw [drop_located hne]
  exact PyStr.segments_join hne fun c hc => (h c hc).not_slash

theorem parents_located (h : ∀ c ∈ parts ++ [name], IsComponent c) :
    parents (located (parts ++ [name])) = parts := by
  rw [parents, segments_located (by simp) h, List.dropLast_concat]

theorem codePoints_located_concat (parts : List PyStr) (name : PyStr) :
    (located (parts ++ [name])).codePoints =
      (located parts).codePoints ++ slash :: name.codePoints := by
  simp [located]

/-- What stands before the last component does not end with a slash. -/
theorem exists_codePoints_located (hne : parts ≠ []) (h : ∀ c ∈ parts, IsComponent c) :
    ∃ text d, (located parts).codePoints = text ++ [d] ∧ d ≠ slash := by
  obtain ⟨init, last, rfl⟩ := (List.eq_nil_or_concat' parts).resolve_left hne
  have hlast := h last (List.mem_append_right _ List.mem_cons_self)
  obtain ⟨text, d, htext⟩ := (List.eq_nil_or_concat' last.codePoints).resolve_left hlast.ne_nil
  refine ⟨(located init).codePoints ++ slash :: text, d, ?_, ?_⟩
  · simp [codePoints_located_concat, htext]
  · rintro rfl
    exact hlast.not_slash (by simp [htext])

theorem dirname_located (h : ∀ c ∈ parts ++ [name], IsComponent c) :
    dirname (located (parts ++ [name])) = directoryPath parts := by
  have hname : ∀ c ∈ name.codePoints.reverse, decide (c ≠ slash) = true := by
    intro c hc
    have hnot := (h name (List.mem_append_right _ List.mem_cons_self)).not_slash
    rw [decide_eq_true_eq]
    rintro rfl
    exact hnot (List.mem_reverse.mp hc)
  have hhead : ((located (parts ++ [name])).codePoints.reverse.dropWhile (· ≠ slash)).reverse =
      (located parts).codePoints ++ [slash] := by
    rw [codePoints_located_concat, List.reverse_append, List.reverse_cons, List.append_assoc,
      List.dropWhile_append_of_pos hname]
    simp
  unfold dirname
  rw [hhead]
  by_cases hparts : parts = []
  · subst hparts
    rfl
  · obtain ⟨text, d, htext, hd⟩ := exists_codePoints_located hparts
      fun c hc => h c (List.mem_append_left _ hc)
    rw [directoryPath_of_ne_nil hparts, if_neg (by simp [htext, hd])]
    apply PyStr.ext
    simp [htext, hd]

theorem directoryPath_ne_root (hne : parts ≠ []) (h : ∀ c ∈ parts, IsComponent c) :
    directoryPath parts ≠ "/" := by
  intro hroot
  obtain ⟨text, d, htext, hd⟩ := exists_codePoints_located hne h
  rw [← directoryPath_of_ne_nil hne, hroot] at htext
  have hlast : (PyStr.ofString "/").codePoints.getLast? = some d := by simp [htext]
  exact hd (Option.some.inj hlast).symm

end Canonical

/-! ## 8. The two walks -/

section Walks

variable {parts : List PyStr} {name : PyStr}

theorem resolve_of_root {root : Nat} (hroot : t.root = .directory root) (pre : List PyStr) :
    t.resolve pre = t.descend root pre := by
  rw [Tree.resolve, hroot]

/-- A loop from the root establishes the chain and every identity below the root. -/
theorem openComponents_root {root d : Nat} (hroot : t.root = .directory root) :
    openComponents decimal t identities root "" parts = .ok d ↔
      t.resolve parts = some d ∧
        ∀ pre, pre ≠ [] → pre <+: parts → AgreesAt decimal t identities pre := by
  rw [show ("" : PyStr) = located [] from rfl, openComponents_eq_ok, resolve_of_root hroot]
  refine and_congr Iff.rfl (forall_congr' fun pre => forall_congr' fun hne => ?_)
  rw [AgreesAt, directoryPath_of_ne_nil hne, resolve_of_root hroot]
  rfl

/-- An identity supplied for `/` is compared with the root. -/
theorem agreesAt_root {root : Nat} (hroot : t.root = .directory root) :
    AgreesAt decimal t identities [] ↔
      ∀ expected, lookup identities "/" = some expected → Matches decimal t expected root := by
  unfold AgreesAt
  rw [resolve_of_root hroot]
  simp [directoryPath, Tree.descend]

/-- What the exact parent adds: its identity must be supplied, and that of `/` is compared where
`/` is the parent. -/
theorem openParent_eq_ok_iff (h : ∀ c ∈ parts ++ [name], IsComponent c) {d : Nat} {n : PyStr} :
    openParent decimal t identities (located (parts ++ [name])) = .ok (d, n) ↔
      n = name ∧ t.resolve parts = some d ∧
        (∀ pre, pre ≠ [] → pre <+: parts → AgreesAt decimal t identities pre) ∧
        (lookup identities (directoryPath parts)).isSome = true ∧
        (parts = [] → AgreesAt decimal t identities []) := by
  have hparts : ∀ c ∈ parts, IsComponent c := fun c hc => h c (List.mem_append_left _ hc)
  cases hroot : t.root with
  | symlink => simp [openParent, Tree.resolve, hroot, Entry.openDirectory]
  | refused => simp [openParent, Tree.resolve, hroot, Entry.openDirectory]
  | directory root =>
    rw [openParent, segments_located (by simp) h, hroot, dirname_located h]
    simp only [Entry.openDirectory, ok_bind, List.dropLast_concat, List.getLastD_concat,
      bind_eq_ok, openComponents_root hroot, raiseUnless_eq_ok, exists_const]
    by_cases hnil : parts = []
    · subst hnil
      rw [agreesAt_root hroot]
      simp only [directoryPath, if_true, bind_eq_ok, ifSupplied_eq_ok, compare_eq_ok, pure_eq_ok,
        exists_const, Prod.mk.injEq]
      have hself : t.resolve [] = some root := resolve_of_root hroot []
      constructor
      · rintro ⟨d', ⟨hresolves, hbelow⟩, hsupplied, hagrees, rfl, rfl⟩
        cases hself.symm.trans hresolves
        exact ⟨rfl, hself, hbelow, hsupplied, fun _ => hagrees⟩
      · rintro ⟨rfl, hresolves, hbelow, hsupplied, hagrees⟩
        cases hself.symm.trans hresolves
        exact ⟨_, ⟨hself, hbelow⟩, hsupplied, hagrees trivial, rfl, rfl⟩
    · simp only [if_neg (directoryPath_ne_root hnil hparts), pure_eq_ok, Prod.mk.injEq]
      constructor
      · rintro ⟨d', ⟨hresolves, hbelow⟩, hsupplied, rfl, rfl⟩
        exact ⟨rfl, hresolves, hbelow, hsupplied, fun h => absurd h hnil⟩
      · rintro ⟨rfl, hresolves, hbelow, hsupplied, _⟩
        exact ⟨d, ⟨hresolves, hbelow⟩, hsupplied, rfl, rfl⟩

theorem checkRoot_eq_ok {root : Nat} (hroot : t.root = .directory root) {path : PyStr} {u : Unit} :
    checkRoot decimal t identities path root = .ok u ↔
      (path = "/" → (lookup identities "/").isSome = true) ∧ AgreesAt decimal t identities [] := by
  rw [agreesAt_root hroot, checkRoot]
  by_cases hsupplied : (lookup identities "/").isSome = true
  · rw [if_pos (Or.inr hsupplied), raiseUnless_of hsupplied, ok_bind, ifSupplied_eq_ok]
    simp only [compareBound_eq_ok, hsupplied, implies_true, true_and]
  · have hnone : lookup identities "/" = none := by simpa using hsupplied
    by_cases hpath : path = "/"
    · simp [hpath, hnone, raiseUnless]
    · simp [hpath, hnone]

/-- The walk of `_open_bound_directory` compares a supplied identity of `/` on every path. -/
theorem openBoundDirectory_eq_ok_iff (h : ∀ c ∈ parts, IsComponent c) {d : Nat} :
    openBoundDirectory decimal t identities (directoryPath parts) = .ok d ↔
      t.resolve parts = some d ∧
        (∀ pre, pre ≠ [] → pre <+: parts → AgreesAt decimal t identities pre) ∧
        (lookup identities (directoryPath parts)).isSome = true ∧
        AgreesAt decimal t identities [] := by
  cases hroot : t.root with
  | symlink => simp [openBoundDirectory, Tree.resolve, hroot, Entry.openDirectory]
  | refused => simp [openBoundDirectory, Tree.resolve, hroot, Entry.openDirectory]
  | directory root =>
    rw [openBoundDirectory, hroot]
    simp only [Entry.openDirectory, ok_bind, bind_eq_ok, checkRoot_eq_ok hroot, exists_const]
    by_cases hnil : parts = []
    · subst hnil
      have hshort : ∀ pre : List PyStr, pre ≠ [] → ¬ pre <+: [] := by
        intro pre hne hpre
        exact hne (List.prefix_nil.mp hpre)
      rw [resolve_of_root hroot]
      simp only [directoryPath, if_true, pure_eq_ok, Tree.descend, Option.some.injEq, true_implies]
      constructor
      · rintro ⟨⟨hsupplied, hagrees⟩, rfl⟩
        exact ⟨rfl, fun pre hne hpre => absurd hpre (hshort pre hne), hsupplied, hagrees⟩
      · rintro ⟨rfl, _, hsupplied, hagrees⟩
        exact ⟨⟨hsupplied, hagrees⟩, rfl⟩
    · have hpath := directoryPath_ne_root hnil h
      have hempty : ∀ c ∈ parts, c ≠ "" := by
        rintro c hc rfl
        exact (h _ hc).ne_nil rfl
      rw [if_neg hpath, directoryPath_of_ne_nil hnil, segments_located hnil h,
        ← directoryPath_of_ne_nil hnil]
      simp only [bind_eq_ok, openBound_eq_ok hempty, openComponents_root hroot, raiseUnless_eq_ok,
        exists_const, pure_eq_ok]
      constructor
      · rintro ⟨⟨_, hagrees⟩, d', ⟨hresolves, hbelow⟩, hsupplied, rfl⟩
        exact ⟨hresolves, hbelow, hsupplied, hagrees⟩
      · rintro ⟨hresolves, hbelow, hsupplied, hagrees⟩
        exact ⟨⟨fun h => absurd h hpath, hagrees⟩, d, ⟨hresolves, hbelow⟩, hsupplied, rfl⟩

/-- Every identity on the way, once that of `/` is known to agree. -/
theorem enforced_located (h : ∀ c ∈ parts ++ [name], IsComponent c) {d : Nat}
    (hresolves : t.resolve parts = some d)
    (hbelow : ∀ pre, pre ≠ [] → pre <+: parts → AgreesAt decimal t identities pre)
    (hagrees : AgreesAt decimal t identities []) :
    Enforced decimal t identities (located (parts ++ [name])) d := by
  refine ⟨?_, ?_⟩
  · rw [parents_located h]
    exact hresolves
  · rw [parents_located h]
    intro pre hpre
    by_cases hnil : pre = []
    · rw [hnil]
      exact hagrees
    · exact hbelow pre hnil hpre

end Walks

/-- The two binders succeed together and enforce the supplied trust exactly on the inputs on which
`_open_parent` has no identity of `/` to lose. -/
theorem enforceAlike_iff {path : PyStr} (hpath : isCanonical path = true) :
    EnforceAlike decimal t identities path ↔ ¬ LosesRoot decimal t identities path := by
  obtain ⟨parts, name, rfl, hcomponents⟩ := exists_of_isCanonical hpath
  have hparts : ∀ c ∈ parts, IsComponent c :=
    fun c hc => hcomponents c (List.mem_append_left _ hc)
  have hparents := parents_located hcomponents
  have hdirname := dirname_located hcomponents
  constructor
  · rintro halike ⟨hdeeper, hroot, ⟨d, hresolves⟩, hbelow, hsupplied⟩
    rw [hparents] at hdeeper hresolves hbelow
    rw [hdirname] at hsupplied
    have hopened : openParent decimal t identities (located (parts ++ [name])) = .ok (d, name) :=
      (openParent_eq_ok_iff hcomponents).mpr
        ⟨rfl, hresolves, hbelow, hsupplied, fun hnil => absurd hnil hdeeper⟩
    exact hroot ((halike.parent d name hopened).agrees [] List.nil_prefix)
  · intro hkeeps
    -- below `/` the agreement of the root is what the hypothesis leaves
    have hagrees : ∀ {d : Nat}, t.resolve parts = some d →
        (∀ pre, pre ≠ [] → pre <+: parts → AgreesAt decimal t identities pre) →
        (lookup identities (directoryPath parts)).isSome = true →
        (parts = [] → AgreesAt decimal t identities []) → AgreesAt decimal t identities [] := by
      intro d hresolves hbelow hsupplied hself
      by_cases hnil : parts = []
      · exact hself hnil
      · by_contra hroot
        refine hkeeps ⟨?_, hroot, ⟨d, ?_⟩, ?_, ?_⟩
        · rwa [hparents]
        · rwa [hparents]
        · rwa [hparents]
        · rwa [hdirname]
    refine ⟨fun d => ?_, fun d n hopened => ?_, fun d hopened => ?_⟩
    · rw [hdirname, openBoundDirectory_eq_ok_iff hparts]
      constructor
      · rintro ⟨n, hopened⟩
        obtain ⟨_, hresolves, hbelow, hsupplied, hself⟩ :=
          (openParent_eq_ok_iff hcomponents).mp hopened
        exact ⟨hresolves, hbelow, hsupplied, hagrees hresolves hbelow hsupplied hself⟩
      · rintro ⟨hresolves, hbelow, hsupplied, hroot⟩
        exact ⟨name, (openParent_eq_ok_iff hcomponents).mpr
          ⟨rfl, hresolves, hbelow, hsupplied, fun _ => hroot⟩⟩
    · obtain ⟨_, hresolves, hbelow, hsupplied, hself⟩ :=
        (openParent_eq_ok_iff hcomponents).mp hopened
      exact enforced_located hcomponents hresolves hbelow
        (hagrees hresolves hbelow hsupplied hself)
    · rw [hdirname, openBoundDirectory_eq_ok_iff hparts] at hopened
      obtain ⟨hresolves, hbelow, _, hroot⟩ := hopened
      exact enforced_located hcomponents hresolves hbelow hroot

end Binders

/-! ## 9. A lost identity -/

/-- `/etc` below a root of device 8 and inode 2. -/
def sampleTree : Tree where
  root := .directory 0
  entry d name := if d = 0 ∧ name = "etc" then .directory 1 else .refused
  device _ := 8
  inode d := if d = 0 then 2 else 13

def sampleDecimal (c : Nat) : Option Nat := if 48 ≤ c ∧ c ≤ 57 then some (c - 48) else none

/-- An identity of a directory of device 8. -/
def sampleIdentity (inode : Int) : Value := .dict [("device", .int 8), ("inode", .int inode)]

/-- The identity of `/etc` is right, that of `/` is another directory's. -/
def sampleIdentities : List (PyStr × Value) :=
  [("/", sampleIdentity 3), ("/etc", sampleIdentity 13)]

theorem enforceAlike_sample : EnforceAlike sampleDecimal sampleTree [("/etc", sampleIdentity 13)]
    "/etc/lit.conf" := by
  refine (enforceAlike_iff (by decide +kernel)).mpr ?_
  rintro ⟨_, hroot, _, _, _⟩
  refine hroot ?_
  intro expected hexpected
  cases hexpected

theorem root_identity_lost :
    ¬ ∀ decimal t identities path, isCanonical path = true →
      EnforceAlike decimal t identities path := by
  intro h
  have halike := h sampleDecimal sampleTree sampleIdentities "/etc/lit.conf" (by decide +kernel)
  have hopened : openParent sampleDecimal sampleTree sampleIdentities "/etc/lit.conf" =
      .ok (1, "lit.conf") := by rfl
  have hbound := (halike.same 1).mp ⟨_, hopened⟩
  cases hbound

end Supplementary.Atomic.Walk
