/-
# The staged files of a release

`inventory` of `release-stage-handoff.py` walks the two staged directories with a work-list and digests
what it finds.  Whatever order the directories are listed in, the walk ends (`drain_ends`); when it
returns, each regular file is in it exactly once, and nothing below the two directories is a symbolic
link, a special file, an executable or a file with a second name (`inventory_spec`).

A directory that is listed goes from the work-list into what was found, one file or directory at a
time; what is found and what is still pending are together all there is.
-/
import Supplementary.Python.RoundTrip
import Supplementary.Python.Split
import Supplementary.Security.Publication
import Mathlib.Data.List.TakeWhile

namespace Supplementary.Security.Handoff

open Supplementary PyStr

/-! ## 1. Directories -/

/-- A regular file. -/
structure Inode where
  /-- It can be opened without following a link. -/
  opens : Bool
  executable : Bool
  links : Nat
  content : Bytes

inductive Node
  | file (inode : Inode)
  /-- A directory, which may refuse to be listed. -/
  | directory (lists : Bool) (entries : List (PyStr × Node))
  | symlink
  | special

/-- The two staged directories, as far as they are there. -/
structure Root where
  dist : Option Node
  incoming : Option Node

/-- What the call uses of the platform: the interpreter, and the order in which a directory is
listed. -/
structure Platform where
  rt : Runtime
  scandir : PyStr → List (PyStr × Node) → List (PyStr × Node)

/-- A listing has every entry once. -/
def Platform.Lists (platform : Platform) : Prop :=
  ∀ directory entries, (platform.scandir directory entries).Perm entries

/-! ## 2. `inventory` -/

def maxFiles : Nat := 1024
def maxDirectories : Nat := 4096
def maxTotalBytes : Nat := 2000000000

/-- `part in ("", ".", "..") or part.startswith(".")`. -/
def isHidden (part : PyStr) : Bool := part = "" || part.startsWith "."

/-- A control character, or a backslash. -/
def isControl (c : Nat) : Bool := c < 32 || c = 127 || c = 92

/-- `safe_relative(path)`. -/
def safeRelative (path : PyStr) : Py Unit :=
  match path.utf8Encode with
  | none => .error (.valueError "handoff file path is invalid")
  | some encoded => do
    require (0 < encoded.length ∧ encoded.length ≤ 1024) "handoff file path is invalid"
    let parts := path.split '/'
    require (parts.head? = some ("dist" : PyStr) ∨ parts.head? = some ("incoming" : PyStr))
      "handoff file path is unsafe"
    require (parts.all fun part => !isHidden part) "handoff file path is unsafe"
    require (parts.all fun part => part.codePoints.all fun c => !isControl c)
      "handoff file path contains control characters"

/-- `digest_file(path)`. -/
def digestFile (platform : Platform) (inode : Inode) : Py (PyStr × Nat) := do
  require (inode.opens = true) "handoff file cannot be opened safely"
  require (inode.links = 1 ∧ inode.executable = false)
    "handoff file is not ordinary nonexecutable data"
  require (inode.content.length ≤ maxTotalBytes) "handoff byte limit exceeded"
  return (platform.rt.sha256 inode.content, inode.content.length)

/-- A row: the path with the digest and the size. -/
abbrev Row := PyStr × (PyStr × Nat)

/-- A directory on the work-list. -/
structure Pending where
  path : PyStr
  lists : Bool
  entries : List (PyStr × Node)

/-- The local variables of `inventory`; the last of `pending` is the first here. -/
structure Walk where
  rows : List Row
  pending : List Pending
  directories : Nat
  totalBytes : Nat

section

variable (platform : Platform)

/-- One child of a directory. -/
def visit (directory : PyStr) (w : Walk) (child : PyStr × Node) : Py Walk := do
  let relative := directory ++ "/" ++ child.1
  safeRelative relative
  match child.2 with
  | .symlink => .error (.valueError "handoff tree contains a symlink")
  | .special => .error (.valueError "handoff tree contains a special file")
  | .directory lists entries => do
    require (w.directories + 1 ≤ maxDirectories) "handoff directory limit exceeded"
    return { w with pending := ⟨relative, lists, entries⟩ :: w.pending,
                    directories := w.directories + 1 }
  | .file inode => do
    let (digest, size) ← digestFile platform inode
    let rows := w.rows ++ [(relative, digest, size)]
    require (rows.length ≤ maxFiles ∧ w.totalBytes + size ≤ maxTotalBytes)
      "handoff file or byte limit exceeded"
    return { w with rows := rows, totalBytes := w.totalBytes + size }

/-- The children of a directory that was taken from the work-list, by their names. -/
def visitDirectory (w : Walk) (directory : Pending) : Py Walk := do
  raiseUnless .osError (directory.lists = true)
  (sortByKey (platform.scandir directory.path directory.entries)).foldlM
    (visit platform directory.path) w

/-- The loop, for at most so many directories: nothing, if it is still going. -/
def drain : Nat → Walk → Option (Py Walk)
  | bound, w => match w.pending with
    | [] => some (.ok w)
    | directory :: pending => match bound with
      | 0 => none
      | bound + 1 => match visitDirectory platform { w with pending := pending } directory with
        | .error e => some (.error e)
        | .ok w => drain bound w

mutual

/-- The directories of a node. -/
def Node.directories : Node → Nat
  | .directory _ entries => 1 + directoriesOf entries
  | _ => 0

def directoriesOf : List (PyStr × Node) → Nat
  | [] => 0
  | (_, node) :: entries => node.directories + directoriesOf entries

end

/-- A root directory that is one. -/
def startAt (path : PyStr) : Option Node → Py Pending
  | some (.directory lists entries) => .ok ⟨path, lists, entries⟩
  | _ => .error (.valueError "handoff root directory is missing or unsafe")

/-- What is still to be walked. -/
def Walk.size (w : Walk) : Nat := (w.pending.map fun d => 1 + directoriesOf d.entries).sum

/-- `inventory(root)`, up to the order of the rows: the state at the end of the loop. -/
def walk (root : Root) : Py Walk := do
  let dist ← startAt "dist" root.dist
  let incoming ← startAt "incoming" root.incoming
  let start : Walk := ⟨[], [incoming, dist], 2, 0⟩
  (drain platform start.size start).getD (.error .recursionError)

/-- `inventory(root)`. -/
def inventory (root : Root) : Py (List Row) := do
  let w ← walk platform root
  return sortByKey w.rows

end

/-! ## 3. What is below a directory -/

mutual

/-- The regular files of a node, with their paths. -/
def Node.filesAt (path : PyStr) : Node → List (PyStr × Inode)
  | .file inode => [(path, inode)]
  | .directory _ entries => filesIn path entries
  | .symlink | .special => []

def filesIn (directory : PyStr) : List (PyStr × Node) → List (PyStr × Inode)
  | [] => []
  | (name, node) :: entries =>
    node.filesAt (directory ++ "/" ++ name) ++ filesIn directory entries

end

mutual

/-- Nothing but directories and regular files that have one name and are not executable. -/
def Node.Ordinary : Node → Prop
  | .file inode => inode.links = 1 ∧ inode.executable = false
  | .directory _ entries => OrdinaryIn entries
  | .symlink | .special => False

def OrdinaryIn : List (PyStr × Node) → Prop
  | [] => True
  | (_, node) :: entries => node.Ordinary ∧ OrdinaryIn entries

end

def Root.files (root : Root) : List (PyStr × Inode) :=
  (root.dist.map (Node.filesAt "dist")).getD [] ++
    (root.incoming.map (Node.filesAt "incoming")).getD []

/-- Both directories are there, with nothing but ordinary files below them. -/
def Root.Ordinary (root : Root) : Prop :=
  ∀ node ∈ [root.dist, root.incoming], ∃ lists entries,
    node = some (.directory lists entries) ∧ OrdinaryIn entries

theorem filesIn_eq (directory : PyStr) (entries : List (PyStr × Node)) : filesIn directory entries =
    entries.flatMap fun e => e.2.filesAt (directory ++ "/" ++ e.1) := by
  induction entries with
  | nil => rfl
  | cons e entries ih => rw [filesIn, List.flatMap_cons, ih]

theorem ordinaryIn_iff {entries : List (PyStr × Node)} :
    OrdinaryIn entries ↔ ∀ e ∈ entries, e.2.Ordinary := by
  induction entries with
  | nil =>
    refine ⟨fun _ e he => ?_, fun _ => trivial⟩
    cases he
  | cons e entries ih => rw [OrdinaryIn, List.forall_mem_cons, ih]

theorem directoriesOf_eq (entries : List (PyStr × Node)) :
    directoriesOf entries = (entries.map fun e => e.2.directories).sum := by
  induction entries with
  | nil => rfl
  | cons e entries ih => rw [directoriesOf, List.map_cons, List.sum_cons, ih]

/-! ## 4. The walk -/

section

variable {platform : Platform}

/-- The row of a file. -/
def Platform.row (platform : Platform) (file : PyStr × Inode) : Row :=
  (file.1, platform.rt.sha256 file.2.content, file.2.content.length)

/-- The rows of what is still pending. -/
def Platform.rowsAhead (platform : Platform) (pending : List Pending) : List Row :=
  pending.flatMap fun d => (filesIn d.path d.entries).map platform.row

/-- From one state to the next: these rows came to what was found or is pending, so many directories
to what is pending; and the new state is ordinary only if the old one and this are. -/
structure Moves (platform : Platform) (w w' : Walk) (rows : List Row) (directories : Nat)
    (ordinary : Prop) : Prop where
  rows : (w'.rows ++ platform.rowsAhead w'.pending).Perm
    (w.rows ++ platform.rowsAhead w.pending ++ rows)
  size : w'.size = w.size + directories
  ordinary : (∀ d ∈ w'.pending, OrdinaryIn d.entries) →
    (∀ d ∈ w.pending, OrdinaryIn d.entries) ∧ ordinary
  encodes : (∀ r ∈ w.rows, r.1.utf8Encode.isSome = true) →
    ∀ r ∈ w'.rows, r.1.utf8Encode.isSome = true

theorem Moves.trans {w w' w'' : Walk} {rows rows' : List Row} {n n' : Nat} {p p' : Prop}
    (h : Moves platform w w' rows n p) (h' : Moves platform w' w'' rows' n' p') :
    Moves platform w w'' (rows ++ rows') (n + n') (p ∧ p') := by
  refine ⟨?_, ?_, ?_, fun hrows => h'.encodes (h.encodes hrows)⟩
  · rw [← List.append_assoc]
    exact h'.rows.trans (h.rows.append_right rows')
  · rw [h'.size, h.size, Nat.add_assoc]
  · intro hlast
    obtain ⟨hmid, hp'⟩ := h'.ordinary hlast
    obtain ⟨hfirst, hp⟩ := h.ordinary hmid
    exact ⟨hfirst, hp, hp'⟩

theorem Moves.refl (w : Walk) : Moves platform w w [] 0 True :=
  ⟨by rw [List.append_nil], rfl, fun h => ⟨h, trivial⟩, fun h => h⟩

/-- **One child moves to what was found, or onto the work-list.** -/
theorem visit_moves {directory : PyStr} {w w' : Walk} {child : PyStr × Node}
    (h : visit platform directory w child = .ok w') :
    Moves platform w w' ((child.2.filesAt (directory ++ "/" ++ child.1)).map platform.row)
      child.2.directories child.2.Ordinary := by
  obtain ⟨name, node⟩ := child
  rw [visit, bind_eq_ok] at h
  obtain ⟨_, hsafe, h⟩ := h
  have hencodes : (directory ++ "/" ++ name).utf8Encode.isSome = true := by
    unfold safeRelative at hsafe
    split at hsafe
    · cases hsafe
    · next hencoded =>
      rw [hencoded]
      rfl
  cases node with
  | symlink => cases h
  | special => cases h
  | directory lists entries =>
    simp only [bind_eq_ok, pure_eq_ok] at h
    obtain ⟨_, -, rfl⟩ := h
    refine ⟨?_, ?_, ?_, fun hrows => hrows⟩
    · simp only [Platform.rowsAhead, List.flatMap_cons, Node.filesAt, List.append_assoc]
      exact List.perm_append_comm.append_left w.rows
    · simp only [Walk.size, List.map_cons, List.sum_cons, Node.directories]
      omega
    · intro hall
      rw [List.forall_mem_cons] at hall
      exact ⟨hall.2, hall.1⟩
  | file inode =>
    simp only [digestFile, bind_eq_ok, require_eq_ok, pure_eq_ok] at h
    obtain ⟨_, ⟨_, -, _, hordinary, _, -, rfl⟩, _, -, rfl⟩ := h
    refine ⟨?_, rfl, fun hall => ⟨hall, hordinary⟩, fun hrows => ?_⟩
    · simp only [Node.filesAt, List.map_singleton, List.append_assoc]
      exact List.perm_append_comm.append_left w.rows
    · exact List.forall_mem_append.mpr ⟨hrows, List.forall_mem_singleton.mpr hencodes⟩

/-- The children of a directory, one after the other. -/
theorem fold_moves {directory : PyStr} {children : List (PyStr × Node)} {w w' : Walk}
    (h : children.foldlM (visit platform directory) w = .ok w') :
    Moves platform w w' ((filesIn directory children).map platform.row) (directoriesOf children)
      (OrdinaryIn children) := by
  induction children generalizing w with
  | nil =>
    rw [List.foldlM_nil, pure_eq_ok] at h
    rw [← h]
    exact Moves.refl w
  | cons child children ih =>
    rw [List.foldlM_cons, bind_eq_ok] at h
    obtain ⟨next, hnext, hrest⟩ := h
    rw [filesIn, List.map_append]
    exact (visit_moves hnext).trans (ih hrest)

/-- **A whole directory, in whatever order it is listed.** -/
theorem visitDirectory_moves (hlists : platform.Lists) {w w' : Walk} {directory : Pending}
    (h : visitDirectory platform w directory = .ok w') :
    Moves platform w w' ((filesIn directory.path directory.entries).map platform.row)
      (directoriesOf directory.entries) (OrdinaryIn directory.entries) := by
  rw [visitDirectory, bind_eq_ok] at h
  obtain ⟨_, -, hfold⟩ := h
  have hmoves := fold_moves hfold
  have hperm : (sortByKey (platform.scandir directory.path directory.entries)).Perm directory.entries :=
    (Json.perm_sortByKey _).trans (hlists directory.path directory.entries)
  refine ⟨hmoves.rows.trans ?_, ?_, ?_, hmoves.encodes⟩
  · refine List.Perm.append_left _ (List.Perm.map _ ?_)
    rw [filesIn_eq, filesIn_eq]
    exact hperm.flatMap_right _
  · rw [hmoves.size, directoriesOf_eq, directoriesOf_eq, (hperm.map _).sum_nat]
  · intro hall
    obtain ⟨hbefore, hchildren⟩ := hmoves.ordinary hall
    refine ⟨hbefore, ordinaryIn_iff.mpr ?_⟩
    intro e he
    exact ordinaryIn_iff.mp hchildren e (hperm.mem_iff.mpr he)

/-- **The loop ends.** -/
theorem drain_ends (hlists : platform.Lists) : ∀ (bound : Nat) (w : Walk), w.size ≤ bound →
    ∃ result, drain platform bound w = some result := by
  intro bound
  induction bound with
  | zero =>
    intro w hsize
    obtain ⟨rows, pending, directories, totalBytes⟩ := w
    cases pending with
    | nil => exact ⟨_, by rw [drain]⟩
    | cons d pending =>
      simp only [Walk.size, List.map_cons, List.sum_cons] at hsize
      omega
  | succ bound ih =>
    intro w hsize
    obtain ⟨rows, pending, directories, totalBytes⟩ := w
    cases pending with
    | nil => exact ⟨_, by rw [drain]⟩
    | cons d pending =>
      rw [drain]
      simp only []
      cases hvisit : visitDirectory platform ⟨rows, pending, directories, totalBytes⟩ d with
      | error e => exact ⟨_, rfl⟩
      | ok w' =>
        refine ih w' ?_
        have hmoved := (visitDirectory_moves hlists hvisit).size
        simp only [Walk.size, List.map_cons, List.sum_cons] at hsize hmoved ⊢
        omega

/-- **What the loop has found when it ends: everything, once, and all of it ordinary.** -/
theorem drain_spec (hlists : platform.Lists) : ∀ (bound : Nat) (w w' : Walk),
    drain platform bound w = some (.ok w') →
      w'.rows.Perm (w.rows ++ platform.rowsAhead w.pending) ∧
        (∀ d ∈ w.pending, OrdinaryIn d.entries) ∧
        ((∀ r ∈ w.rows, r.1.utf8Encode.isSome = true) →
          ∀ r ∈ w'.rows, r.1.utf8Encode.isSome = true) := by
  intro bound
  induction bound with
  | zero =>
    intro w w' h
    obtain ⟨rows, pending, directories, totalBytes⟩ := w
    cases pending with
    | nil =>
      rw [drain] at h
      rw [← Except.ok.inj (Option.some.inj h)]
      refine ⟨?_, fun d hd => ?_, fun hrows => hrows⟩
      · rw [Platform.rowsAhead, List.flatMap_nil, List.append_nil]
      · cases hd
    | cons d pending =>
      rw [drain] at h
      cases h
  | succ bound ih =>
    intro w w' h
    obtain ⟨rows, pending, directories, totalBytes⟩ := w
    cases pending with
    | nil =>
      rw [drain] at h
      rw [← Except.ok.inj (Option.some.inj h)]
      refine ⟨?_, fun d hd => ?_, fun hrows => hrows⟩
      · rw [Platform.rowsAhead, List.flatMap_nil, List.append_nil]
      · cases hd
    | cons d pending =>
      rw [drain] at h
      simp only [] at h
      cases hvisit : visitDirectory platform ⟨rows, pending, directories, totalBytes⟩ d with
      | error e =>
        rw [hvisit] at h
        cases h
      | ok next =>
        rw [hvisit] at h
        have hmoves := visitDirectory_moves hlists hvisit
        obtain ⟨hperm, hordinary, hencodes⟩ := ih next w' h
        obtain ⟨hrest, hd⟩ := hmoves.ordinary hordinary
        refine ⟨hperm.trans (hmoves.rows.trans ?_), List.forall_mem_cons.mpr ⟨hd, hrest⟩,
          fun hrows => hencodes (hmoves.encodes hrows)⟩
        simp only [Platform.rowsAhead, List.flatMap_cons, List.append_assoc]
        exact List.perm_append_comm.append_left rows

end

/-! ## 5. Names -/

/-- A name in a directory: a text without a slash. -/
def IsEntryName (name : PyStr) : Prop := name.IsText ∧ 47 ∉ name.codePoints

mutual

/-- Every directory has its names once. -/
def Node.Named : Node → Prop
  | .directory _ entries => (entries.map Prod.fst).Nodup ∧ NamedIn entries
  | _ => True

def NamedIn : List (PyStr × Node) → Prop
  | [] => True
  | (name, node) :: entries => IsEntryName name ∧ node.Named ∧ NamedIn entries

end

/-- The directories are those of a file system. -/
def Root.Named (root : Root) : Prop := ∀ node ∈ [root.dist, root.incoming], ∀ n ∈ node, n.Named

/-- Induction over a node and its entries. -/
theorem node_induction {P : Node → Prop} {Q : List (PyStr × Node) → Prop}
    (hfile : ∀ inode, P (.file inode))
    (hdirectory : ∀ lists entries, Q entries → P (.directory lists entries)) (hlink : P .symlink)
    (hspecial : P .special) (hnil : Q [])
    (hcons : ∀ name node entries, P node → Q entries → Q ((name, node) :: entries)) (node : Node) :
    P node :=
  @Node.rec P Q (fun e => P e.2) hfile hdirectory hlink hspecial hnil
    (fun e entries he hentries => hcons e.1 e.2 entries he hentries) (fun _ _ h => h) node

/-- A path at a directory, or below it. -/
def IsUnder (path : PyStr) (file : PyStr) : Prop := file = path ∨ ∃ rest, file = path ++ "/" ++ rest

theorem isUnder_trans {path name file : PyStr} (h : IsUnder (path ++ "/" ++ name) file) :
    IsUnder path file := by
  rcases h with rfl | ⟨rest, rfl⟩
  · exact Or.inr ⟨name, rfl⟩
  · refine Or.inr ⟨name ++ "/" ++ rest, ext ?_⟩
    simp only [codePoints_append, List.append_assoc]

theorem filesAt_under (node : Node) : ∀ path, ∀ f ∈ node.filesAt path, IsUnder path f.1 := by
  refine @node_induction (fun node => ∀ path, ∀ f ∈ node.filesAt path, IsUnder path f.1)
    (fun entries => ∀ directory, ∀ f ∈ filesIn directory entries, IsUnder directory f.1)
    ?_ (fun _ _ h => h) ?_ ?_ ?_ ?_ node
  · intro inode path f hf
    rw [Node.filesAt, List.mem_singleton] at hf
    exact Or.inl (by rw [hf])
  · intro path f hf
    cases hf
  · intro path f hf
    cases hf
  · intro directory f hf
    cases hf
  · intro name node entries hnode hentries directory f hf
    rw [filesIn, List.mem_append] at hf
    rcases hf with hf | hf
    · exact isUnder_trans (hnode _ f hf)
    · exact hentries directory f hf

/-- The name that a path has below a directory. -/
def nameBelow (directory file : PyStr) : List Nat :=
  (file.codePoints.drop (directory.codePoints.length + 1)).takeWhile fun c => decide (c ≠ 47)

theorem nameBelow_of {directory name file : PyStr} (hname : 47 ∉ name.codePoints)
    (h : IsUnder (directory ++ "/" ++ name) file) : nameBelow directory file = name.codePoints := by
  have hall : ∀ c ∈ name.codePoints, decide (c ≠ 47) = true := by
    intro c hc
    rw [decide_eq_true_eq]
    rintro rfl
    exact hname hc
  have hdrop (tail : List Nat) : (directory.codePoints ++ (47 :: tail)).drop
      (directory.codePoints.length + 1) = tail := by
    rw [List.drop_append, List.drop_eq_nil_of_le (by omega), List.nil_append,
      Nat.add_sub_cancel_left, List.drop_one, List.tail_cons]
  have hslash : (PyStr.ofString "/").codePoints = [47] := rfl
  rcases h with rfl | ⟨rest, rfl⟩
  · simp only [nameBelow, codePoints_append, hslash, List.append_assoc, List.singleton_append, hdrop]
    exact List.takeWhile_eq_self_iff.mpr hall
  · simp only [nameBelow, codePoints_append, hslash, List.append_assoc, List.cons_append,
      List.nil_append, hdrop]
    rw [List.takeWhile_append_of_pos hall]
    simp

theorem isEntryName_of_mem {entries : List (PyStr × Node)} (h : NamedIn entries) :
    ∀ e ∈ entries, IsEntryName e.1 := by
  induction entries with
  | nil =>
    intro e he
    cases he
  | cons e entries ih => exact List.forall_mem_cons.mpr ⟨h.1, ih h.2.2⟩

/-- **No two files below a node have one path.** -/
theorem nodup_filesAt (node : Node) : node.Named →
    ∀ path, ((node.filesAt path).map Prod.fst).Nodup := by
  refine @node_induction
    (fun node => node.Named → ∀ path, ((node.filesAt path).map Prod.fst).Nodup)
    (fun entries => (entries.map Prod.fst).Nodup → NamedIn entries →
      ∀ directory, ((filesIn directory entries).map Prod.fst).Nodup)
    ?_ (fun _ entries h hnamed => h hnamed.1 hnamed.2) ?_ ?_ ?_ ?_ node
  · intro inode _ path
    exact List.nodup_singleton path
  · intro _ path
    exact List.nodup_nil
  · intro _ path
    exact List.nodup_nil
  · intro _ _ directory
    exact List.nodup_nil
  · intro name node entries hnode hentries hkeys hnamed directory
    obtain ⟨hname, hfirst, hrest⟩ := hnamed
    rw [List.map_cons, List.nodup_cons] at hkeys
    rw [filesIn, List.map_append, List.nodup_append]
    refine ⟨hnode hfirst _, hentries hkeys.2 hrest directory, ?_⟩
    intro p hp q hq hsame
    obtain ⟨f, hf, rfl⟩ := List.mem_map.mp hp
    obtain ⟨g, hg, hq⟩ := List.mem_map.mp hq
    have hfname := nameBelow_of hname.2 (filesAt_under node _ f hf)
    rw [filesIn_eq, List.mem_flatMap] at hg
    obtain ⟨e, he, hge⟩ := hg
    have hslash : 47 ∉ e.1.codePoints := (isEntryName_of_mem hrest e he).2
    have hgname := nameBelow_of hslash (filesAt_under e.2 _ g hge)
    rw [hq, ← hsame, hfname] at hgname
    refine hkeys.1 ?_
    have hnames : name = e.1 := ext hgname
    have hmem : e.1 ∈ entries.map Prod.fst := List.mem_map_of_mem he
    rwa [← hnames] at hmem

/-- The paths below a node are texts. -/
theorem isText_filesAt (node : Node) : node.Named →
    ∀ path : PyStr, path.IsText → ∀ f ∈ node.filesAt path, f.1.IsText := by
  refine @node_induction
    (fun node => node.Named → ∀ path : PyStr, path.IsText → ∀ f ∈ node.filesAt path, f.1.IsText)
    (fun entries => NamedIn entries → ∀ directory : PyStr, directory.IsText →
      ∀ f ∈ filesIn directory entries, f.1.IsText)
    ?_ (fun _ entries h hnamed => h hnamed.2) ?_ ?_ ?_ ?_ node
  · intro inode _ path hpath f hf
    rw [Node.filesAt, List.mem_singleton] at hf
    rw [hf]
    exact hpath
  · intro _ path _ f hf
    cases hf
  · intro _ path _ f hf
    cases hf
  · intro _ directory _ f hf
    cases hf
  · intro name node entries hnode hentries hnamed directory hdirectory f hf
    obtain ⟨hname, hfirst, hrest⟩ := hnamed
    rw [filesIn, List.mem_append] at hf
    rcases hf with hf | hf
    · refine hnode hfirst _ ?_ f hf
      intro c hc
      simp only [codePoints_append, List.mem_append] at hc
      rcases hc with (hc | hc) | hc
      · exact hdirectory c hc
      · rw [List.mem_singleton.mp (show c ∈ [47] from hc)]
        decide
      · exact hname.1 c hc
    · exact hentries hrest directory hdirectory f hf

/-- The paths of the staged files are texts. -/
theorem Root.isText_files {root : Root} (h : root.Named) : ∀ f ∈ root.files, f.1.IsText := by
  obtain ⟨hdist, hincoming⟩ := List.forall_mem_cons.mp h
  have hincoming := hincoming root.incoming (List.mem_singleton_self _)
  have hpart (path : PyStr) (hpath : path.IsText) (node : Option Node) (hnode : ∀ n ∈ node, n.Named) :
      ∀ f ∈ (node.map (Node.filesAt path)).getD [], f.1.IsText := by
    cases node with
    | none =>
      intro f hf
      cases hf
    | some node => exact isText_filesAt node (hnode node rfl) path hpath
  exact List.forall_mem_append.mpr ⟨hpart "dist" (by simp [IsText, ofString]) _ hdist,
    hpart "incoming" (by simp [IsText, ofString]) _ hincoming⟩

/-- **No two staged files have one path.** -/
theorem Root.nodup_files {root : Root} (h : root.Named) : (root.files.map Prod.fst).Nodup := by
  obtain ⟨hdist, hincoming⟩ := List.forall_mem_cons.mp h
  have hincoming := hincoming root.incoming (List.mem_singleton_self _)
  have hpart (path : PyStr) (node : Option Node) (hnode : ∀ n ∈ node, n.Named) :
      (((node.map (Node.filesAt path)).getD []).map Prod.fst).Nodup := by
    cases node with
    | none => exact List.nodup_nil
    | some node => exact nodup_filesAt node (hnode node rfl) path
  have hunder (path : PyStr) (node : Option Node) :
      ∀ f ∈ (node.map (Node.filesAt path)).getD [], IsUnder path f.1 := by
    cases node with
    | none =>
      intro f hf
      cases hf
    | some node => exact filesAt_under node path
  rw [Root.files, List.map_append, List.nodup_append]
  refine ⟨hpart _ _ hdist, hpart _ _ hincoming, ?_⟩
  intro p hp q hq hsame
  obtain ⟨f, hf, rfl⟩ := List.mem_map.mp hp
  obtain ⟨g, hg, rfl⟩ := List.mem_map.mp hq
  have hfirst : f.1.codePoints.head? = some 100 := by
    rcases hunder _ _ f hf with h | ⟨rest, h⟩
    · rw [h]
      rfl
    · rw [h]
      rfl
  have hsecond : g.1.codePoints.head? = some 105 := by
    rcases hunder _ _ g hg with h | ⟨rest, h⟩
    · rw [h]
      rfl
    · rw [h]
      rfl
  rw [hsame, hsecond] at hfirst
  exact absurd hfirst (by decide)

/-! ## 6. The inventory -/

section

variable {platform : Platform} {root : Root}

theorem startAt_eq_ok {path : PyStr} {node : Option Node} {pending : Pending}
    (h : startAt path node = .ok pending) :
    ∃ lists entries, node = some (.directory lists entries) ∧ pending = ⟨path, lists, entries⟩ := by
  unfold startAt at h
  split at h
  · next lists entries => exact ⟨lists, entries, rfl, (Except.ok.inj h).symm⟩
  · cases h

/-- **The inventory has every staged file once, in the order of the paths, and all are ordinary.** -/
theorem inventory_spec (hlists : platform.Lists) {rows : List Row}
    (h : inventory platform root = .ok rows) :
    rows = sortByKey rows ∧ rows.Perm (root.files.map platform.row) ∧ root.Ordinary ∧
      ∀ r ∈ rows, r.1.utf8Encode.isSome = true := by
  rw [inventory, bind_eq_ok] at h
  obtain ⟨w, hw, hrows⟩ := h
  rw [pure_eq_ok] at hrows
  rw [walk, bind_eq_ok] at hw
  obtain ⟨dist, hdist, hw⟩ := hw
  rw [bind_eq_ok] at hw
  obtain ⟨incoming, hincoming, hw⟩ := hw
  obtain ⟨lists, entries, hfirst, rfl⟩ := startAt_eq_ok hdist
  obtain ⟨lists', entries', hsecond, rfl⟩ := startAt_eq_ok hincoming
  obtain ⟨result, hresult⟩ := drain_ends hlists
    (⟨[], [⟨"incoming", lists', entries'⟩, ⟨"dist", lists, entries⟩], 2, 0⟩ : Walk).size
    ⟨[], [⟨"incoming", lists', entries'⟩, ⟨"dist", lists, entries⟩], 2, 0⟩ (Nat.le_refl _)
  simp only [hresult, Option.getD_some] at hw
  rw [hw] at hresult
  obtain ⟨hperm, hordinary, hencodes⟩ := drain_spec hlists _ _ _ hresult
  refine ⟨?_, ?_, ?_, ?_⟩
  · rw [← hrows, Json.sortByKey_sortByKey]
  · rw [← hrows]
    refine (Json.perm_sortByKey _).trans (hperm.trans ?_)
    simp only [Platform.rowsAhead, List.flatMap_cons, List.flatMap_nil, List.nil_append,
      List.append_nil, Root.files, hfirst, hsecond, Option.map_some, Option.getD_some, Node.filesAt,
      List.map_append]
    exact List.perm_append_comm
  · intro node hnode
    rcases List.mem_cons.mp hnode with rfl | hnode
    · exact ⟨lists, entries, hfirst,
        hordinary ⟨"dist", lists, entries⟩ (List.mem_cons_of_mem _ (List.mem_singleton_self _))⟩
    · rw [List.mem_singleton.mp hnode]
      exact ⟨lists', entries', hsecond, hordinary ⟨"incoming", lists', entries'⟩ List.mem_cons_self⟩
  · intro r hr
    rw [← hrows] at hr
    refine hencodes ?_ r ((Json.perm_sortByKey _).mem_iff.mp hr)
    intro r hr
    cases hr

end

end Supplementary.Security.Handoff
