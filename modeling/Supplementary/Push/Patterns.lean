/-
# The streaming patterns

`StreamingPatterns` turns the parse trees of regular expressions into one automaton and runs it a
character at a time; a scanner keeps the states that are live, the character before and nothing else
of the text.

The trees are those of CPython's parser, restricted to the operators the automaton has edges for: on
any other the constructor or a step raises.  What one compiled character or class matches is the
interpreter's (`Engine`).
-/
import Supplementary.Python.Str
import Mathlib.Data.Nat.Bitwise

namespace Supplementary.Push

open Supplementary

/-! ## 1. Parse trees -/

/-- The categories a class may name. -/
inductive Category
  | space
  | notSpace
  | word
  | digit
  deriving DecidableEq, Repr

/-- A piece of a class. -/
inductive ClassItem
  | negate
  | literal (c : Nat)
  | range (low high : Nat)
  | category (named : Category)
  deriving DecidableEq, Repr

/-- The assertions of an `AT`. -/
inductive AtCode
  | boundary
  | beginning
  | beginningString
  | endString
  deriving DecidableEq, Repr

/-- A token of the parse tree; `maximum` is `none` for `MAXREPEAT`. -/
inductive Token
  | literal (argument : Nat)
  | charClass (argument : List ClassItem)
  | subpattern (add remove : Nat) (body : List Token)
  | branch (branches : List (List Token))
  | maxRepeat (minimum : Nat) (maximum : Option Nat) (body : List Token)
  | at (argument : AtCode)

/-- A parsed pattern with the flags of its state. -/
structure Pattern where
  tokens : List Token
  flags : Nat

/-- `re.MULTILINE`. -/
def isMultiline (flags : Nat) : Bool := flags.testBit 3

/-! ## 2. Characters -/

/-- What the interpreter supplies: `re.compile(pattern, flags).fullmatch(character)` of one
character, and `character.isalnum()`. -/
structure Engine where
  fullmatch : (pattern : PyStr) → (flags : Nat) → (character : Nat) → Bool
  isAlnum : Nat → Bool

/-- `re.escape(chr(c))`. -/
def escape (c : Nat) : PyStr :=
  if c ∈ ("()[]\x7b\x7d?*+-|^$\\.&~# \t\n\r\x0b\x0c".toList.map Char.toNat) then ⟨[92, c]⟩ else ⟨[c]⟩

def Category.text : Category → PyStr
  | .space => "\\s"
  | .notSpace => "\\S"
  | .word => "\\w"
  | .digit => "\\d"

def ClassItem.text : ClassItem → PyStr
  | .negate => "^"
  | .literal c => escape c
  | .range low high => escape low ++ ("-" : PyStr) ++ escape high
  | .category named => named.text

/-- `"[" + "".join(pieces) + "]"`. -/
def classText (items : List ClassItem) : PyStr :=
  ⟨("[" : PyStr).codePoints ++ items.flatMap (fun item => item.text.codePoints) ++
    ("]" : PyStr).codePoints⟩

/-! ## 3. The graph -/

/-- The first two parts of an edge. -/
inductive Label
  | char (pattern : PyStr) (flags : Nat)
  | epsilon
  | assert (code : AtCode) (flags : Nat)
  deriving DecidableEq

structure Edge where
  label : Label
  target : Nat
  deriving DecidableEq

/-- `self.edges`. -/
abbrev Graph := List (List Edge)

/-- `self.edges[state]`. -/
def out (g : Graph) (s : Nat) : List Edge := g.getD s []

/-- `state()`; the new state is the length before. -/
def newState (g : Graph) : Graph := g ++ [[]]

/-- `self.edges[state].append((label, target))`. -/
def addEdge (g : Graph) (s : Nat) (label : Label) (target : Nat) : Graph :=
  g.modify s (· ++ [⟨label, target⟩])

/-- The two states `build` returns and the graph after it. -/
structure Built where
  first : Nat
  last : Nat
  graph : Graph

/-- `for _ in range(minimum)`: copies of the body in a row; the state after them. -/
def copies (build : Graph → Built) : (count : Nat) → Graph → (cursor : Nat) → Graph × Nat
  | 0, g, cursor => (g, cursor)
  | count + 1, g, cursor =>
    let b := build g
    copies build count (addEdge b.graph cursor .epsilon b.first) b.last

/-- `for _ in range(maximum - minimum)` and the edge after it: each copy may be left out. -/
def optionals (build : Graph → Built) (stop : Nat) : (count : Nat) → Graph → (cursor : Nat) → Graph
  | 0, g, cursor => addEdge g cursor .epsilon stop
  | count + 1, g, cursor =>
    let b := build (addEdge g cursor .epsilon stop)
    optionals build stop count (addEdge b.graph cursor .epsilon b.first) b.last

/-- A loop through the body. -/
def loop (build : Graph → Built) (stop : Nat) (g : Graph) (cursor : Nat) : Graph :=
  let b := build (addEdge g cursor .epsilon stop)
  addEdge (addEdge b.graph cursor .epsilon b.first) b.last .epsilon cursor

/-- A body that is entered from one state and left to another. -/
def through (b : Built) (current stop : Nat) : Graph :=
  addEdge (addEdge b.graph current .epsilon b.first) b.last .epsilon stop

mutual

/-- One round of the loop of `build`: the edges between the current state and the next. -/
def buildToken (flags : Nat) : Token → Graph → (current stop : Nat) → Graph
  | .literal c, g, current, stop => addEdge g current (.char (escape c) flags) stop
  | .charClass items, g, current, stop => addEdge g current (.char (classText items) flags) stop
  | .subpattern add remove body, g, current, stop =>
    let (graph, last) := buildTokens (Nat.ldiff (flags ||| add) remove) body (newState g) g.length
    through ⟨g.length, last, graph⟩ current stop
  | .branch branches, g, current, stop => buildBranches flags branches g current stop
  | .maxRepeat minimum maximum body, g, current, stop =>
    let build := fun g : Graph =>
      let (graph, last) := buildTokens flags body (newState g) g.length
      Built.mk g.length last graph
    let (g, cursor) := copies build minimum g current
    match maximum with
    | none => loop build stop g cursor
    | some maximum => optionals build stop (maximum - minimum) g cursor
  | .at code, g, current, stop => addEdge g current (.assert code flags) stop

/-- The loop of `build`: the graph and `current` at its end. -/
def buildTokens (flags : Nat) : List Token → Graph → (current : Nat) → Graph × Nat
  | [], g, current => (g, current)
  | token :: tokens, g, current =>
    buildTokens flags tokens (buildToken flags token (newState g) current g.length) g.length

def buildBranches (flags : Nat) : List (List Token) → Graph → (current stop : Nat) → Graph
  | [], g, _, _ => g
  | tokens :: branches, g, current, stop =>
    let (graph, last) := buildTokens flags tokens (newState g) g.length
    buildBranches flags branches (through ⟨g.length, last, graph⟩ current stop) current stop

end

/-- `build(tokens, flags)`. -/
def build (flags : Nat) (tokens : List Token) (g : Graph) : Built :=
  let (graph, last) := buildTokens flags tokens (newState g) g.length
  ⟨g.length, last, graph⟩

/-- `StreamingPatterns`: the graph, the first state of each pattern and the mask of each last one. -/
structure Machine where
  edges : Graph
  starts : List Nat
  accepts : List (Nat × Nat)

/-- `for number, pattern in enumerate(patterns)`. -/
def addPatterns : (number : Nat) → List Pattern → Machine → Machine
  | _, [], machine => machine
  | number, pattern :: patterns, machine =>
    let b := build pattern.flags pattern.tokens machine.edges
    addPatterns (number + 1) patterns
      ⟨b.graph, machine.starts ++ [b.first], (b.last, 1 <<< number) :: machine.accepts⟩

/-- `StreamingPatterns(patterns)`. -/
def machineOf (patterns : List Pattern) : Machine := addPatterns 0 patterns ⟨[], [], []⟩

/-! ## 4. A step -/

/-- What a step knows of the text. -/
structure Context where
  previous : Option Nat
  character : Option Nat
  beginning : Bool

/-- `character.isalnum() or character == "_"`. -/
def Engine.isWord (re : Engine) (c : Nat) : Bool := re.isAlnum c || c = 95

/-- Whether an assertion passes. -/
def asserted (re : Engine) (c : Context) (flags : Nat) : AtCode → Bool
  | .boundary => c.previous.any re.isWord != c.character.any re.isWord
  | .beginning => c.beginning || (isMultiline flags && c.previous = some 10)
  | .beginningString => c.beginning
  | .endString => c.character.isNone

/-- `passed`: an edge that reads no character. -/
def passed (re : Engine) (c : Context) : Label → Bool
  | .char _ _ => false
  | .epsilon => true
  | .assert code flags => asserted re c flags code

/-- `self.accepts.get(current, 0)`. -/
def Machine.mask (machine : Machine) (s : Nat) : Nat := (machine.accepts.lookup s).getD 0

/-- `for kind, value, target in self.edges[current]`: the states and what is pending. -/
def visitEdges (re : Engine) (c : Context) :
    List Edge → (states pending : List Nat) → List Nat × List Nat
  | [], states, pending => (states, pending)
  | e :: edges, states, pending =>
    if passed re c e.label ∧ e.target ∉ states then
      visitEdges re c edges (e.target :: states) (e.target :: pending)
    else visitEdges re c edges states pending

/-- `while pending`.  A state is pending once, and it was there from the start or is where an edge
leads, so that many rounds are enough. -/
def closure (re : Engine) (machine : Machine) (c : Context) :
    (rounds : Nat) → (pending states : List Nat) → (matched : Nat) → List Nat × Nat
  | 0, _, states, matched => (states, matched)
  | _ + 1, [], states, matched => (states, matched)
  | rounds + 1, current :: pending, states, matched =>
    let (states, pending) := visitEdges re c (out machine.edges current) states pending
    closure re machine c rounds pending states (matched ||| machine.mask current)

/-- The states a character leads to. -/
def following (re : Engine) (machine : Machine) (states : List Nat) (character : Nat) : List Nat :=
  (states.flatMap fun s => (out machine.edges s).filterMap fun e =>
    match e.label with
    | .char pattern flags => if re.fullmatch pattern flags character then some e.target else none
    | _ => none).dedup

/-- `_step(active, previous, character, beginning)`; the order of the states it returns is of no
consequence. -/
def step (re : Engine) (machine : Machine) (active : List Nat) (c : Context) : List Nat × Nat :=
  let states := (active ++ machine.starts).dedup
  let rounds := states.length + machine.edges.flatten.length
  let (states, matched) := closure re machine c rounds states states 0
  (match c.character with
    | some character => following re machine states character
    | none => [], matched)

/-! ## 5. The scanner -/

/-- `PatternScanner`. -/
structure Scanner where
  active : List Nat := []
  previous : Option Nat := none
  beginning : Bool := true
  matched : Nat := 0

/-- One round of the loop of `feed`. -/
def Scanner.feedOne (re : Engine) (machine : Machine) (s : Scanner) (character : Nat) : Scanner :=
  let (active, matched) := step re machine s.active ⟨s.previous, some character, s.beginning⟩
  ⟨active, some character, false, s.matched ||| matched⟩

/-- `feed(text)`. -/
def Scanner.feed (re : Engine) (machine : Machine) (s : Scanner) (text : List Nat) : Scanner :=
  text.foldl (Scanner.feedOne re machine) s

/-- `finish()`. -/
def Scanner.finish (re : Engine) (machine : Machine) (s : Scanner) : Nat :=
  s.matched ||| (step re machine s.active ⟨s.previous, none, s.beginning⟩).2

/-- `scan_chunks(chunks)`, with the machine of `content_scanner`. -/
def scanChunks (re : Engine) (machine : Machine) (chunks : List (List Nat)) : Nat :=
  (chunks.foldl (Scanner.feed re machine) {}).finish re machine

end Supplementary.Push
