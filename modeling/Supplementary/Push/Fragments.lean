/-
# What the graph of a pattern matches

A tree matches from one position of the text to another (`SeqMatches`), with the whole text in sight
for its assertions.  The graph built from it links its first state to its last by exactly that, for
every graph in which the states built so far keep their edges.

Building only adds: to the current state, which has no edges yet, and to new states.  So what a
fragment does is settled when its last state is left, and `Extends` and `Joins` say it for whatever
the graph becomes.
-/
import Supplementary.Push.Patterns
import Supplementary.Lib.Thompson

namespace Supplementary.Push

open Supplementary Thompson

/-! ## 1. Matching -/

section Matching

variable (re : Engine) (text : List Nat)

/-- What a step knows of the text at a position. -/
def contextAt (i : Nat) : Context where
  previous := if i = 0 then none else text[i - 1]?
  character := text[i]?
  beginning := i = 0

/-- One character. -/
def ReadsOne (pattern : PyStr) (flags : Nat) (i k : Nat) : Prop :=
  (text[i]?).any (re.fullmatch pattern flags) = true ∧ k = i + 1

mutual

/-- A token matches the text from `i` to `k`; the parser has `minimum ≤ maximum`. -/
def TokenMatches (flags : Nat) : Token → Nat → Nat → Prop
  | .literal c => ReadsOne re text (escape c) flags
  | .charClass items => ReadsOne re text (classText items) flags
  | .subpattern add remove body => SeqMatches (Nat.ldiff (flags ||| add) remove) body
  | .branch branches => AnyMatches flags branches
  | .maxRepeat minimum maximum body => fun i k => ∃ n, minimum ≤ n ∧
      (∀ m ∈ maximum, n ≤ max minimum m) ∧ Runs (SeqMatches flags body) n i k
  | .at code => fun i k => asserted re (contextAt text i) flags code = true ∧ k = i

/-- A sequence matches when its tokens do, one after the other. -/
def SeqMatches (flags : Nat) : List Token → Nat → Nat → Prop
  | [] => fun i k => i = k
  | token :: tokens => fun i k => ∃ j, TokenMatches flags token i j ∧ SeqMatches flags tokens j k

/-- One of the branches matches. -/
def AnyMatches (flags : Nat) : List (List Token) → Nat → Nat → Prop
  | [] => fun _ _ => False
  | tokens :: branches => fun i k => SeqMatches flags tokens i k ∨ AnyMatches flags branches i k

end

/-! ## 2. Moving in a graph -/

/-- What an edge asks of the text. -/
def Passes (label : Label) (i k : Nat) : Prop :=
  match label with
  | .char pattern flags => ReadsOne re text pattern flags i k
  | .epsilon => k = i
  | .assert code flags => asserted re (contextAt text i) flags code = true ∧ k = i

/-- A move along an edge. -/
def Move (g : Graph) (s i t k : Nat) : Prop :=
  ∃ e ∈ out g s, e.target = t ∧ Passes re text e.label i k

end Matching

/-! ## 3. Edges -/

section Edges

variable {g : Graph} {s t : Nat} {label : Label}

theorem out_newState (s : Nat) : out (newState g) s = out g s := by
  unfold out newState
  rcases Nat.lt_trichotomy s g.length with h | rfl | h
  · simp [List.getD_eq_getElem?_getD, List.getElem?_append_left h]
  · simp [List.getD_eq_getElem?_getD]
  · have hlen : (g ++ [[]]).length ≤ s := by simp; omega
    rw [List.getD_eq_getElem?_getD, List.getD_eq_getElem?_getD, List.getElem?_eq_none hlen,
      List.getElem?_eq_none (by omega)]

theorem out_length (g : Graph) : out g g.length = [] := by simp [out]

@[simp] theorem length_newState : (newState g).length = g.length + 1 := by simp [newState]

@[simp] theorem length_addEdge : (addEdge g s label t).length = g.length := by simp [addEdge]

theorem out_addEdge_self (h : s < g.length) :
    out (addEdge g s label t) s = out g s ++ [⟨label, t⟩] := by
  simp [out, addEdge, List.getD_eq_getElem?_getD, h]

theorem out_addEdge_ne {r : Nat} (h : r ≠ s) : out (addEdge g s label t) r = out g r := by
  simp [out, addEdge, List.getD_eq_getElem?_getD, Ne.symm h]

end Edges

/-! ## 4. Fragments -/

section Fragments

variable {re : Engine} {text : List Nat}

/-- The states so far keep their edges in `G`, and the target is none of them. -/
def Settled (g G : Graph) (target : Nat) (inner : Nat → Prop) : Prop :=
  ∀ s, inner s → out G s = out g s ∧ s ≠ target

variable (re text) in
/-- From `g` to `g'` a fragment was built from `current` to the new state `last`, which is left
open. -/
structure Extends (g : Graph) (current : Nat) (g' : Graph) (last : Nat) (R : Nat → Nat → Prop) :
    Prop where
  grows : g.length ≤ g'.length
  frame : ∀ s < g.length, s ≠ current → out g' s = out g s
  new : last = current ∨ g.length ≤ last ∧ last < g'.length
  unused : out g' last = []
  links : ∀ G target,
    Settled g' G target (fun s => (s = current ∨ g.length ≤ s ∧ s < g'.length) ∧ s ≠ last) →
      Links (Move re text G) target [current] last R

variable (re text) in
/-- From `g` to `g'` a fragment was built from `current` to the old state `stop`. -/
structure Joins (g : Graph) (current : Nat) (g' : Graph) (stop : Nat) (R : Nat → Nat → Prop) :
    Prop where
  grows : g.length ≤ g'.length
  frame : ∀ s < g.length, s ≠ current → out g' s = out g s
  links : ∀ G target, Settled g' G target (fun s => s = current ∨ g.length ≤ s ∧ s < g'.length) →
      Links (Move re text G) target [current] stop R

variable (re text) in
/-- What a builder of a body does from any graph. -/
def Builds (build : Graph → Built) (R : Nat → Nat → Prop) : Prop :=
  ∀ g, (build g).first = g.length ∧
    Extends re text (newState g) g.length (build g).graph (build g).last R

variable {g g₁ g₂ G : Graph} {current stop last target : Nat} {R Q : Nat → Nat → Prop}

theorem Settled.mono {inner inner' : Nat → Prop} (h : Settled g G target inner)
    (hout : ∀ s, inner' s → inner s ∧ out g s = out g₁ s) : Settled g₁ G target inner' := by
  intro s hs
  obtain ⟨hin, heq⟩ := hout s hs
  obtain ⟨hG, hne⟩ := h s hin
  exact ⟨hG.trans heq, hne⟩

theorem forks_of_out {s : Nat} (ts : List Nat) (hs : s ≠ target)
    (hout : out G s = ts.map fun t => ⟨.epsilon, t⟩) : Forks (Move re text G) target s ts := by
  refine ⟨hs, fun i t j => ?_⟩
  rw [Move, hout]
  constructor
  · rintro ⟨e, he, rfl, hpass⟩
    obtain ⟨t, ht, rfl⟩ := List.mem_map.mp he
    exact ⟨ht, hpass⟩
  · rintro ⟨ht, rfl⟩
    exact ⟨⟨.epsilon, t⟩, List.mem_map_of_mem ht, rfl, rfl⟩

theorem Extends.refl (hopen : out g current = []) : Extends re text g current g current Eq :=
  ⟨le_rfl, fun _ _ _ => rfl, Or.inl rfl, hopen, fun _ _ _ => Links.refl current⟩

/-- One fragment after the other. -/
theorem Extends.trans (hcurrent : current < g.length) (h : Extends re text g current g₁ stop R)
    (h' : Extends re text g₁ stop g₂ last Q) :
    Extends re text g current g₂ last fun i k => ∃ j, R i j ∧ Q j k := by
  have hgrows := h.grows
  have hgrows' := h'.grows
  refine ⟨hgrows.trans hgrows', fun s hs hne => ?_, ?_, h'.unused, fun G target hG => ?_⟩
  · by_cases hstop : s = stop
    · rcases h.new with heq | hnew
      · exact absurd (hstop.trans heq) hne
      · omega
    · rw [h'.frame s (by omega) hstop, h.frame s hs hne]
  · rcases h'.new with rfl | hnew
    · rcases h.new with rfl | hnew
      · exact Or.inl rfl
      · exact Or.inr ⟨hnew.1, by omega⟩
    · exact Or.inr ⟨by omega, hnew.2⟩
  · refine (h.links G target (hG.mono fun s hs => ?_)).trans
      (h'.links G target (hG.mono fun s hs => ?_))
    · obtain ⟨hin, hne⟩ := hs
      have hlt : s < g₁.length := by omega
      refine ⟨⟨by omega, ?_⟩, h'.frame s hlt hne⟩
      rcases h'.new with rfl | hnew
      · exact hne
      · omega
    · refine ⟨⟨?_, hs.2⟩, rfl⟩
      rcases h.new with rfl | hnew <;> omega

/-- A fragment to a state that was allocated for it. -/
theorem Joins.extends (hcurrent : current < g.length)
    (h : Joins re text (newState g) current g₁ g.length R) :
    Extends re text g current g₁ g.length R := by
  have hgrows := h.grows
  rw [length_newState] at hgrows
  refine ⟨by omega, fun s hs hne => ?_, Or.inr ⟨le_rfl, by omega⟩, ?_, fun G target hG => ?_⟩
  · rw [h.frame s (by rw [length_newState]; omega) hne, out_newState]
  · rw [h.frame g.length (by rw [length_newState]; omega) (by omega), out_newState, out_length]
  · refine h.links G target (hG.mono fun s hs => ⟨⟨?_, ?_⟩, rfl⟩)
    · rw [length_newState] at hs
      omega
    · rw [length_newState] at hs
      omega

/-! ## 5. The pieces -/

theorem Joins.edge (hcurrent : current < g.length) (hopen : out g current = []) (label : Label)
    (stop : Nat) :
    Joins re text g current (addEdge g current label stop) stop (Passes re text label) := by
  refine ⟨by simp, fun s _ hne => out_addEdge_ne hne, fun G target hG => ?_⟩
  obtain ⟨hout, hne⟩ := hG current (Or.inl rfl)
  rw [out_addEdge_self hcurrent, hopen, List.nil_append] at hout
  refine Links.edge hne fun i x j => ?_
  rw [Move, hout]
  constructor
  · rintro ⟨e, he, rfl, hpass⟩
    rw [List.mem_singleton.mp he] at hpass ⊢
    exact ⟨rfl, hpass⟩
  · rintro ⟨rfl, hpass⟩
    exact ⟨⟨label, x⟩, List.mem_singleton_self _, rfl, hpass⟩

/-- The last state of a body that was just built is new and is not the state it is entered from. -/
theorem Builds.last_new {build : Graph → Built} (hbuild : Builds re text build R) (g : Graph) :
    g.length ≤ (build g).last ∧ (build g).last < (build g).graph.length := by
  have h := (hbuild g).2
  have hgrows := h.grows
  have hnew := h.new
  rw [length_newState] at hgrows hnew
  omega

theorem Builds.frame {build : Graph → Built} (hbuild : Builds re text build R) {g : Graph} {s : Nat}
    (hs : s < g.length) : out (build g).graph s = out g s := by
  rw [(hbuild g).2.frame s (by rw [length_newState]; omega) (by omega), out_newState]

theorem Builds.grows {build : Graph → Built} (hbuild : Builds re text build R) (g : Graph) :
    g.length < (build g).graph.length := by
  have hgrows := (hbuild g).2.grows
  rw [length_newState] at hgrows
  omega

/-- A body does in `G` what it was built for. -/
theorem Builds.links {build : Graph → Built} (hbuild : Builds re text build R) (g G : Graph)
    (target : Nat) (hG : Settled (build g).graph G target fun s =>
      (g.length ≤ s ∧ s < (build g).graph.length) ∧ s ≠ (build g).last) :
    Links (Move re text G) target [(build g).first] (build g).last R := by
  rw [(hbuild g).1]
  refine (hbuild g).2.links G target (hG.mono fun s hs => ⟨⟨?_, hs.2⟩, rfl⟩)
  have := hbuild.grows g
  rw [length_newState] at hs
  omega

/-- One copy of a body, entered from the cursor. -/
theorem Extends.copy {build : Graph → Built} (hbuild : Builds re text build R)
    (hcurrent : current < g.length) (hopen : out g current = []) :
    Extends re text g current (addEdge (build g).graph current .epsilon (build g).first)
      (build g).last R := by
  have hlast := hbuild.last_new g
  have hgrows := hbuild.grows g
  have hne : (build g).last ≠ current := by omega
  refine ⟨by rw [length_addEdge]; omega, fun s hs hs' => ?_,
    Or.inr ⟨hlast.1, by rw [length_addEdge]; omega⟩, ?_, fun G target hG => ?_⟩
  · rw [out_addEdge_ne hs', hbuild.frame hs]
  · rw [out_addEdge_ne hne, (hbuild g).2.unused]
  · obtain ⟨hout, hinner⟩ := hG current ⟨Or.inl rfl, hne.symm⟩
    rw [out_addEdge_self (by omega), hbuild.frame hcurrent, hopen] at hout
    refine (Links.fork (forks_of_out [(build g).first] hinner hout) ?_)
    refine hbuild.links _ G target (hG.mono fun s hs => ⟨⟨?_, hs.2⟩, out_addEdge_ne (by omega)⟩)
    rw [length_addEdge]
    omega

theorem Extends.copies {build : Graph → Built} (hbuild : Builds re text build R) (count : Nat)
    (hcurrent : current < g.length) (hopen : out g current = []) :
    Extends re text g current (copies build count g current).1 (copies build count g current).2
      (Runs R count) := by
  induction count generalizing g current with
  | zero => exact Extends.refl hopen
  | succ count ih =>
    have hcopy := Extends.copy hbuild hcurrent hopen
    have hlast := hbuild.last_new g
    exact hcopy.trans hcurrent (ih (by rw [length_addEdge]; omega) hcopy.unused)

/-- Copies that may be left out, the later ones first. -/
theorem Joins.optionals {build : Graph → Built} (hbuild : Builds re text build R) (count : Nat)
    (hcurrent : current < g.length) (hopen : out g current = []) (hstop : stop < g.length) :
    Joins re text g current (optionals build stop count g current) stop
      fun i k => ∃ n ≤ count, Runs R n i k := by
  induction count generalizing g current with
  | zero =>
    have hedge : Joins re text g current _ stop _ := Joins.edge hcurrent hopen .epsilon stop
    obtain ⟨hgrows, hframe, hlinks⟩ := hedge
    refine ⟨hgrows, hframe, fun G target hG => (hlinks G target hG).congr fun i k => ?_⟩
    constructor
    · intro h
      exact ⟨0, le_rfl, h.symm⟩
    · rintro ⟨n, hn, h⟩
      obtain rfl : n = 0 := by omega
      exact h.symm
  | succ count ih =>
    have hfirst := (hbuild (addEdge g current .epsilon stop)).1
    have hlast := hbuild.last_new (addEdge g current .epsilon stop)
    have hgrows := hbuild.grows (addEdge g current .epsilon stop)
    have hframe := fun s => hbuild.frame (g := addEdge g current .epsilon stop) (s := s)
    have hunused := (hbuild (addEdge g current .epsilon stop)).2.unused
    have hbody := hbuild.links (addEdge g current .epsilon stop)
    simp only [length_addEdge] at hfirst hlast hgrows hframe hbody
    rw [Push.optionals]
    generalize build (addEdge g current .epsilon stop) = b at *
    have hne : b.last ≠ current := by omega
    have hrest : Joins re text (addEdge b.graph current .epsilon b.first) b.last _ stop _ := ih
      (by rw [length_addEdge]; omega) (by rw [out_addEdge_ne hne, hunused])
      (by rw [length_addEdge]; omega)
    have hgrows' := hrest.grows
    rw [length_addEdge] at hgrows'
    have hkeep : ∀ s < b.graph.length, s ≠ b.last →
        out (Push.optionals build stop count (addEdge b.graph current .epsilon b.first) b.last) s =
          out (addEdge b.graph current .epsilon b.first) s := fun s hs hs' =>
      hrest.frame s (by rw [length_addEdge]; omega) hs'
    refine ⟨by omega, fun s hs hs' => ?_, fun G target hG => ?_⟩
    · rw [hkeep s (by omega) (by omega), out_addEdge_ne hs', hframe s hs, out_addEdge_ne hs']
    · obtain ⟨hout, hinner⟩ := hG current (Or.inl rfl)
      rw [hkeep current (by omega) hne.symm, out_addEdge_self (by omega), hframe current hcurrent,
        out_addEdge_self hcurrent, hopen] at hout
      have hcopy : Links (Move re text G) target [b.first] b.last R := by
        refine hbody G target (hG.mono fun s hs => ⟨Or.inr (by omega), ?_⟩)
        rw [hkeep s (by omega) hs.2, out_addEdge_ne (by omega)]
      have hmore := hrest.links G target (hG.mono fun s hs => ⟨?_, rfl⟩)
      · refine (Links.fork (forks_of_out [stop, b.first] hinner hout)
          ((Links.refl stop).append (hcopy.trans hmore))).congr fun i k => ?_
        constructor
        · rintro (rfl | ⟨j, hij, n, hn, hjk⟩)
          · exact ⟨0, Nat.zero_le _, rfl⟩
          · exact ⟨n + 1, by omega, j, hij, hjk⟩
        · rintro ⟨n, hn, hik⟩
          cases n with
          | zero => exact Or.inl hik
          | succ n =>
            obtain ⟨j, hij, hjk⟩ := hik
            exact Or.inr ⟨j, hij, n, by omega, hjk⟩
      · rw [length_addEdge] at hs
        omega

/-- A loop through a body. -/
theorem Joins.loop {build : Graph → Built} (hbuild : Builds re text build R)
    (hcurrent : current < g.length) (hopen : out g current = []) (stop : Nat) :
    Joins re text g current (loop build stop g current) stop fun i k => ∃ n, Runs R n i k := by
  have hlast := hbuild.last_new (addEdge g current .epsilon stop)
  have hgrows := hbuild.grows (addEdge g current .epsilon stop)
  have hframe := fun s => hbuild.frame (g := addEdge g current .epsilon stop) (s := s)
  have hunused := (hbuild (addEdge g current .epsilon stop)).2.unused
  have hbody := hbuild.links (addEdge g current .epsilon stop)
  simp only [length_addEdge] at hlast hgrows hframe hbody
  rw [Push.loop]
  generalize build (addEdge g current .epsilon stop) = b at *
  have hne : b.last ≠ current := by omega
  refine ⟨by simp only [length_addEdge]; omega, fun s hs hs' => ?_, fun G target hG => ?_⟩
  · rw [out_addEdge_ne (by omega), out_addEdge_ne hs', hframe s hs, out_addEdge_ne hs']
  · simp only [length_addEdge] at hG
    obtain ⟨hout, hinner⟩ := hG current (Or.inl rfl)
    rw [out_addEdge_ne hne.symm, out_addEdge_self (by omega), hframe current hcurrent,
      out_addEdge_self hcurrent, hopen] at hout
    obtain ⟨hback, hinner'⟩ := hG b.last (Or.inr ⟨by omega, by omega⟩)
    rw [out_addEdge_self (by rw [length_addEdge]; omega), out_addEdge_ne hne, hunused] at hback
    have hcopy : Links (Move re text G) target [b.first] b.last R := by
      refine hbody G target (hG.mono fun s hs => ⟨Or.inr (by omega), ?_⟩)
      rw [out_addEdge_ne hs.2, out_addEdge_ne (by omega)]
    exact Links.loop (forks_of_out [stop, b.first] hinner hout) hcopy
      (forks_of_out [current] hinner' hback)

variable (re text) in
/-- From `g` to `g'` ways from `current` to the old state `stop` were added to those it had. -/
structure Opens (g : Graph) (current : Nat) (g' : Graph) (stop : Nat) (R : Nat → Nat → Prop) :
    Prop where
  grows : g.length ≤ g'.length
  frame : ∀ s < g.length, s ≠ current → out g' s = out g s
  ways : ∃ ts : List Nat, (out g' current = out g current ++ ts.map fun t => ⟨.epsilon, t⟩) ∧
    ∀ G target, Settled g' G target (fun s => g.length ≤ s ∧ s < g'.length) →
      Links (Move re text G) target ts stop R

theorem Opens.joins (hopen : out g current = []) (h : Opens re text g current g₁ stop R) :
    Joins re text g current g₁ stop R := by
  obtain ⟨ts, hout, hlinks⟩ := h.ways
  refine ⟨h.grows, h.frame, fun G target hG => ?_⟩
  obtain ⟨hcurrent, hinner⟩ := hG current (Or.inl rfl)
  rw [hout, hopen, List.nil_append] at hcurrent
  exact (Links.fork (forks_of_out ts hinner hcurrent)
    (hlinks G target (hG.mono fun s hs => ⟨Or.inr hs, rfl⟩)))

theorem Opens.nil (g : Graph) (current stop : Nat) :
    Opens re text g current g stop fun _ _ => False :=
  ⟨le_rfl, fun _ _ _ => rfl, [], by simp, fun _ _ _ => Links.nil⟩

theorem Opens.append (hcurrent : current < g.length) (h : Opens re text g current g₁ stop R)
    (h' : Opens re text g₁ current g₂ stop Q) :
    Opens re text g current g₂ stop fun i k => R i k ∨ Q i k := by
  have hgrows := h.grows
  have hgrows' := h'.grows
  obtain ⟨ts, hout, hlinks⟩ := h.ways
  obtain ⟨ts', hout', hlinks'⟩ := h'.ways
  refine ⟨hgrows.trans hgrows', fun s hs hne => ?_, ts ++ ts', ?_, fun G target hG => ?_⟩
  · rw [h'.frame s (by omega) hne, h.frame s hs hne]
  · rw [hout', hout, List.map_append, List.append_assoc]
  · refine (hlinks G target (hG.mono fun s hs => ?_)).append
      (hlinks' G target (hG.mono fun s hs => ?_))
    · exact ⟨by omega, h'.frame s (by omega) (by omega)⟩
    · exact ⟨by omega, rfl⟩

/-- A body that is entered from one state and left to another. -/
theorem Opens.through {build : Graph → Built} (hbuild : Builds re text build R)
    (hcurrent : current < g.length) (stop : Nat) :
    Opens re text g current (through (build g) current stop) stop R := by
  have hlast := hbuild.last_new g
  have hgrows := hbuild.grows g
  have hne : (build g).last ≠ current := by omega
  refine ⟨by simp only [Push.through, length_addEdge]; omega, fun s hs hs' => ?_,
    [(build g).first], ?_, fun G target hG => ?_⟩
  · rw [Push.through, out_addEdge_ne (by omega), out_addEdge_ne hs', hbuild.frame hs]
  · rw [Push.through, out_addEdge_ne hne.symm, out_addEdge_self (by omega), hbuild.frame hcurrent]
    rfl
  · simp only [Push.through, length_addEdge] at hG
    obtain ⟨hout, hinner⟩ := hG (build g).last hlast
    rw [out_addEdge_self (by rw [length_addEdge]; omega), out_addEdge_ne hne,
      (hbuild g).2.unused] at hout
    have hbody : Links (Move re text G) target [(build g).first] (build g).last R := by
      refine hbuild.links _ G target (hG.mono fun s hs => ⟨hs.1, ?_⟩)
      rw [out_addEdge_ne hs.2, out_addEdge_ne (by omega)]
    refine (hbody.trans (Links.fork (forks_of_out [stop] hinner hout)
      (Links.refl stop))).congr fun i k => ?_
    constructor
    · rintro ⟨j, hij, rfl⟩
      exact hij
    · intro h
      exact ⟨k, h, rfl⟩

/-! ## 6. Trees -/

theorem Extends.joins (hcurrent : current < g.length) (h : Extends re text g current g₁ last R)
    (h' : Joins re text g₁ last g₂ stop Q) :
    Joins re text g current g₂ stop fun i k => ∃ j, R i j ∧ Q j k := by
  have hgrows := h.grows
  have hgrows' := h'.grows
  have hnew := h.new
  refine ⟨hgrows.trans hgrows', fun s hs hne => ?_, fun G target hG => ?_⟩
  · rw [h'.frame s (by omega) (by omega), h.frame s hs hne]
  · refine (h.links G target (hG.mono fun s hs => ?_)).trans
      (h'.links G target (hG.mono fun s hs => ?_))
    · exact ⟨by omega, h'.frame s (by omega) hs.2⟩
    · exact ⟨by omega, rfl⟩

theorem Joins.congr (h : Joins re text g current g₁ stop R) (hR : ∀ i k, R i k ↔ Q i k) :
    Joins re text g current g₁ stop Q :=
  ⟨h.grows, h.frame, fun G target hG => (h.links G target hG).congr hR⟩

/-- At least so many rounds. -/
theorem runs_from {n : Nat} {i k : Nat} :
    (∃ j, Runs R n i j ∧ ∃ r, Runs R r j k) ↔ ∃ r, n ≤ r ∧ Runs R r i k := by
  constructor
  · rintro ⟨j, hij, r, hjk⟩
    exact ⟨n + r, Nat.le_add_right n r, runs_add.mpr ⟨j, hij, hjk⟩⟩
  · rintro ⟨r, hn, h⟩
    obtain ⟨j, hij, hjk⟩ := runs_add.mp (show Runs R (n + (r - n)) i k by
      rwa [Nat.add_sub_cancel' hn])
    exact ⟨j, hij, r - n, hjk⟩

/-- At least so many rounds and at most so many. -/
theorem runs_between {n m : Nat} {i k : Nat} :
    (∃ j, Runs R n i j ∧ ∃ r ≤ m - n, Runs R r j k) ↔ ∃ r, n ≤ r ∧ r ≤ max n m ∧ Runs R r i k := by
  constructor
  · rintro ⟨j, hij, r, hr, hjk⟩
    exact ⟨n + r, Nat.le_add_right n r, by omega, runs_add.mpr ⟨j, hij, hjk⟩⟩
  · rintro ⟨r, hn, hm, h⟩
    obtain ⟨j, hij, hjk⟩ := runs_add.mp (show Runs R (n + (r - n)) i k by
      rwa [Nat.add_sub_cancel' hn])
    exact ⟨j, hij, r - n, by omega, hjk⟩

theorem builds_of_extends (re : Engine) (text : List Nat) {flags : Nat} {tokens : List Token}
    (h : ∀ g current, current < g.length → out g current = [] →
      Extends re text g current (buildTokens flags tokens g current).1
        (buildTokens flags tokens g current).2 R) : Builds re text (build flags tokens) R := by
  intro g
  exact ⟨rfl, h (newState g) g.length (by simp) (by rw [out_newState, out_length])⟩

mutual

/-- **The construction.**  One case for each operator. -/
theorem buildToken_joins (flags : Nat) (token : Token) (g : Graph) (current stop : Nat)
    (hcurrent : current < g.length) (hopen : out g current = []) (hstop : stop < g.length) :
    Joins re text g current (buildToken flags token g current stop) stop
      (TokenMatches re text flags token) := by
  match token with
  | .literal c =>
    simp only [buildToken, TokenMatches]
    exact Joins.edge hcurrent hopen _ stop
  | .charClass items =>
    simp only [buildToken, TokenMatches]
    exact Joins.edge hcurrent hopen _ stop
  | .at code =>
    simp only [buildToken, TokenMatches]
    exact Joins.edge hcurrent hopen _ stop
  | .subpattern add remove body =>
    simp only [buildToken, TokenMatches]
    have hbuild := builds_of_extends re text
      (buildTokens_extends (Nat.ldiff (flags ||| add) remove) body)
    exact (Opens.through hbuild hcurrent stop).joins hopen
  | .branch branches =>
    simp only [buildToken, TokenMatches]
    exact (buildBranches_opens flags branches g current stop hcurrent).joins hopen
  | .maxRepeat minimum maximum body =>
    have hbuild := builds_of_extends re text (buildTokens_extends flags body)
    have hcopies := Extends.copies hbuild minimum hcurrent hopen
    have hgrows := hcopies.grows
    have hnew := hcopies.new
    simp only [TokenMatches]
    cases maximum with
    | none =>
      refine (hcopies.joins hcurrent (Joins.loop hbuild (by omega) hcopies.unused stop)).congr
        fun i k => ?_
      simp [runs_from]
    | some maximum =>
      refine (hcopies.joins hcurrent (Joins.optionals hbuild (maximum - minimum) (by omega) hcopies.unused
        (by omega))).congr fun i k => ?_
      rw [runs_between]
      simp

theorem buildTokens_extends (flags : Nat) (tokens : List Token) (g : Graph) (current : Nat)
    (hcurrent : current < g.length) (hopen : out g current = []) :
    Extends re text g current (buildTokens flags tokens g current).1
      (buildTokens flags tokens g current).2 (SeqMatches re text flags tokens) := by
  match tokens with
  | [] =>
    simp only [buildTokens, SeqMatches]
    exact Extends.refl hopen
  | token :: tokens =>
    simp only [buildTokens, SeqMatches]
    have htoken := (buildToken_joins flags token (newState g) current g.length
      (by rw [length_newState]; omega) (by rw [out_newState, hopen]) (by simp)).extends hcurrent
    have hlast := htoken.new
    exact htoken.trans hcurrent (buildTokens_extends flags tokens _ _ (by omega) htoken.unused)

theorem buildBranches_opens (flags : Nat) (branches : List (List Token)) (g : Graph)
    (current stop : Nat) (hcurrent : current < g.length) :
    Opens re text g current (buildBranches flags branches g current stop) stop
      (AnyMatches re text flags branches) := by
  match branches with
  | [] =>
    simp only [buildBranches, AnyMatches]
    exact Opens.nil g current stop
  | tokens :: branches =>
    simp only [buildBranches, AnyMatches]
    have hbuild := builds_of_extends re text (buildTokens_extends flags tokens)
    have hway := Opens.through hbuild hcurrent stop
    have hgrows := hway.grows
    exact hway.append hcurrent (buildBranches_opens flags branches _ current stop (by omega))

end

end Fragments

end Supplementary.Push
