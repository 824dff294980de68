import SpecForest.Event
import SpecForest.Source.Call
import SpecForest.Source.Lexer

/-!
# Scanning a source text

The declarations of a source text are its outermost calls that declare something, wherever they stand.
Code that is not such a call is stepped over token by token, into and out of brackets. Within a call, the
body of a container or of a subtree table is scanned in turn; nothing else in the call is.

A name that is being declared as a function, behind the word `func` and perhaps a receiver, is no call.
-/

namespace SpecForest.Source

/-- What stands directly before the next token. -/
inductive Prior
  | other
  /-- The word `func`. -/
  | func
  /-- The word `func` and one pair of parentheses. -/
  | receiver
  deriving DecidableEq

namespace Prior

/-- What stands before the token behind this one. -/
def afterToken (t : Token) : Prior :=
  if t.isName "func" then .func else .other

/-- What stands before the token behind a group. -/
def afterGroup (p : Prior) (d : Delimiter) : Prior :=
  if p = .func ∧ d = .paren then .receiver else .other

end Prior

/-- The declarations found, and the events on the way. -/
structure Scanned where
  declarations : List Declaration := []
  events : List Event := []

/-- First the one, then the other. -/
def Scanned.append (a b : Scanned) : Scanned :=
  ⟨a.declarations ++ b.declarations, a.events ++ b.events⟩

/-- The part of a call that is scanned in turn. -/
def scannedPart (k : CallKind) (inner : List TokenTree) : List TokenTree :=
  match k with
  | .container | .subtreeTable =>
    match bodyOf? (splitArguments inner) with
    | some f => f.body
    | none => []
  | _ => []

/-- What a call declares, given its name, what stands between its parentheses, and what was found in
the part that is scanned. -/
def declareCall (k : CallKind) (name : Token) (inner : List TokenTree) (below : Scanned) : Scanned :=
  let args := splitArguments inner
  let label := labelOf args
  match k with
  | .container =>
    { declarations := [.container label below.declarations]
      events := below.events ++ [.container label below.declarations.length] }
  | .leaf => { declarations := [.leaf label .noop], events := [.leaf label] }
  | .table =>
    let entries := entriesOf args
    { declarations :=
        [.table label ((bodyOf? args).bind (·.arity)) entries (.leaves .noop)]
      events := [.table label entries.length false] }
  | .subtreeTable =>
    let entries := entriesOf args
    { declarations :=
        [.table label ((bodyOf? args).bind (·.arity)) entries (.replay below.declarations)]
      events := below.events ++ [.table label entries.length true] }
  | .entry => { events := [.strayEntry name.start.line name.start.column] }

/-! ## Sizes -/

theorem weight_le_of_mem {t : TokenTree} {ts : List TokenTree} (h : t ∈ ts) :
    t.weight ≤ TokenTree.allWeight ts := by
  induction ts with
  | nil => simp at h
  | cons u rest ih =>
    simp only [TokenTree.allWeight]
    rcases List.mem_cons.mp h with rfl | h
    · omega
    · have := ih h
      omega

theorem allWeight_le_of_mem_splitArguments {ts piece : List TokenTree}
    (h : piece ∈ splitArguments ts) :
    TokenTree.allWeight piece ≤ TokenTree.allWeight ts := by
  induction ts generalizing piece with
  | nil => simp [splitArguments] at h
  | cons t rest ih =>
    rw [splitArguments] at h
    simp only [TokenTree.allWeight]
    split at h
    · rcases List.mem_cons.mp h with rfl | h
      · simp [TokenTree.allWeight]
      · have := ih h
        omega
    · split at h
      · simp only [List.mem_singleton] at h
        subst h
        simp [TokenTree.allWeight]
      · rename_i p ps hps
        rcases List.mem_cons.mp h with rfl | h
        · have hp : p ∈ splitArguments rest := by simp [hps]
          have := ih hp
          simp only [TokenTree.allWeight]
          omega
        · have hp : piece ∈ splitArguments rest := by simp [hps, h]
          have := ih hp
          omega

theorem allWeight_body_lt {arg : List TokenTree} {f : FunctionLiteral}
    (h : functionLiteral? arg = some f) :
    TokenTree.allWeight f.body < TokenTree.allWeight arg := by
  unfold functionLiteral? at h
  split at h
  · rename_i t o c params rest
    split at h
    · split at h
      · rename_i o' c' body hlast
        cases h
        have := weight_le_of_mem (List.mem_of_getLast? hlast)
        simp only [TokenTree.allWeight, TokenTree.weight] at this ⊢
        omega
      · simp at h
    · simp at h
  · simp at h

/-- The part that is scanned is no larger than the whole. -/
theorem allWeight_scannedPart_le (k : CallKind) (inner : List TokenTree) :
    TokenTree.allWeight (scannedPart k inner) ≤ TokenTree.allWeight inner := by
  have body : ∀ f, bodyOf? (splitArguments inner) = some f →
      TokenTree.allWeight f.body ≤ TokenTree.allWeight inner := by
    intro f h
    obtain ⟨arg, hmem, harg⟩ := List.exists_of_findSome?_eq_some h
    have := allWeight_body_lt harg
    have := allWeight_le_of_mem_splitArguments (List.mem_of_mem_drop hmem)
    omega
  unfold scannedPart
  split
  · split
    · exact body _ (by assumption)
    · simp [TokenTree.allWeight]
  · split
    · exact body _ (by assumption)
    · simp [TokenTree.allWeight]
  · simp [TokenTree.allWeight]

/-! ## The scan -/

/-- The declarations in some trees, given what stands before them. -/
def scanTrees (prior : Prior) (ts : List TokenTree) : Scanned :=
  match ts with
  | [] => {}
  | .token name :: .group opening closing .paren inner :: rest =>
    match if prior = .other then name.callKind? else none with
    | some k =>
      (declareCall k name inner (scanTrees .other (scannedPart k inner))).append
        (scanTrees .other rest)
    | none => scanTrees (.afterToken name) (.group opening closing .paren inner :: rest)
  | .token t :: rest => scanTrees (.afterToken t) rest
  | .group _ _ d inner :: rest =>
    (scanTrees .other inner).append (scanTrees (prior.afterGroup d) rest)
termination_by TokenTree.allWeight ts
decreasing_by
  · have := allWeight_scannedPart_le k inner
    simp only [TokenTree.allWeight, TokenTree.weight]
    omega
  all_goals
    simp only [TokenTree.allWeight, TokenTree.weight]
    omega

/-- The declarations of a source text with a name, and the events of the scan. -/
def scanNamed (name source : String) : Except SpecError Scanned :=
  let read : Except LexError (List Token × List TokenTree) := do
    let ts ← tokens source
    return (ts, ← group ts)
  match read with
  | .error e => .error (.structural
      (name ++ ":" ++ toString e.position.line ++ ":" ++ toString e.position.column)
      e.fault.message)
  | .ok (ts, trees) =>
    let found := scanTrees .other trees
    .ok { found with
      events := found.events ++ [.scanned name ts.length found.declarations.length] }

/-- The declarations of a source text in memory. -/
def scan (source : String) : Except SpecError Scanned :=
  scanNamed "<source>" source

end SpecForest.Source
