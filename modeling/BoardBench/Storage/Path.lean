import BoardBench.Text.Search
import BoardBench.Text.Utf8

/-!
# Paths

A path is a list of steps, taken from the root or from where one stands. Slashes in a row are one
slash. A slash at the end asks that what the path leads to be a directory.

A path is taken apart once, and followed step by step then. The slash at the end is kept apart from
the steps, since it is no step: it asks something of what was found. What stays and what goes up are
steps like any others here, because what they lead to is for the tree to say.
-/

set_option autoImplicit false

namespace BoardBench

/-- A path taken apart. -/
structure Path where
  fromRoot : Bool
  steps : List String
  endsInSlash : Bool
deriving Repr, DecidableEq

namespace Path

def pieces : List Char → List (List Char)
  | [] => [[]]
  | c :: cs =>
    if c = '/' then [] :: pieces cs
    else
      match pieces cs with
      | [] => [[c]]
      | p :: ps => (c :: p) :: ps

def parse (text : String) : Path :=
  { fromRoot := text.toList.head? == some '/'
    steps := ((pieces text.toList).filter (!·.isEmpty)).map String.ofList
    endsInSlash := text.toList.getLast? == some '/' }

/-- The path leads nowhere: it has no step and does not start at the root. -/
def isEmpty (p : Path) : Bool :=
  !p.fromRoot && p.steps.isEmpty

def stay : String := "."

def up : String := ".."

/-- The steps that lead somewhere else. A first step that stays counts too, unless the path starts
at the root. -/
def properSteps (p : Path) : List String :=
  match p.steps with
  | s :: rest =>
    if s = stay ∧ p.fromRoot = false then s :: rest.filter (· != stay)
    else (s :: rest).filter (· != stay)
  | [] => []

/-- The path without its last proper step, if it has one. -/
def parent? (p : Path) : Option Path :=
  match p.properSteps with
  | [] => none
  | s :: rest =>
    some { fromRoot := p.fromRoot, steps := (s :: rest).dropLast, endsInSlash := false }

/-- The path of something in a directory. A name that starts at the root stands for itself. -/
def join (directory name : String) : String :=
  if name.toList.head? = some '/' then name
  else if directory.isEmpty || directory.toList.getLast? == some '/' then directory ++ name
  else directory ++ "/" ++ name

/-! ## Limits -/

/-- A path has fewer bytes than this. -/
def lengthLimit : Nat := 4096

/-- A step has no more bytes than this. -/
def stepLimit : Nat := 255

def stepTooLong (step : String) : Bool :=
  stepLimit < (Text.encode step).length

/-- The parent is a shorter path. -/
theorem length_parent? {p q : Path} (h : p.parent? = some q) :
    q.steps.length < p.steps.length := by
  have hle : p.properSteps.length ≤ p.steps.length := by
    unfold properSteps
    split
    · rename_i s rest hs
      split
      · simpa [hs] using List.length_filter_le _ rest
      · simpa [hs] using List.length_filter_le (· != stay) (s :: rest)
    · simp
  unfold parent? at h
  split at h
  · cases h
  · rename_i s rest hs
    cases h
    simp only [hs, List.length_cons, List.length_dropLast] at hle ⊢
    omega

end Path

end BoardBench
