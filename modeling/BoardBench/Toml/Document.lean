import BoardBench.Toml.Scalar
import BoardBench.Toml.Table

/-!
# TOML documents

A document is a list of statements, one a line: the header of a table, the header of a further
table of an array, or an assignment. `statements` reads them and `parse` puts them together.

Values nest in arrays and inline tables, but only so deep; the remaining depth is what the readers
of nested values recurse on.
-/

set_option autoImplicit false

namespace BoardBench.Toml

/-- Values nest less deep than this, and keys have fewer parts. -/
def nestingLimit : Nat := 80

/-! ## Between values -/

/-- Drops what may stand between the items of an array: blanks, line ends and comments. -/
def skipFiller (cs : List Char) : List Char :=
  match skipLines cs with
  | '#' :: comment =>
    match newline? (comment.dropWhile isPrintable) with
    | some below => if _h : below.length < cs.length then skipFiller below else below
    | none => '#' :: comment
  | rest => rest
termination_by cs.length

/-- The end of a line: blanks, a comment perhaps, and a line end or the end of the document. -/
def lineEnd (cs : List Char) : Option (List Char) :=
  let rest := match skipSpaces cs with
    | '#' :: comment => comment.dropWhile isPrintable
    | rest => rest
  match rest with
  | [] => some []
  | _ => newline? rest

/-! ## Keys -/

/-- The character may stand in a key without quotation marks. -/
def isKeyChar (c : Char) : Bool :=
  c.isAlphanum || c == '_' || c == '-'

def keyPart (cs : List Char) : Option (String × List Char) :=
  match cs with
  | '"' :: _ => quotation .basic cs
  | '\'' :: _ => quotation .literal cs
  | _ =>
    let bare := cs.takeWhile isKeyChar
    if bare.isEmpty then none else some (String.ofList bare, cs.dropWhile isKeyChar)

/-- The parts of a key, with blanks around each. -/
def keyParts (cs : List Char) : Option (List String × List Char) := do
  let (part, rest) ← keyPart (skipSpaces cs)
  match skipSpaces rest with
  | '.' :: more =>
    if _h : more.length < cs.length then
      let (parts, out) ← keyParts more
      some (part :: parts, out)
    else none
  | out => some ([part], out)
termination_by cs.length

def key : Reader (List String) := fun cs => do
  let (parts, out) ← keyParts cs
  if parts.length < nestingLimit then some (parts, out) else none

/-! ## Values -/

/-- The items of an array, behind its opening bracket. A comma may stand behind the last. -/
def arrayItems (item : Reader Value) (cs : List Char) : Option (List Value × List Char) :=
  match skipFiller cs with
  | ']' :: out => some ([], out)
  | start => do
    let (v, rest) ← item start
    match skipFiller rest with
    | ',' :: more =>
      if _h : more.length < cs.length then
        let (vs, out) ← arrayItems item more
        some (v :: vs, out)
      else none
    | ']' :: out => some ([v], out)
    | _ => none
termination_by cs.length

/-- An assignment: a key, an equals sign and a value. -/
def assignment (item : Reader Value) : Reader (List String × Value) := fun cs => do
  let (path, rest) ← key cs
  let rest ← expect '=' rest
  let (v, out) ← item (skipSpaces rest)
  some ((path, v), out)

/-- The assignments of an inline table, behind its opening brace; there is at least one. -/
def inlineItems (item : Reader Value) (cs : List Char) :
    Option (List (List String × Value) × List Char) := do
  let (entry, rest) ← assignment item cs
  match skipSpaces rest with
  | ',' :: more =>
    if _h : more.length < cs.length then
      let (entries, out) ← inlineItems item more
      some (entry :: entries, out)
    else none
  | '\x7d' :: out => some ([entry], out)
  | _ => none
termination_by cs.length

/-- A value in which arrays and inline tables nest at most `depth` times. -/
def value (depth : Nat) (cs : List Char) : Option (Value × List Char) :=
  match cs with
  | '[' :: rest =>
    match depth with
    | 0 => none
    | depth + 1 => (arrayItems (value depth) rest).map fun (vs, out) => (.array vs, out)
  | '\x7b' :: rest =>
    match depth with
    | 0 => none
    | depth + 1 =>
      match skipSpaces rest with
      | '\x7d' :: out => some (.table [], out)
      | _ => do
        let (entries, out) ← inlineItems (value depth) rest
        let v ← inlineTable entries
        some (v, out)
  | _ => scalar cs
termination_by structural depth

/-! ## Statements -/

/-- One line of a document that says something. -/
inductive Statement where
  | header (path : List String)
  | element (path : List String)
  | assignment (path : List String) (v : Value)
deriving Repr

def statement : Reader Statement := fun cs => do
  match cs with
  | '[' :: '[' :: rest =>
    let (path, rest) ← key rest
    let rest ← expect ']' rest
    let rest ← expect ']' rest
    let out ← lineEnd rest
    some (.element path, out)
  | '[' :: rest =>
    let (path, rest) ← key rest
    let rest ← expect ']' rest
    let out ← lineEnd rest
    some (.header path, out)
  | _ =>
    let ((path, v), rest) ← assignment (value (nestingLimit - 1)) cs
    let out ← lineEnd rest
    some (.assignment path v, out)

/-- Reads the statements of a document. Lines that say nothing are passed over. -/
def statements (cs : List Char) : Option (List Statement) :=
  match skipSpaces cs with
  | [] => some []
  | start =>
    match lineEnd start with
    | some rest => if _h : rest.length < cs.length then statements rest else none
    | none => do
      let (s, rest) ← statement start
      if _h : rest.length < cs.length then
        let ss ← statements rest
        some (s :: ss)
      else none
termination_by cs.length

/-! ## Documents -/

/-- A document half put together: its top table, and the path of the table that assignments go
to. -/
structure Assembly where
  top : Entries
  path : List String

def Assembly.add (a : Assembly) : Statement → Option Assembly
  | .header path => do
    let last ← path.getLast?
    let top ← a.top.modifyAt (·.openTable last) path.dropLast
    some ⟨top, path⟩
  | .element path => do
    let last ← path.getLast?
    let top ← a.top.modifyAt (·.openElement last) path.dropLast
    some ⟨top, path⟩
  | .assignment path v => do
    let top ← a.top.modifyAt (Entries.assign v path) a.path
    some ⟨top, a.path⟩

def assemble (ss : List Statement) : Option (List (String × Value)) := do
  let a ← ss.foldlM Assembly.add ⟨[], []⟩
  some (Entries.toValues a.top)

/-- Reads a document. A byte order mark at its start does not count. -/
def parse (document : String) : Option (List (String × Value)) := do
  let cs := match document.toList with
    | '\uFEFF' :: cs => cs
    | cs => cs
  assemble (← statements cs)

end BoardBench.Toml
