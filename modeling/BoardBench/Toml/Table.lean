import BoardBench.Toml.Value

/-!
# How tables come about

A document gives its tables in pieces: under a header, by the dotted keys of an assignment, or only
as part of the path of another table. Which pieces may be put together depends on that origin, so
the tables under construction carry it:

* a table under a header of its own is complete and takes no dotted keys from outside;
* a table that was only passed through may still get a header;
* a table that dotted keys made takes more dotted keys, and no header.

Everything else that meets an existing key is refused. Once the document is read, `toValue` forgets
the origins.
-/

set_option autoImplicit false

namespace BoardBench.Toml

/-- What brought a table into being. -/
inductive Origin where
  | header
  | passedThrough
  | dottedKey
deriving Repr, DecidableEq

/-- A part of a document under construction: a value, a table, or the tables of an array, of which
only the last is still open. -/
inductive Node where
  | leaf (v : Value)
  | table (origin : Origin) (entries : List (String × Node))
  | tables (closed : List (List (String × Node))) (current : List (String × Node))
deriving Inhabited

/-- The keys of a table under construction, in the order of their first appearance. -/
abbrev Entries := List (String × Node)

namespace Entries

def get? (key : String) (es : Entries) : Option Node :=
  (es.find? (·.1 == key)).map (·.2)

/-- Puts a node under a key, in the place of what stood there. -/
def put (key : String) (n : Node) : Entries → Entries
  | [] => [(key, n)]
  | (k, m) :: es => if k = key then (key, n) :: es else (k, m) :: put key n es

/-- Changes the table that a header path leads to. Missing tables on the way are made; of an array
of tables the last one is meant. -/
def modifyAt (change : Entries → Option Entries) : List String → Entries → Option Entries
  | [], es => change es
  | k :: path, es =>
    match es.get? k with
    | none => (modifyAt change path []).map fun sub => es.put k (.table .passedThrough sub)
    | some (.table origin sub) =>
      (modifyAt change path sub).map fun sub => es.put k (.table origin sub)
    | some (.tables closed current) =>
      (modifyAt change path current).map fun sub => es.put k (.tables closed sub)
    | some (.leaf _) => none

def openTable (key : String) (es : Entries) : Option Entries :=
  match es.get? key with
  | none => some (es.put key (.table .header []))
  | some (.table .passedThrough sub) => some (es.put key (.table .header sub))
  | some _ => none

/-- Opens a further table of an array of tables. -/
def openElement (key : String) (es : Entries) : Option Entries :=
  match es.get? key with
  | none => some (es.put key (.tables [] []))
  | some (.tables closed current) => some (es.put key (.tables (closed ++ [current]) []))
  | some _ => none

/-- Assigns a value under a dotted key. The table that takes the last part must be the one the
assignment starts from, or have been made by dotted keys. -/
def assign (v : Value) : List String → Entries → Option Entries
  | [], _ => none
  | [k], es => if (es.get? k).isSome then none else some (es.put k (.leaf v))
  | k :: l :: path, es =>
    match es.get? k with
    | none => (assign v (l :: path) []).map fun sub => es.put k (.table .dottedKey sub)
    | some (.table .dottedKey sub) =>
      (assign v (l :: path) sub).map fun sub => es.put k (.table .dottedKey sub)
    | some (.table .passedThrough sub) =>
      if path.isEmpty then none
      else (assign v (l :: path) sub).map fun sub => es.put k (.table .passedThrough sub)
    | some (.tables closed current) =>
      if path.isEmpty then none
      else (assign v (l :: path) current).map fun sub => es.put k (.tables closed sub)
    | some (.table .header _) => none
    | some (.leaf _) => none

end Entries

/-! ## Forgetting the origins -/

mutual

/-- The value that a part of a document stands for. -/
def Node.toValue : Node → Value
  | .leaf v => v
  | .table _ es => .table (Entries.toValues es)
  | .tables closed current =>
    .array (Entries.listToValues closed ++ [.table (Entries.toValues current)])

def Entries.toValues : List (String × Node) → List (String × Value)
  | [] => []
  | (k, n) :: es => (k, n.toValue) :: Entries.toValues es

def Entries.listToValues : List (List (String × Node)) → List Value
  | [] => []
  | es :: rest => .table (Entries.toValues es) :: Entries.listToValues rest

end

/-- An inline table is made of assignments, like the top of a document, and is closed then. -/
def inlineTable (assignments : List (List String × Value)) : Option Value := do
  let es ← assignments.foldlM (fun es (path, v) => Entries.assign v path es) []
  some (.table (Entries.toValues es))

end BoardBench.Toml
