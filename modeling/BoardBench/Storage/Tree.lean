import BoardBench.Storage.Failure
import BoardBench.Storage.Path

/-!
# Storage trees

Files and directories in memory, with a directory from which paths start that do not start at the
root. A path is followed step by step, and the first step that cannot be taken decides the failure.

A terminal is an entry that is neither a file nor a directory; it is known by a number.
-/

set_option autoImplicit false

namespace BoardBench

/-- What stands at a place. -/
inductive Entry where
  | file (bytes : List UInt8)
  | directory
  | terminal (number : Nat)
deriving Repr, DecidableEq

/-- A place: the names that lead to it from the root. -/
abbrev Place := List String

/-- The entries of a storage by place, and the place from which relative paths start. The root is
always a directory, and has no entry. -/
structure Tree where
  entries : List (Place × Entry) := []
  current : Place := []
deriving Repr, DecidableEq

/-- Where a path leads: a place in a directory that exists, and whether only a directory will do
there. -/
structure Target where
  place : Place
  asDirectory : Bool
deriving Repr, DecidableEq

namespace Tree

def find? (place : Place) : List (Place × Entry) → Option Entry
  | [] => none
  | (p, e) :: rest => if p = place then some e else find? place rest

/-- Puts an entry at a place in lieu of the one that is there. -/
def put (place : Place) (entry : Entry) : List (Place × Entry) → List (Place × Entry)
  | [] => [(place, entry)]
  | (p, e) :: rest =>
    if p = place then (place, entry) :: rest else (p, e) :: put place entry rest

def get? (t : Tree) (place : Place) : Option Entry :=
  if place = [] then some .directory else find? place t.entries

def set (t : Tree) (place : Place) (entry : Entry) : Tree :=
  { t with entries := put place entry t.entries }

/-! ## Following paths -/

/-- Takes a step that has to lead to a directory. -/
def enter (t : Tree) (place : Place) (step : String) : Except StorageFailure Place :=
  if step = Path.stay then .ok place
  else if step = Path.up then .ok place.dropLast
  else if Path.stepTooLong step then .error .nameTooLong
  else
    match t.get? (place ++ [step]) with
    | none => .error .notFound
    | some .directory => .ok (place ++ [step])
    | some _ => .error .notDirectory

/-- Takes steps that have to lead to directories. -/
def enterAll (t : Tree) (place : Place) : List String → Except StorageFailure Place
  | [] => .ok place
  | step :: rest =>
    match t.enter place step with
    | .ok next => t.enterAll next rest
    | .error f => .error f

/-- Follows steps, the last of which may lead to anything or nothing. -/
def target (t : Tree) (asDirectory : Bool) (place : Place) :
    List String → Except StorageFailure Target
  | [] => .ok ⟨place, true⟩
  | [step] =>
    if step = Path.stay ∨ step = Path.up then (⟨·, true⟩) <$> t.enter place step
    else if Path.stepTooLong step then .error .nameTooLong
    else .ok ⟨place ++ [step], asDirectory⟩
  | step :: rest =>
    match t.enter place step with
    | .ok next => t.target asDirectory next rest
    | .error f => .error f

def follow (t : Tree) (p : Path) : Except StorageFailure Target :=
  if p.isEmpty then .error .notFound
  else t.target p.endsInSlash (if p.fromRoot then [] else t.current) p.steps

/-- Follows a path given as a text, which must not hold a NUL or be too long. -/
def locate (t : Tree) (path : String) : Except StorageFailure Target :=
  if path.toList.any (·.toNat == 0) then .error .nulInPath
  else if Path.lengthLimit ≤ (Text.encode path).length then .error .nameTooLong
  else t.follow (Path.parse path)

/-! ## Using what is there -/

/-- The bytes of a file. A terminal has none. -/
def read (t : Tree) (path : String) : Except StorageFailure (List UInt8) :=
  match t.locate path with
  | .error f => .error f
  | .ok g =>
    match t.get? g.place with
    | none => .error .notFound
    | some .directory => .error .isDirectory
    | some (.file bytes) => if g.asDirectory then .error .notDirectory else .ok bytes
    | some (.terminal _) => if g.asDirectory then .error .notDirectory else .ok []

/-- Writes a file, in lieu of one that is there. -/
def write (t : Tree) (path : String) (bytes : List UInt8) : Except StorageFailure Tree :=
  match t.locate path with
  | .error f => .error f
  | .ok g =>
    if g.asDirectory then .error .isDirectory
    else
      match t.get? g.place with
      | some .directory => .error .isDirectory
      | some (.terminal _) => .ok t
      | _ => .ok (t.set g.place (.file bytes))

def isDirectory (t : Tree) (p : Path) : Bool :=
  match t.follow p with
  | .ok g => t.get? g.place == some .directory
  | .error _ => false

def makeDirectory (t : Tree) (p : Path) : Except StorageFailure Tree :=
  match t.follow p with
  | .error f => .error f
  | .ok g =>
    match t.get? g.place with
    | some _ => .error .alreadyExists
    | none => .ok (t.set g.place .directory)

/-- Makes a directory unless it is there. -/
def ensureDirectory (t : Tree) (p : Path) : Except StorageFailure Unit × Tree :=
  match t.makeDirectory p with
  | .ok made => (.ok (), made)
  | .error f => (if t.isDirectory p then .ok () else .error f, t)

/-- Makes a directory, and before it those above it that are missing. The latter stay even if the
directory itself cannot be made. -/
def makeAll (t : Tree) (p : Path) : Except StorageFailure Unit × Tree :=
  if p.isEmpty then (.ok (), t)
  else
    match t.makeDirectory p with
    | .ok made => (.ok (), made)
    | .error .notFound =>
      match _h : p.parent? with
      | none => t.ensureDirectory p
      | some above =>
        match t.makeAll above with
        | (.ok (), made) => made.ensureDirectory p
        | (.error f, made) => (.error f, made)
    | .error f => (if t.isDirectory p then .ok () else .error f, t)
termination_by p.steps.length
decreasing_by exact Path.length_parent? _h

/-- Makes the directory that a path given as a text leads to. No path at all leads to the directory
where one stands. -/
def makeDirectories (t : Tree) (path : String) : Except StorageFailure Unit × Tree :=
  if path.toList.any (·.toNat == 0) then (.error .nulInPath, t)
  else if Path.lengthLimit ≤ (Text.encode path).length then (.error .nameTooLong, t)
  else t.makeAll (Path.parse path)

/-! ## Laws of entries -/

theorem find?_put (place other : Place) (entry : Entry) (entries : List (Place × Entry)) :
    find? other (put place entry entries) =
      if other = place then some entry else find? other entries := by
  induction entries with
  | nil => simp [put, find?, eq_comm]
  | cons x rest ih =>
    obtain ⟨p, e⟩ := x
    by_cases hp : p = place
    · subst hp
      by_cases ho : p = other
      · simp [put, find?, ho]
      · simp [put, find?, ho, Ne.symm ho]
    · by_cases ho : p = other
      · subst ho
        simp [put, find?, hp]
      · simp only [put, if_neg hp, find?, if_neg ho, ih]

/-- A place holds what was put there last, and all others are as before. -/
theorem get?_set {t : Tree} {place other : Place} {entry : Entry} (h : place ≠ []) :
    (t.set place entry).get? other = if other = place then some entry else t.get? other := by
  by_cases ho : other = []
  · subst ho
    simp [get?, Ne.symm h]
  · simp [get?, set, ho, find?_put]

end Tree

end BoardBench
