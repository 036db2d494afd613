/-!
# Storage failures

What can go wrong when a path is looked up, made or written, with the wording and the number that
the operating system gives it.

The failures are those that can be told apart by where they come from. A NUL in a path never gets as
far as the operating system, and has no number. All that a tree cannot fail with is left to `other`.
-/

set_option autoImplicit false

namespace BoardBench

/-- Why a file or directory could not be used. -/
inductive StorageFailure where
  | notFound
  | alreadyExists
  | notDirectory
  | isDirectory
  | nameTooLong
  | nulInPath
  | other (text : String)
deriving Repr, DecidableEq

namespace StorageFailure

/-- The bare wording, without a number. -/
def description : StorageFailure → String
  | .notFound => "No such file or directory"
  | .alreadyExists => "File exists"
  | .notDirectory => "Not a directory"
  | .isDirectory => "Is a directory"
  | .nameTooLong => "File name too long"
  | .nulInPath => "file name contained an unexpected NUL byte"
  | .other text => text

/-- The number that the operating system gives to a failure of its own. -/
def osNumber? : StorageFailure → Option String
  | .notFound => some "2"
  | .alreadyExists => some "17"
  | .notDirectory => some "20"
  | .isDirectory => some "21"
  | .nameTooLong => some "36"
  | .nulInPath => none
  | .other _ => none

/-- The wording, with the number if there is one. -/
def message (f : StorageFailure) : String :=
  match f.osNumber? with
  | some number => f.description ++ " (os error " ++ number ++ ")"
  | none => f.description

end StorageFailure

end BoardBench
