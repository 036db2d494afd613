import BoardBench.Config.Decode
import BoardBench.Storage

/-!
# Loading a configuration

A configuration is read from a file, which has to be UTF-8 text.

That the file can be read, that it is text, and that the text is a proper configuration are three
questions in a row, and the first one that fails is the error. Only the last one is about the
document.
-/

set_option autoImplicit false

namespace BoardBench.Config

def ofBytes (path : String) (bytes : List UInt8) : Except ConfigError Config :=
  match Text.decode? bytes with
  | none => .error (.notText path)
  | some document => ofToml document

def load {m : Type → Type} [Monad m] (s : Storage m) (path : String) :
    m (Except ConfigError Config) := do
  match ← s.read path with
  | .error reason => pure (.error (.unreadable path reason))
  | .ok bytes => pure (ofBytes path bytes)

end BoardBench.Config
