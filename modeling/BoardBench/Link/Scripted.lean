import BoardBench.Link
import BoardBench.Link.Replies

/-!
# Scripted links

A device in memory. Commands written to it queue its replies, and lines can be queued without a
command; reads take the queue from the front. A read first waits for the delay of the link. On an
empty queue it then fails with a timeout, or never ends if the link hangs.

The delay and the hanging are data of the link, and not something that happens to it. That makes a
run on scripted links a computation: from the two links alone it can be said which line is read
when, and this is what the theorems on phases and gates compare a run with. A rejected line takes
its place on the queue like any other, because a port only finds out what it is when it is read.
-/

set_option autoImplicit false

namespace BoardBench

/-- A queued line, as it is or as one that a port would reject. -/
inductive Incoming where
  | line (text : String)
  | nonAscii (text : String)
deriving Repr, DecidableEq

/-- A device in memory. -/
structure ScriptedLink where
  name : String
  replies : Replies := []
  pending : List Incoming := []
  written : List String := []
  delayMs : Nat := 0
  hangs : Bool := false
deriving Repr, DecidableEq

namespace ScriptedLink

/-- Registers a further reply batch for a command. -/
def respond (command : String) (lines : List String) (l : ScriptedLink) : ScriptedLink :=
  { l with replies := l.replies.add command lines }

/-- Queues something to be read without a command. -/
def push (i : Incoming) (l : ScriptedLink) : ScriptedLink :=
  { l with pending := l.pending ++ [i] }

/-- Notes a written line and queues the reply to it. -/
def write (line : String) (l : ScriptedLink) : ScriptedLink :=
  let (lines, replies) := l.replies.next line
  { l with
    written := l.written ++ [line]
    replies := replies
    pending := l.pending ++ lines.map .line }

def read (l : ScriptedLink) : Reading ScriptedLink :=
  match l.pending with
  | .line text :: rest => .after l.delayMs (.ok text) { l with pending := rest }
  | .nonAscii text :: rest =>
    .after l.delayMs (.error (.nonAscii l.name text)) { l with pending := rest }
  | [] => if l.hangs then .never l.delayMs else .after l.delayMs (.error (.timeout l.name 0)) l

def clear (l : ScriptedLink) : ScriptedLink :=
  { l with pending := [] }

theorem length_pending_of_read {l l' : ScriptedLink} {delayMs : Nat}
    {outcome : Except LinkError String} (h : l.read = .after delayMs outcome l')
    (ht : tookLine outcome = true) : l'.pending.length < l.pending.length := by
  unfold read at h
  split at h
  · rename_i hp
    cases h
    simp [hp]
  · rename_i hp
    cases h
    simp [hp]
  · split at h
    · cases h
    · cases h
      cases ht

end ScriptedLink

instance : Link ScriptedLink where
  name := ScriptedLink.name
  write line l := (.ok (), l.write line)
  read := ScriptedLink.read
  clear l := (.ok (), l.clear)
  backlog l := l.pending.length
  backlog_lt := ScriptedLink.length_pending_of_read

end BoardBench
