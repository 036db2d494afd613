/-!
# Replies of a device

A device answers a command with a batch of lines. The batches registered for a command are used up
in order, and the last one stays for good.

The batches are a list by command and not a function, so that a device can be printed and compared,
and so that `next` is a recursion along the list. Giving a batch and keeping the last one is one
operation: a device that was asked once too often says again what it said last.
-/

set_option autoImplicit false

namespace BoardBench

/-- The reply batches of each command, in the order in which they are to be given. -/
abbrev Replies := List (String × List (List String))

namespace Replies

/-- The batches still registered for a command. -/
def batches (command : String) : Replies → List (List String)
  | [] => []
  | (c, bs) :: rest => if c = command then bs else batches command rest

def add (command : String) (lines : List String) : Replies → Replies
  | [] => [(command, [lines])]
  | (c, bs) :: rest =>
    if c = command then (c, bs ++ [lines]) :: rest else (c, bs) :: add command lines rest

/-- What is left of the batches of a command once the first was given. -/
def afterFirst : List (List String) → List (List String)
  | [] => []
  | [last] => [last]
  | _ :: rest => rest

/-- Gives the next batch for a command: its lines, and what stays registered. -/
def next (command : String) : Replies → List String × Replies
  | [] => ([], [])
  | (c, bs) :: rest =>
    if c = command then (bs.headD [], (c, afterFirst bs) :: rest)
    else
      let (lines, rest) := next command rest
      (lines, (c, bs) :: rest)

theorem batches_next (command : String) (r : Replies) :
    (r.next command).2.batches command = afterFirst (r.batches command) := by
  induction r with
  | nil => rfl
  | cons p rest ih =>
    obtain ⟨c, bs⟩ := p
    by_cases h : c = command
    · simp [next, batches, h]
    · simp [next, batches, h, ih]

end Replies

end BoardBench
