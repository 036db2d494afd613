import BoardBench.Proofs.Session.Queue

/-!
# Scripted links — what has become of every entry

A scripted link has no memory but its queue, the lines that were written to it, and the batches that
are left for each command. The batches that are left do not tell how many were given, since the last
one stays: after `k` writes of a command, `min k (n - 1)` of its `n` batches are gone
(`ScriptedLink.Stands`). So **the `k`-th write of a command queues batch number `min k n`**, and
**what left the queue and what is still on it is what was queued, each entry once and in order**
(`ScriptedLink.scripted_link_is_a_queue`), in whatever way the operations follow one another, as
long as nothing is registered any more once something was written.

The state of a link is told from the history of the operations (`Stands`), and this is the invariant
of the one induction. It counts the writes of each command, as the batches that are left show no
more than that the last one has been reached. What an operation queues is told from the operations
before it (`Operation.adds`), and what it takes off the queue from the link at that point
(`Operation.takes`). The statement is an equation between the two lists, in which neither the order
nor how often an entry occurs has to be said separately.

That registering comes before writing is a hypothesis. A batch that is added behind one that stays
would change what the next write is answered with, and no numbering would tell it any more.
-/

set_option autoImplicit false

namespace BoardBench

/-! ## Batches -/

namespace Replies

/-- The batch that the `k`-th write of a command is answered with, counted from one: the last one
over and over, and nothing if there is none. -/
def batchAt (bs : List (List String)) (k : Nat) : List String :=
  bs.getD (min k bs.length - 1) []

/-- The batches of a command that are left after it was written `k` times. -/
def leftAfter (bs : List (List String)) (k : Nat) : List (List String) :=
  bs.drop (min k (bs.length - 1))

theorem afterFirst_eq_drop (bs : List (List String)) :
    afterFirst bs = bs.drop (min 1 (bs.length - 1)) := by
  match bs with
  | [] => rfl
  | [_] => rfl
  | _ :: _ :: _ => simp [afterFirst]

theorem afterFirst_leftAfter (bs : List (List String)) (k : Nat) :
    afterFirst (leftAfter bs k) = leftAfter bs (k + 1) := by
  have hgone : min k (bs.length - 1) + min 1 (bs.length - min k (bs.length - 1) - 1) =
      min (k + 1) (bs.length - 1) := by omega
  rw [afterFirst_eq_drop, leftAfter, List.length_drop, List.drop_drop, hgone, leftAfter]

theorem headD_leftAfter (bs : List (List String)) (k : Nat) :
    (leftAfter bs k).headD [] = batchAt bs (k + 1) := by
  have hindex : min k (bs.length - 1) = min (k + 1) bs.length - 1 := by omega
  rw [leftAfter, List.headD_eq_head?_getD, List.head?_drop, hindex, batchAt,
    List.getD_eq_getElem?_getD]

theorem batches_add (c command : String) (lines : List String) (r : Replies) :
    (r.add command lines).batches c =
      r.batches c ++ if command = c then [lines] else [] := by
  induction r with
  | nil => simp [add, batches]
  | cons x rest ih =>
    obtain ⟨d, bs⟩ := x
    rw [add]
    split
    · subst d
      by_cases hc : command = c <;> simp [batches, hc]
    · rename_i hd
      by_cases hdc : d = c
      · have hc : command ≠ c := fun heq => hd (hdc.trans heq.symm)
        simp [batches, hdc, hc]
      · simp [batches, hdc, ih]

end Replies

/-- How a port hands an entry over. -/
def Incoming.outcome (port : String) : Incoming → Except LinkError String
  | .line text => .ok text
  | .nonAscii text => .error (.nonAscii port text)

namespace ScriptedLink

/-! ## Operations -/

/-- What can be done with a scripted link. -/
inductive Operation where
  | respond (command : String) (lines : List String)
  | write (line : String)
  | push (i : Incoming)
  | read
  | clear
deriving Repr, DecidableEq

namespace Operation

/-- The link after an operation. A read that never ends is given up, and leaves it as it is. -/
def perform (l : ScriptedLink) : Operation → ScriptedLink
  | respond command lines => l.respond command lines
  | write line => (Link.write line l).2
  | push i => l.push i
  | read =>
    match Link.read l with
    | .never _ => l
    | .after _ _ rest => rest
  | clear => (Link.clear l).2

/-- What leaves the queue with an operation: the entry that a read hands over, or all that is
there. -/
def takes (l : ScriptedLink) : Operation → List Incoming
  | read =>
    match Link.read l with
    | .never _ => []
    | .after _ outcome _ => (Incoming.ofOutcome? outcome).toList
  | clear => l.pending
  | _ => []

/-- The batch that an operation registers for a command. -/
def batch? (command : String) : Operation → Option (List String)
  | respond c lines => if c = command then some lines else none
  | _ => none

/-- The line that an operation writes. -/
def line? : Operation → Option String
  | write line => some line
  | _ => none

/-- The operation registers a batch. -/
def registers : Operation → Bool
  | respond _ _ => true
  | _ => false

end Operation

/-- The batches that are registered for a command, in order. -/
def registered (command : String) (ops : List Operation) : List (List String) :=
  ops.filterMap (Operation.batch? command)

/-- The lines that are written, in order. -/
def writes (ops : List Operation) : List String :=
  ops.filterMap Operation.line?

/-- All batches are registered before anything is written. -/
def RegisteredFirst (ops : List Operation) : Prop :=
  ops.Pairwise fun earlier later => later.registers = true → earlier.line? = none

instance (ops : List Operation) : Decidable (RegisteredFirst ops) :=
  inferInstanceAs (Decidable (ops.Pairwise _))

/-- The link after some operations. -/
def performAll (ops : List Operation) (l : ScriptedLink) : ScriptedLink :=
  ops.foldl Operation.perform l

/-- What leaves the queue meanwhile, in order. -/
def removed : List Operation → ScriptedLink → List Incoming
  | [], _ => []
  | o :: ops, l => o.takes l ++ removed ops (o.perform l)

/-- What an operation queues if it comes behind some others and these batches are registered. -/
def Operation.adds (batches : String → List (List String)) (before : List Operation) :
    Operation → List Incoming
  | write line =>
    (Replies.batchAt (batches line) ((writes before).count line + 1)).map .line
  | push i => [i]
  | _ => []

/-- What is queued by operations that come behind some others. -/
def added (batches : String → List (List String)) (before : List Operation) :
    List Operation → List Incoming
  | [] => []
  | o :: ops => o.adds batches before ++ added batches (before ++ [o]) ops

variable {l new : ScriptedLink} {ops before after : List Operation} {o : Operation}

/-! ## Reads -/

theorem read_cons {i : Incoming} {rest : List Incoming} (h : l.pending = i :: rest) :
    Link.read l = .after l.delayMs (i.outcome l.name) { l with pending := rest } := by
  show l.read = _
  rw [read, h]
  cases i <;> rfl

theorem read_nil (h : l.pending = []) :
    Link.read l = if l.hangs then .never l.delayMs
      else .after l.delayMs (.error (.timeout l.name 0)) l := by
  show l.read = _
  rw [read, h]

/-- A read hands over the first entry, if there is one. -/
theorem takes_read (l : ScriptedLink) : Operation.read.takes l = l.pending.take 1 := by
  rw [Operation.takes]
  cases hp : l.pending with
  | nil =>
    rw [read_nil hp]
    cases l.hangs <;> rfl
  | cons i rest =>
    rw [read_cons hp]
    cases i <;> rfl

theorem perform_read (l : ScriptedLink) :
    Operation.read.perform l = { l with pending := l.pending.drop 1 } := by
  rw [Operation.perform]
  cases hp : l.pending with
  | nil =>
    have hsame : { l with pending := [] } = l := by rw [← hp]
    rw [read_nil hp, List.drop_nil, hsame]
    cases l.hangs <;> rfl
  | cons i rest =>
    rw [read_cons hp]
    rfl

/-! ## What is registered and written -/

theorem registered_append (command : String) (ops more : List Operation) :
    registered command (ops ++ more) = registered command ops ++ registered command more :=
  List.filterMap_append

theorem registered_snoc (command : String) (ops : List Operation) (o : Operation) :
    registered command (ops ++ [o]) = registered command ops ++ (o.batch? command).toList :=
  filterMap_snoc _ ops o

theorem writes_snoc (ops : List Operation) (o : Operation) :
    writes (ops ++ [o]) = writes ops ++ o.line?.toList :=
  filterMap_snoc _ ops o

theorem writes_before {back : List Operation} (h : RegisteredFirst (ops ++ o :: back))
    (ho : o.registers = true) : writes ops = [] :=
  List.filterMap_eq_nil_iff.2 fun a ha =>
    (List.pairwise_append.1 h).2.2 a ha o List.mem_cons_self ho

/-- Nothing is registered from the first write on. -/
theorem registered_before {back : List Operation} {line command : String}
    (h : RegisteredFirst (ops ++ .write line :: back)) :
    registered command (ops ++ .write line :: back) = registered command ops := by
  have hback : registered command (.write line :: back) = [] := by
    refine List.filterMap_eq_nil_iff.2 fun a ha => ?_
    rcases List.mem_cons.1 ha with rfl | ha
    · rfl
    · have hline := List.rel_of_pairwise_cons (List.pairwise_append.1 h).2.1 ha
      cases a with
      | respond c lines => cases hline rfl
      | write _ => rfl
      | push _ => rfl
      | read => rfl
      | clear => rfl
  rw [registered_append, hback, List.append_nil]

/-! ## What the operations preserve -/

/-- Where a new link stands after some operations. -/
structure Stands (new : ScriptedLink) (ops : List Operation) (l : ScriptedLink) : Prop where
  name : l.name = new.name
  delayMs : l.delayMs = new.delayMs
  hangs : l.hangs = new.hangs
  written : l.written = writes ops
  left : ∀ command, l.replies.batches command =
    Replies.leftAfter (registered command ops) ((writes ops).count command)

theorem Stands.next_fst (h : Stands new ops l) (line : String) :
    (l.replies.next line).1 =
      Replies.batchAt (registered line ops) ((writes ops).count line + 1) := by
  rw [Replies.next_fst, h.left, Replies.headD_leftAfter]

theorem Stands.respond (h : Stands new ops l) (hnone : writes ops = []) (command : String)
    (lines : List String) :
    Stands new (ops ++ [.respond command lines]) (l.respond command lines) := by
  have hwrites : writes (ops ++ [.respond command lines]) = [] := by
    rw [writes_snoc, hnone]
    rfl
  refine ⟨h.name, h.delayMs, h.hangs, ?_, fun c => ?_⟩
  · rw [hwrites, ← hnone]
    exact h.written
  · show (l.replies.add command lines).batches c = _
    rw [Replies.batches_add, h.left, hwrites, hnone, registered_snoc]
    by_cases hc : command = c <;> simp [Replies.leftAfter, Operation.batch?, hc]

theorem Stands.write (h : Stands new ops l) (line : String) :
    Stands new (ops ++ [.write line]) (l.write line) := by
  have hwrites : writes (ops ++ [.write line]) = writes ops ++ [line] := writes_snoc ops _
  have hregistered : ∀ c, registered c (ops ++ [.write line]) = registered c ops :=
    fun c => (registered_snoc c ops _).trans (List.append_nil _)
  refine ⟨h.name, h.delayMs, h.hangs, ?_, fun c => ?_⟩
  · rw [hwrites, ← h.written]
    rfl
  · show (l.replies.next line).2.batches c = _
    rw [hwrites, hregistered, List.count_append]
    by_cases hc : c = line
    · subst hc
      rw [Replies.batches_next, h.left, Replies.afterFirst_leftAfter, List.count_singleton_self]
    · have hcount : [line].count c = 0 := List.count_eq_zero.2 (by simpa using hc)
      rw [Replies.batches_next_of_ne hc, h.left, hcount, Nat.add_zero]

/-- Any other operation works on the queue only. -/
theorem Stands.queue (h : Stands new ops l) (pending : List Incoming) (hline : o.line? = none)
    (hbatch : ∀ command, o.batch? command = none) :
    Stands new (ops ++ [o]) { l with pending := pending } := by
  have hwrites : writes (ops ++ [o]) = writes ops := by
    rw [writes_snoc, hline]
    exact List.append_nil _
  refine ⟨h.name, h.delayMs, h.hangs, hwrites ▸ h.written, fun command => ?_⟩
  rw [hwrites, registered_snoc, hbatch, h.left command]
  simp

theorem Stands.perform (h : Stands new ops l) (hfirst : o.registers = true → writes ops = []) :
    Stands new (ops ++ [o]) (o.perform l) := by
  cases o with
  | respond command lines => exact h.respond (hfirst rfl) command lines
  | write line => exact h.write line
  | push i => exact h.queue _ rfl fun _ => rfl
  | clear => exact h.queue _ rfl fun _ => rfl
  | read =>
    rw [perform_read]
    exact h.queue _ rfl fun _ => rfl

/-- **What leaves the queue with an operation, and what is on it then, is what was on it before and
what the operation queues.** -/
theorem Stands.conserved {batches : String → List (List String)} (h : Stands new ops l)
    (hbatches : ∀ line, o = .write line → batches line = registered line ops) :
    o.takes l ++ (o.perform l).pending = l.pending ++ o.adds batches ops := by
  cases o with
  | respond command lines => exact (List.append_nil _).symm
  | write line =>
    show l.pending ++ (l.replies.next line).1.map .line = _
    rw [h.next_fst, Operation.adds, hbatches line rfl]
  | push i => rfl
  | clear => rfl
  | read =>
    rw [takes_read, perform_read]
    exact (List.take_append_drop 1 l.pending).trans (List.append_nil _).symm

/-- The same of a whole run, in whatever state the operations before it left the link. -/
theorem Stands.performAll {batches : String → List (List String)} (h : Stands new before l)
    (hfirst : RegisteredFirst (before ++ ops))
    (hbatches : ∀ front line back, ops = front ++ .write line :: back →
      batches line = registered line (before ++ front)) :
    Stands new (before ++ ops) (l.performAll ops) ∧
      removed ops l ++ (l.performAll ops).pending = l.pending ++ added batches before ops := by
  induction ops generalizing before l with
  | nil => exact ⟨by rwa [List.append_nil], (List.append_nil _).symm⟩
  | cons o ops ih =>
    have hstep : Stands new (before ++ [o]) (o.perform l) := h.perform (writes_before hfirst)
    have hconserved : o.takes l ++ (o.perform l).pending = l.pending ++ o.adds batches before := by
      refine h.conserved fun line ho => ?_
      rw [hbatches [] line ops (by rw [ho]; rfl), List.append_nil]
    have hsplit : before ++ o :: ops = before ++ [o] ++ ops := by simp
    rw [hsplit] at hfirst ⊢
    obtain ⟨hstands, hrest⟩ := ih hstep hfirst fun front line back heq => by
      rw [List.append_assoc]
      exact hbatches (o :: front) line back (by rw [heq]; rfl)
    refine ⟨hstands, ?_⟩
    calc o.takes l ++ removed ops (o.perform l) ++ ((o.perform l).performAll ops).pending
        = (o.takes l ++ (o.perform l).pending) ++ added batches (before ++ [o]) ops := by
          rw [List.append_assoc, hrest, List.append_assoc]
      _ = l.pending ++ added batches before (o :: ops) := by
          rw [hconserved, List.append_assoc, added]

theorem stands_new (name : String) (delayMs : Nat) (hangs : Bool) :
    Stands { name, delayMs, hangs } [] { name, delayMs, hangs } :=
  ⟨rfl, rfl, rfl, rfl, fun _ => rfl⟩

/-- **A scripted link is a queue, and the last reply to a command stays.** Whatever is done with a
new link, as long as its batches are registered first: at every moment, the lines that were written
to it are on record; what left its queue and what is on it is what was queued, in order; the next
line that is written queues the batch whose number is that of the write, counted among the writes of
this line, and the last batch once they are used up; a read hands over the first entry of the queue,
and on an empty queue it changes nothing; and to clear the link drops what is on the queue. -/
theorem scripted_link_is_a_queue (name : String) (delayMs : Nat) (hangs : Bool)
    (before after : List Operation) (h : RegisteredFirst (before ++ after)) :
    let new : ScriptedLink := { name, delayMs, hangs }
    let batches := fun command => registered command (before ++ after)
    let l := new.performAll before
    l.written = writes before ∧
      removed before new ++ l.pending = added batches [] before ∧
      (∀ line rest, after = .write line :: rest →
        Link.write line l = (.ok (), l.write line) ∧
        (l.write line).pending = l.pending ++
          (Replies.batchAt (batches line) ((writes before).count line + 1)).map .line) ∧
      (∀ i rest, l.pending = i :: rest →
        Link.read l = .after delayMs (i.outcome name) { l with pending := rest }) ∧
      (l.pending = [] → Link.read l =
        if hangs then .never delayMs else .after delayMs (.error (.timeout name 0)) l) ∧
      Link.clear l = (.ok (), { l with pending := [] }) := by
  intro new batches l
  -- all batches are registered before the first write, so that each write finds them complete
  have hbatches : ∀ front line back, before = front ++ .write line :: back →
      batches line = registered line ([] ++ front) := by
    rintro front line back rfl
    rw [List.append_assoc] at h
    show registered line (front ++ .write line :: back ++ after) = _
    rw [List.append_assoc]
    exact registered_before h
  obtain ⟨hstands, hconserved⟩ := (stands_new name delayMs hangs).performAll
    (List.pairwise_append.1 h).1 hbatches
  rw [List.nil_append] at hstands
  refine ⟨hstands.written, hconserved, ?_, fun i rest hp => ?_, fun hp => ?_, rfl⟩
  · rintro line rest rfl
    refine ⟨rfl, ?_⟩
    have hline : batches line = registered line before := registered_before h
    show l.pending ++ (l.replies.next line).1.map .line = _
    rw [hstands.next_fst, hline]
  · rw [read_cons hp, hstands.delayMs, hstands.name]
  · rw [read_nil hp, hstands.delayMs, hstands.name, hstands.hangs]

/-- Two batches for one command and none for another, with a rejected line in between, something
that is dropped, and something that is left. -/
def rehearsal : List Operation := [
    .respond "idle" ["idle false", "uptime 7"], .push (.nonAscii "héllo"),
    .respond "idle" ["idle true"], .write "idle", .read, .read, .write "led on", .write "idle",
    .clear, .read, .push (.line "button"), .write "idle", .read]

theorem rehearsal_is_a_queue :
    let l := ({ name := "mock0" } : ScriptedLink).performAll rehearsal
    RegisteredFirst (rehearsal ++ [.write "idle"]) ∧
      l.written = ["idle", "led on", "idle", "idle"] ∧
      removed rehearsal { name := "mock0" } ++ l.pending =
        [.nonAscii "héllo", .line "idle false", .line "uptime 7", .line "idle true",
          .line "button", .line "idle true"] ∧
      (l.write "idle").pending = [.line "idle true", .line "idle true"] ∧
      Link.read l = .after 0 (.ok "idle true") { l with pending := [] } := by
  have hfirst : RegisteredFirst (rehearsal ++ [.write "idle"]) := by decide
  obtain ⟨hwritten, hqueue, hwrite, hread, -⟩ :=
    scripted_link_is_a_queue "mock0" 0 false rehearsal [.write "idle"] hfirst
  obtain ⟨-, hpending⟩ := hwrite "idle" [] rfl
  exact ⟨hfirst, hwritten, hqueue, hpending, hread (.line "idle true") [] (by decide)⟩

end ScriptedLink

end BoardBench
