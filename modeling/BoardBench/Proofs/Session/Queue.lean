import BoardBench.Proofs.Session.Waiting

/-!
# Queues — what goes into a scripted link, and what comes out

A scripted link is a queue: the replies to what is sent go in at the end, and lines are read off the
front. `ScriptedLink.Serves l commands items l'` says that meanwhile some commands were sent to a
link and some items were read off it, which is all that can happen; and **what was read and what is
left is what was there before and what the commands were answered with**
(`ScriptedLink.Serves.pending`).

`ScriptedLink.AnswersOnce` says of a device that it answers each question whether it is idle with
one answer, and gives no answer otherwise. Then answers come in reply to questions only, and can be
counted (`ScriptedLink.AnswersOnce.length_repliesIn`).

`Serves` forgets in which order commands were sent and items were read. A queue does not know that
order either: what is read comes off the front, what is sent adds to the end, and the two commute as
long as nothing is read that was not there (`writeAll_putBack`). What remains is an equation between
lists, and to follow a link through a gate and a phase is to chain such equations (`Serves.trans`).

`AnswersOnce` is a condition on batches that were given, and not on all that a device could say. A
batch that is never asked for does no harm.
-/

set_option autoImplicit false

namespace BoardBench

/-! ## Replies on a queue -/

namespace Replies

/-- The commands that a device is sent, each with the batch that it is answered with. -/
def given : List String → Replies → List (String × List String)
  | [], _ => []
  | command :: rest, r => (command, (r.next command).1) :: given rest (r.next command).2

/-- What stays registered when some commands were answered. -/
def afterAll : List String → Replies → Replies
  | [], r => r
  | command :: rest, r => afterAll rest (r.next command).2

theorem given_append (commands more : List String) (r : Replies) :
    r.given (commands ++ more) = r.given commands ++ (r.afterAll commands).given more := by
  induction commands generalizing r with
  | nil => rfl
  | cons command rest ih => exact congrArg (_ :: ·) (ih _)

theorem map_fst_given (commands : List String) (r : Replies) :
    (r.given commands).map Prod.fst = commands := by
  induction commands generalizing r with
  | nil => rfl
  | cons command rest ih => exact congrArg (command :: ·) (ih _)

end Replies

/-- Batches as they stand on the queue of a link. -/
def queued (batches : List (String × List String)) : List Incoming :=
  batches.flatMap fun x => x.2.map .line

/-- The answers among some entries. -/
def repliesIn (items : List Incoming) : List IdleReply :=
  items.filterMap Incoming.reply?

theorem repliesIn_append (items more : List Incoming) :
    repliesIn (items ++ more) = repliesIn items ++ repliesIn more :=
  List.filterMap_append

namespace ScriptedLink

variable {l m l' : ScriptedLink} {commands more : List String} {items others : List Incoming}

theorem writeAll_eq (commands : List String) (l : ScriptedLink) :
    l.writeAll commands =
      { l with
        written := l.written ++ commands
        replies := l.replies.afterAll commands
        pending := l.pending ++ queued (l.replies.given commands) } := by
  induction commands generalizing l with
  | nil => simp [writeAll, queued, Replies.given, Replies.afterAll]
  | cons command rest ih =>
    refine (ih (l.write command)).trans ?_
    simp [write, queued, Replies.given, Replies.afterAll]

/-- Meanwhile some commands were sent to the link, and some entries were read off its queue. -/
def Serves (l : ScriptedLink) (commands : List String) (items : List Incoming)
    (l' : ScriptedLink) : Prop :=
  l'.putBack items = l.writeAll commands

theorem Serves.trans (h : l.Serves commands items m) (h' : m.Serves more others l') :
    l.Serves (commands ++ more) (items ++ others) l' := by
  have hback : l'.putBack (items ++ others) = (l'.putBack others).putBack items := by
    simp [putBack]
  rw [Serves, hback, h', ← writeAll_putBack, h, writeAll, writeAll, writeAll, List.foldl_append]

theorem Serves.written (h : l.Serves commands items l') :
    l'.written = l.written ++ commands :=
  (congrArg ScriptedLink.written h).trans (by rw [writeAll_eq])

theorem Serves.replies (h : l.Serves commands items l') :
    l'.replies = l.replies.afterAll commands :=
  (congrArg ScriptedLink.replies h).trans (by rw [writeAll_eq])

/-- First in, first out. -/
theorem Serves.pending (h : l.Serves commands items l') :
    items ++ l'.pending = l.pending ++ queued (l.replies.given commands) :=
  (congrArg ScriptedLink.pending h).trans (by rw [writeAll_eq])

theorem serves_of_wire {ts : List Transfer} (h : Wire l ts l') :
    l.Serves (sentLines ts) (taken ts) l' :=
  h.putBack_taken

theorem serves_of_write {command : String} (h : Link.write command l = (.ok (), l')) :
    l.Serves [command] [] l' := by
  cases h
  rfl

theorem serves_of_read {d : Nat} {outcome : Except LinkError String}
    (h : Link.read l = .after d outcome l') :
    l.Serves [] (Incoming.ofOutcome? outcome).toList l' :=
  (putBack_of_read h).2

theorem serves_of_readsLines {lines : List String} (h : ReadsLines l lines l') :
    l.Serves [] (lines.map .line) l' := by
  induction h with
  | nil => rfl
  | concat _ hr ih =>
    rw [List.map_append]
    exact ih.trans (serves_of_read hr)

end ScriptedLink

/-! ## Devices that answer once -/

/-- The device that gave a batch answered a question with one answer, and any other command with
none. -/
def ProperBatch (x : String × List String) : Prop :=
  (x.2.filterMap IdleReply.ofLine?).length = if x.1 = idleCommand then 1 else 0

instance (x : String × List String) : Decidable (ProperBatch x) :=
  inferInstanceAs (Decidable (_ = _))

theorem length_repliesIn_queued {batches : List (String × List String)}
    (h : ∀ x ∈ batches, ProperBatch x) :
    (repliesIn (queued batches)).length = (batches.map Prod.fst).count idleCommand := by
  induction batches with
  | nil => rfl
  | cons x batches ih =>
    obtain ⟨hx, hrest⟩ := List.forall_mem_cons.1 h
    have hone : repliesIn (x.2.map .line) = x.2.filterMap IdleReply.ofLine? :=
      List.filterMap_map ..
    have hcons : queued (x :: batches) = x.2.map .line ++ queued batches := List.flatMap_cons
    rw [hcons, repliesIn_append, hone, List.length_append, hx, ih hrest, List.map_cons,
      List.count_cons, Nat.add_comm]
    simp

namespace Replies

theorem mem_of_mem_afterFirst {bs : List (List String)} {lines : List String}
    (h : lines ∈ afterFirst bs) : lines ∈ bs := by
  match bs with
  | [] => exact h
  | [last] => exact h
  | _ :: _ :: _ => exact List.mem_cons_of_mem _ h

theorem afterFirst_ne_nil {bs : List (List String)} (h : bs ≠ []) : afterFirst bs ≠ [] := by
  match bs with
  | [] => exact h
  | [last] => exact h
  | _ :: _ :: _ => exact List.cons_ne_nil _ _

theorem mem_of_mem_batches {command : String} {lines : List String} {r : Replies}
    (h : lines ∈ r.batches command) : ∃ x ∈ r, x.1 = command ∧ lines ∈ x.2 := by
  induction r with
  | nil => cases h
  | cons x rest ih =>
    obtain ⟨c, bs⟩ := x
    rw [batches] at h
    split at h
    · exact ⟨_, List.mem_cons_self, ‹c = command›, h⟩
    · obtain ⟨x, hx, hrest⟩ := ih h
      exact ⟨x, List.mem_cons_of_mem _ hx, hrest⟩

/-- All batches that are registered are proper, and there are some for the question. -/
def Proper (r : Replies) : Prop :=
  (∀ command, ∀ lines ∈ r.batches command, ProperBatch (command, lines)) ∧
    r.batches idleCommand ≠ []

theorem proper_of_forall {r : Replies} (hidle : r.batches idleCommand ≠ [])
    (h : ∀ x ∈ r, ∀ lines ∈ x.2, ProperBatch (x.1, lines)) : r.Proper := by
  refine ⟨fun command lines hlines => ?_, hidle⟩
  obtain ⟨x, hx, rfl, hmem⟩ := mem_of_mem_batches hlines
  exact h x hx lines hmem

theorem Proper.first {r : Replies} (h : r.Proper) (command : String) :
    ProperBatch (command, (r.next command).1) := by
  rw [next_fst]
  cases hbs : r.batches command with
  | nil =>
    have hne : command ≠ idleCommand := fun heq => h.2 (heq ▸ hbs)
    exact (if_neg hne).symm
  | cons lines rest => exact h.1 command lines (hbs ▸ List.mem_cons_self)

theorem Proper.next {r : Replies} (h : r.Proper) (command : String) :
    (r.next command).2.Proper := by
  constructor
  · intro c lines hlines
    by_cases hc : c = command
    · subst hc
      rw [batches_next] at hlines
      exact h.1 c lines (mem_of_mem_afterFirst hlines)
    · rw [batches_next_of_ne hc] at hlines
      exact h.1 c lines hlines
  · by_cases hc : idleCommand = command
    · subst hc
      rw [batches_next]
      exact afterFirst_ne_nil h.2
    · rw [batches_next_of_ne hc]
      exact h.2

/-- Whatever such a device is sent, it answers properly. -/
theorem Proper.given {r : Replies} (h : r.Proper) (commands : List String) :
    ∀ x ∈ r.given commands, ProperBatch x := by
  induction commands generalizing r with
  | nil => nofun
  | cons command rest ih => exact List.forall_mem_cons.2 ⟨h.first command, ih (h.next command)⟩

end Replies

namespace ScriptedLink

variable {l m l' : ScriptedLink} {commands more : List String} {items others : List Incoming}

/-- What the device was sent from one state of the link to another, it answered properly. -/
def AnswersOnce (l l' : ScriptedLink) : Prop :=
  ∃ commands, l'.written = l.written ++ commands ∧ ∀ x ∈ l.replies.given commands, ProperBatch x

theorem AnswersOnce.proper (h : l.AnswersOnce l') (hserves : l.Serves commands items l') :
    ∀ x ∈ l.replies.given commands, ProperBatch x := by
  obtain ⟨commands', hwritten, hproper⟩ := h
  rw [hserves.written, List.append_cancel_left_eq] at hwritten
  exact hwritten ▸ hproper

theorem AnswersOnce.split (h : l.AnswersOnce l') (hfront : l.Serves commands items m)
    (hback : m.Serves more others l') : l.AnswersOnce m ∧ m.AnswersOnce l' := by
  have hproper := h.proper (hfront.trans hback)
  rw [Replies.given_append, List.forall_mem_append, ← hfront.replies] at hproper
  exact ⟨⟨commands, hfront.written, hproper.1⟩, more, hback.written, hproper.2⟩

/-- Answers are taken off the queue or stay on it, and come in reply to questions only. -/
theorem AnswersOnce.length_repliesIn (h : l.AnswersOnce l')
    (hserves : l.Serves commands items l') :
    (repliesIn items).length + (repliesIn l'.pending).length =
      (repliesIn l.pending).length + commands.count idleCommand := by
  rw [← List.length_append, ← repliesIn_append, hserves.pending, repliesIn_append,
    List.length_append, length_repliesIn_queued (h.proper hserves), Replies.map_fst_given]

end ScriptedLink

end BoardBench
