import BoardBench.Proofs.BoardTest.Calls
import BoardBench.Proofs.Storage
import BoardBench.Workbench

/-!
# Views — what is seen of a world from outside

The program runs in a world that may be anything. What its user gets to see of it are the files and
the standard output: a `View` says where to look for them. A host *shows* a view if its storage is
the tree of the files, its printing goes to the standard output, and nothing is seen of all else
that it does (`Host.Shows`). Workbenches do (`Workbench.host_shows`).

From there on it is a matter of sequencing: **work of whose steps nothing is seen is not seen
itself** (`View.Unseen.run_bind`), so a board test is not, whatever its executor does unseen
(`BoardTest.unseen_run`); and work succeeds iff all its steps do (`yields_run_bind`).

A view is a pair of functions, and what the program does is unseen, or a change of the files, or
text at the end of the output. A host has to say so of each of its operations (`Host.Shows`), and of
nothing in between: that a board test is unseen is *proved* from its executor. Steps that never
return are in the picture. They are unseen for as long as they take, and a run that contains one is
not a success, which the statements about exit codes need.

`Yields` is the other half: an activity returns a value. It is a relation between worlds, so that
"the report was saved" can name the world in which it was.
-/

set_option autoImplicit false

namespace BoardBench

section

variable {W α β ε : Type}

/-! ## Steps in a world -/

/-- The activity returns `a`, and leaves the world `w'`. -/
def Yields (act : Steps W α) (w : W) (a : α) (w' : W) : Prop :=
  @Eq (Option α × W) (act w) (some a, w')

theorem Yields.unique {act : Steps W α} {w w₁ w₂ : W} {a b : α} (h : Yields act w a w₁)
    (h' : Yields act w b w₂) : a = b ∧ w₁ = w₂ := by
  have heq : @Eq (Option α × W) (some a, w₁) (some b, w₂) := h.symm.trans h'
  simpa using heq

theorem steps_bind (act : Steps W α) (f : α → Steps W β) (w : W) : (act >>= f) w =
    match act w with
    | (some a, w') => f a w'
    | (none, w') => (none, w') := by
  simp only [Bind.bind, OptionT.bind, OptionT.mk, StateT.bind]
  match act w with
  | (some a, w') => rfl
  | (none, w') => rfl

theorem yields_bind {act : Steps W α} {f : α → Steps W β} {w w'' : W} {b : β} :
    Yields (act >>= f) w b w'' ↔ ∃ a w', Yields act w a w' ∧ Yields (f a) w' b w'' := by
  unfold Yields
  rw [steps_bind]
  generalize act w = r
  rcases r with ⟨_ | a, w'⟩ <;> simp

theorem yields_pure {a b : α} {w w' : W} :
    Yields (pure a : Steps W α) w b w' ↔ a = b ∧ w = w' := by
  change @Eq (Option α × W) (some a, w) (some b, w') ↔ _
  simp

/-- Work that may fail succeeds iff all its parts do. -/
theorem yields_run_bind {work : ExceptT ε (Steps W) α} {f : α → ExceptT ε (Steps W) β} {w w'' : W}
    {b : β} : Yields (work >>= f).run w (.ok b) w'' ↔
      ∃ a w', Yields work.run w (.ok a) w' ∧ Yields (f a).run w' (.ok b) w'' := by
  unfold Yields
  rw [run_bind]
  generalize work.run w = r
  rcases r with ⟨_ | _ | a, w'⟩ <;> simp

theorem yields_run_pure {a b : α} {w w' : W} :
    Yields (pure a : ExceptT ε (Steps W) α).run w (.ok b) w' ↔ a = b ∧ w = w' := by
  change @Eq (Option (Except ε α) × W) (some (.ok a), w) (some (.ok b), w') ↔ _
  simp

/-! ## What is seen of a world -/

/-- What is seen of a world from outside: its files, and its standard output. -/
structure View (W : Type) where
  files : W → Tree
  printed : W → String

namespace View

variable (v : View W)

/-- An activity of which nothing is seen. -/
def Unseen (act : Steps W α) : Prop :=
  ∀ w, v.files (act w).2 = v.files w ∧ v.printed (act w).2 = v.printed w

/-- An activity that returns what `use` returns for the files, and does to them what `use` does. -/
def OnFiles (act : Steps W α) (use : StateM Tree α) : Prop :=
  ∀ w, ∃ w', Yields act w (use (v.files w)).1 w' ∧ v.files w' = (use (v.files w)).2 ∧
    v.printed w' = v.printed w

variable {v}

theorem unseen_pure {a : α} : v.Unseen (pure a : Steps W α) := fun _ => ⟨rfl, rfl⟩

theorem Unseen.bind {act : Steps W α} {f : α → Steps W β} (h : v.Unseen act)
    (hf : ∀ a, v.Unseen (f a)) : v.Unseen (act >>= f) := by
  intro w
  rw [steps_bind]
  have hact := h w
  generalize act w = r at hact
  obtain ⟨_ | a, w'⟩ := r
  · exact hact
  · exact ⟨(hf a w').1.trans hact.1, (hf a w').2.trans hact.2⟩

theorem Unseen.run_bind {work : ExceptT ε (Steps W) α} {f : α → ExceptT ε (Steps W) β}
    (h : v.Unseen work.run) (hf : ∀ a, v.Unseen (f a).run) : v.Unseen (work >>= f).run := by
  intro w
  rw [BoardBench.run_bind]
  have hwork := h w
  generalize work.run w = r at hwork
  obtain ⟨_ | _ | a, w'⟩ := r
  · exact hwork
  · exact hwork
  · exact ⟨(hf a w').1.trans hwork.1, (hf a w').2.trans hwork.2⟩

theorem onFiles_pure {a : α} : v.OnFiles (pure a) (pure a) := fun w => ⟨w, rfl, rfl, rfl⟩

theorem OnFiles.bind {act : Steps W α} {f : α → Steps W β} {use : StateM Tree α}
    {g : α → StateM Tree β} (h : v.OnFiles act use) (hf : ∀ a, v.OnFiles (f a) (g a)) :
    v.OnFiles (act >>= f) (use >>= g) := by
  intro w
  obtain ⟨w', hact, hfiles, hprinted⟩ := h w
  obtain ⟨w'', hrest, hfiles', hprinted'⟩ := hf (use (v.files w)).1 w'
  rw [hfiles] at hrest hfiles'
  exact ⟨w'', yields_bind.2 ⟨_, _, hact, hrest⟩, hfiles', hprinted'.trans hprinted⟩

end View

/-- A host in a world with such a view: its storage is the tree of the files, what it prints comes
to the standard output, and of nothing else that it does is anything seen. -/
structure Host.Shows (h : Host (Steps W)) (v : View W) : Prop where
  read : ∀ path, v.OnFiles (h.storage.read path) (Tree.storage.read path)
  makeDirectories : ∀ path,
    v.OnFiles (h.storage.makeDirectories path) (Tree.storage.makeDirectories path)
  write : ∀ path text, v.OnFiles (h.storage.write path text) (Tree.storage.write path text)
  openPort : ∀ settings side port, v.Unseen (h.openPort settings side port)
  clearInput : v.Unseen h.clearInput
  ensureIdle : ∀ c, v.Unseen (h.executor c).ensureIdle
  runPhase : ∀ c b, v.Unseen ((h.executor c).runPhase b)
  localTime : v.Unseen h.localTime
  print : ∀ text w, ∃ w', Yields (h.print text) w () w' ∧ v.files w' = v.files w ∧
    v.printed w' = v.printed w ++ text
  complain : ∀ text, v.Unseen (h.complain text)

theorem Host.Shows.unseen_read {h : Host (Steps W)} {v : View W} (hs : h.Shows v) (path : String) :
    v.Unseen (h.storage.read path) := by
  intro w
  obtain ⟨w', hyields, hfiles, hprinted⟩ := hs.read path w
  unfold Yields at hyields
  rw [hyields]
  exact ⟨hfiles, hprinted⟩

/-- Reports are saved in the tree of the files. -/
theorem Host.Shows.save {h : Host (Steps W)} {v : View W} (hs : h.Shows v) (r : Report)
    (directory : String) :
    v.OnFiles (r.save h.storage directory) (r.save Tree.storage directory) := by
  unfold Report.save
  refine (hs.makeDirectories directory).bind fun made => ?_
  cases made with
  | error f => exact View.onFiles_pure
  | ok _ =>
    refine (hs.write _ _).bind fun written => ?_
    cases written with
    | error f => exact View.onFiles_pure
    | ok _ => exact View.onFiles_pure

/-! ## Board tests -/

namespace BoardTest

variable {x : Executor (Steps W)} {v : View W} {c : Config}

theorem unseen_ready (hidle : v.Unseen x.ensureIdle) : v.Unseen (ready x c).run := by
  unfold ready
  split
  · exact hidle
  · exact View.unseen_pure

theorem unseen_evaluateAll (hidle : v.Unseen x.ensureIdle) (hphase : ∀ b, v.Unseen (x.runPhase b))
    (subs : List Subsystem) : v.Unseen (evaluateAll x c subs).run := by
  induction subs with
  | nil => exact View.unseen_pure
  | cons s rest ih =>
    refine (unseen_ready hidle).run_bind fun _ => ?_
    have hevaluate : v.Unseen (evaluate x c s).run := by
      refine View.Unseen.run_bind (hphase s.bracket) fun log => ?_
      exact View.unseen_pure
    exact hevaluate.run_bind fun e => ih.run_bind fun es => View.unseen_pure

/-- Nothing is seen of a board test whose executor does nothing that is seen. -/
theorem unseen_run (hidle : v.Unseen x.ensureIdle) (hphase : ∀ b, v.Unseen (x.runPhase b)) :
    v.Unseen (run x c).run := by
  have hidentify : v.Unseen (identify x).run := by
    refine View.Unseen.run_bind (hphase Identity.bracket) fun log => ?_
    split
    · exact View.unseen_pure
    · exact fun _ => ⟨rfl, rfl⟩
  refine (unseen_ready hidle).run_bind fun _ => hidentify.run_bind fun i => ?_
  exact (unseen_evaluateAll hidle hphase _).run_bind fun es => View.unseen_pure

/-- Every subsystem that was to be tested is evaluated, in this order. -/
theorem subsystems_of_evaluateAll {subs : List Subsystem} {es : List Evaluation} {w w' : W}
    (h : Yields (evaluateAll x c subs).run w (.ok es) w') : es.map Evaluation.subsystem = subs := by
  induction subs generalizing es w w' with
  | nil =>
    obtain ⟨rfl, -⟩ := yields_run_pure.1 h
    rfl
  | cons s rest ih =>
    obtain ⟨_, w₁, -, h⟩ := yields_run_bind.1 h
    obtain ⟨e, w₂, hevaluate, h⟩ := yields_run_bind.1 h
    obtain ⟨log, w₃, -, he⟩ := yields_run_bind.1 hevaluate
    obtain ⟨rest', w₄, hrest, h⟩ := yields_run_bind.1 h
    obtain ⟨rfl, -⟩ := yields_run_pure.1 he
    obtain ⟨rfl, -⟩ := yields_run_pure.1 h
    rw [List.map_cons, ih hrest]
    rfl

/-- A board test that ran to its end has one evaluation of each subsystem. -/
theorem evaluations_of_run {t : BoardTest} {w w' : W} (h : Yields (run x c).run w (.ok t) w') :
    ∃ evaluationOf : Subsystem → Evaluation, (∀ s, (evaluationOf s).subsystem = s) ∧
      t.evaluations = Subsystem.executionOrder.map evaluationOf := by
  obtain ⟨_, w₁, -, h⟩ := yields_run_bind.1 h
  obtain ⟨i, w₂, -, h⟩ := yields_run_bind.1 h
  obtain ⟨es, w₃, hes, h⟩ := yields_run_bind.1 h
  obtain ⟨rfl, -⟩ := yields_run_pure.1 h
  have hsubs := subsystems_of_evaluateAll hes
  obtain ⟨lin, es, rfl, hlin, hsubs⟩ := List.map_eq_cons_iff.1 hsubs
  obtain ⟨uart, es, rfl, huart, hsubs⟩ := List.map_eq_cons_iff.1 hsubs
  obtain ⟨gpio, es, rfl, hgpio, hsubs⟩ := List.map_eq_cons_iff.1 hsubs
  obtain ⟨can, es, rfl, hcan, hsubs⟩ := List.map_eq_cons_iff.1 hsubs
  obtain rfl := List.map_eq_nil_iff.1 hsubs
  refine ⟨Subsystem.rec (motive := fun _ => Evaluation) gpio uart can lin, ?_, rfl⟩
  rintro (_ | _ | _ | _)
  · exact hgpio
  · exact huart
  · exact hcan
  · exact hlin

end BoardTest

end

/-! ## Workbenches -/

namespace Workbench

/-- What is seen of a workbench. -/
def view : View Workbench where
  files := tree
  printed := printed

theorem unseen_inSession {α : Type}
    (step : Session Board → Ending BenchError α × Session Board) :
    view.Unseen (inSession step) := by
  have hrestore : ∀ (w : Workbench) s, (w.restore s).tree = w.tree ∧
      (w.restore s).printed = w.printed := by
    intro w s
    unfold restore
    split <;> exact ⟨rfl, rfl⟩
  intro w
  unfold inSession
  split
  · exact ⟨rfl, rfl⟩
  · split <;> exact hrestore w _

theorem onFiles_onTree {α : Type} (use : StateM Tree α) : view.OnFiles (onTree use) use :=
  fun _ => ⟨_, rfl, rfl, rfl⟩

theorem unseen_openPort (settings : SerialSettings) (side : Side) (path : String) :
    view.Unseen (host.openPort settings side path) := by
  intro w
  have hoccupy : ∀ (w : Workbench) number, (w.occupy number side).tree = w.tree ∧
      (w.occupy number side).printed = w.printed := by
    intro w number
    cases side <;> exact ⟨rfl, rfl⟩
  change view.files (openPort settings side path w).2 = _ ∧
    view.printed (openPort settings side path w).2 = _
  unfold openPort
  split
  · exact ⟨rfl, rfl⟩
  · split
    · exact ⟨rfl, rfl⟩
    · exact hoccupy _ _

theorem host_shows : host.Shows view where
  read _ := onFiles_onTree _
  makeDirectories _ := onFiles_onTree _
  write _ _ := onFiles_onTree _
  openPort := unseen_openPort
  clearInput := unseen_inSession _
  ensureIdle _ := unseen_inSession _
  runPhase _ _ := unseen_inSession _
  localTime _ := ⟨rfl, rfl⟩
  print _ _ := ⟨_, rfl, rfl, rfl⟩
  complain _ _ := ⟨rfl, rfl⟩

end Workbench

end BoardBench
