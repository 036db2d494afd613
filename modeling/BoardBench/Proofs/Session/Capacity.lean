import BoardBench.Proofs.Config
import BoardBench.Proofs.Phase.Failure
import BoardBench.Proofs.Toml.Decimal

/-!
# Capacities — which accepted configurations a phase can be run with

The capacity of the queue is looked at twice before a phase is run: a configuration is rejected if
it is zero, and a session takes one at least. Neither looks at the greatest capacity that a queue
can have. **So a phase finds its queue for every accepted capacity up to that limit, and no phase at
all can be run with an accepted capacity above it**
(`Session.accepted_capacities_run_up_to_the_limit`). There are such capacities: a document can say
any integer below `2 ^ 63`, and every positive one is accepted (`Config.ofToml_capacityDocument`).

The acceptance and the limit are stated together, as neither is remarkable alone: a validation that
asks for more than nothing, and a queue that cannot be greater than so much. What is wrong is that
one does not know of the other, and this takes a statement about one configuration in both places.
-/

set_option autoImplicit false

namespace BoardBench

/-! ## Documents that set the capacity -/

/-- A document that sets the capacity of the queue and nothing else. -/
def capacityDocument (n : Nat) : String :=
  "[phase]\n" ++ ("channel_capacity = " ++ Text.decimal n)

namespace Config

variable {n : Nat} {document : String} {c : Config}

theorem toList_capacityDocument (n : Nat) : (capacityDocument n).toList =
    "[phase]\n".toList ++ ("channel_capacity = ".toList ++ Text.digits n) := by
  have hdigits : (Text.decimal n).toList = Text.digits n := String.toList_ofList
  rw [capacityDocument, String.toList_append, String.toList_append, hdigits]

/-! What is in front of the digits is read in the same way whatever comes behind it. -/

section Front

variable (more : List Char)

theorem statement_header :
    Toml.statement ("[phase]\n".toList ++ more) = some (.header ["phase"], more) := by
  cbv

theorem head?_header : ("[phase]\n".toList ++ more).head? = some '[' := by
  cbv

theorem key_capacity : Toml.key ("channel_capacity = ".toList ++ more) =
    some (["channel_capacity"], '=' :: ' ' :: more) := by
  cbv

theorem head?_capacity : ("channel_capacity = ".toList ++ more).head? = some 'c' := by
  cbv

end Front

theorem statements_capacityDocument (h : n < 2 ^ 63) :
    Toml.statements (capacityDocument n).toList =
      some [.header ["phase"], .assignment ["channel_capacity"] (.integer n)] := by
  have hhead : ("channel_capacity = ".toList ++ Text.digits n).head? ≠ some '[' := by
    rw [head?_capacity]
    decide
  have hsetting := Toml.statement_digits h hhead (key_capacity (Text.digits n))
  have hend : Toml.statements [] = some [] := by cbv
  rw [toList_capacityDocument]
  refine Toml.statements_cons (head?_header _) (by decide) (statement_header _) ?_
    (Toml.statements_cons (head?_capacity _) (by decide) hsetting ?_ hend)
  · have hpos : 0 < "[phase]\n".toList.length := by decide
    simp only [List.length_append]
    omega
  · rw [List.length_append]
    exact Nat.add_pos_left (by decide) _

theorem parse_capacityDocument (h : n < 2 ^ 63) :
    Toml.parse (capacityDocument n) =
      some [("phase", .table [("channel_capacity", .integer n)])] := by
  have hassemble : ∀ v : Toml.Value,
      Toml.assemble [.header ["phase"], .assignment ["channel_capacity"] v] =
        some [("phase", .table [("channel_capacity", v)])] := fun v => by cbv
  unfold Toml.parse
  split
  · rename_i cs heq
    have hhead := head?_header ("channel_capacity = ".toList ++ Text.digits n)
    rw [← toList_capacityDocument, heq] at hhead
    exact absurd hhead (by simp)
  · dsimp only
    rw [statements_capacityDocument h]
    exact hassemble _

/-- Sections that are missing have their defaults, and so has the other field of this one. -/
theorem ofEntries?_phase (v : Toml.Value) :
    ofEntries? [("phase", v)] = (decodePhase v).map fun phase => { phase } := by
  rw [Option.map_eq_bind]
  rfl

theorem decodePhase_capacity (v : Toml.Value) :
    decodePhase (.table [("channel_capacity", v)]) =
      (decodeWord 64 v).map fun channelCapacity => { channelCapacity } := by
  rw [Option.map_eq_bind]
  rfl

/-- **Every positive integer that a document can say is accepted as a capacity.** -/
theorem ofToml_capacityDocument (hpos : 1 ≤ n) (h : n < 2 ^ 63) :
    ofToml (capacityDocument n) = .ok { phase := { channelCapacity := n } } := by
  have hdecode : ofEntries? [("phase", .table [("channel_capacity", .integer n)])] =
      some { phase := { channelCapacity := n } } := by
    have hword : decodeWord 64 (.integer n) = some n :=
      decodeWord_eq_some_iff.2 ⟨rfl, Nat.lt_trans h (by decide)⟩
    rw [ofEntries?_phase, decodePhase_capacity, hword]
    rfl
  rw [ofToml, parse_capacityDocument h, Option.bind_some, hdecode]
  dsimp only
  -- the other settings are the usual ones, which are in order
  have husual := violations_eq_nil_iff.1 (show violations {} = [] by decide)
  rw [validate_eq_ok_iff, violations_eq_nil_iff]
  exact ⟨rfl, husual.1, hpos, husual.2.2⟩

theorem capacity_of_ofToml (h : ofToml document = .ok c) : 1 ≤ c.phase.channelCapacity := by
  unfold ofToml at h
  split at h
  · cases h
  · obtain ⟨rfl, hviolations⟩ := validate_eq_ok_iff.1 h
    exact (violations_eq_nil_iff.1 hviolations).2.1

end Config

namespace Session

/-! ## Phases with a given capacity -/

section Phases

variable {σ : Type} [Link σ] {settings : PhaseSettings} {s : Session σ}

theorem queueLimit_eq : Phase.queueLimit = 2 ^ 61 - 1 := rfl

theorem runPhase_ne_queueTooLarge (hcap : max 1 settings.channelCapacity ≤ Phase.queueLimit)
    (limit : Limit) (b : Bracket) (capacity : Nat) (s' : Session σ) :
    s.runPhase settings limit b ≠ (.failed (.queueTooLarge capacity), s') := by
  intro h
  exact (endsPhase_of_begin (begin_newPhase hcap) h).2 capacity rfl

end Phases

/-- **An accepted configuration can be run exactly if its capacity is one that a queue can have.**
There is room for one event at least, so that up to the limit every phase finds its queue, whatever
the links and the devices; above the limit no phase can be begun, and nothing is sent. -/
theorem accepted_capacities_run_up_to_the_limit (document : String) (c : Config)
    (h : Config.ofToml document = .ok c) :
    1 ≤ c.phase.channelCapacity ∧
      ∀ (σ : Type) [Link σ] (s : Session σ) (limit : Limit) (b : Bracket),
        (c.phase.channelCapacity ≤ 2 ^ 61 - 1 →
          (∃ p, Phase.begin? (max 1 c.phase.channelCapacity) s.clock.now s.first s.second =
            some p) ∧
          ∀ capacity s', s.runPhase c.phase limit b ≠
            (.failed (.queueTooLarge capacity), s')) ∧
        (2 ^ 61 - 1 < c.phase.channelCapacity →
          s.runPhase c.phase limit b =
            (.failed (.queueTooLarge c.phase.channelCapacity), s)) := by
  have hpos := Config.capacity_of_ofToml h
  have hmax : max 1 c.phase.channelCapacity = c.phase.channelCapacity := Nat.max_eq_right hpos
  refine ⟨hpos, fun σ _ s limit b => ⟨fun hle => ?_, fun hlt => ?_⟩⟩
  · have hcap : max 1 c.phase.channelCapacity ≤ Phase.queueLimit := by
      rw [hmax, queueLimit_eq]
      exact hle
    exact ⟨⟨_, begin_newPhase hcap⟩, runPhase_ne_queueTooLarge hcap limit b⟩
  · have hcap : Phase.queueLimit < max 1 c.phase.channelCapacity := by
      rw [hmax, queueLimit_eq]
      exact hlt
    rw [runPhase_queueTooLarge hcap, hmax]

/-- Two devices that answer the first command of a phase with nothing but its stop message. -/
def stopper : Session ScriptedLink where
  first := ({ name := "a" } : ScriptedLink).respond "go" ["go", "[1] <inf> tester: end"]
  second := ({ name := "b" } : ScriptedLink).respond "go" ["go", "[2] <inf> sut: end"]

theorem greatest_capacity_runs_and_next_does_not :
    Config.ofToml (capacityDocument (2 ^ 61 - 1)) =
        .ok { phase := { channelCapacity := 2 ^ 61 - 1 } } ∧
      (∀ capacity s', stopper.runPhase { channelCapacity := 2 ^ 61 - 1 } none goBracket ≠
        (.failed (.queueTooLarge capacity), s')) ∧
      Config.ofToml (capacityDocument (2 ^ 61)) =
        .ok { phase := { channelCapacity := 2 ^ 61 } } ∧
      stopper.runPhase { channelCapacity := 2 ^ 61 } none goBracket =
        (.failed (.queueTooLarge (2 ^ 61)), stopper) := by
  have hgreatest : Config.ofToml (capacityDocument (2 ^ 61 - 1)) = .ok _ :=
    Config.ofToml_capacityDocument (by decide) (by decide)
  have hnext : Config.ofToml (capacityDocument (2 ^ 61)) = .ok _ :=
    Config.ofToml_capacityDocument (by decide) (by decide)
  obtain ⟨-, hruns⟩ := accepted_capacities_run_up_to_the_limit _ _ hgreatest
  obtain ⟨-, hfails⟩ := accepted_capacities_run_up_to_the_limit _ _ hnext
  obtain ⟨-, hqueue⟩ := (hruns ScriptedLink stopper none goBracket).1 (Nat.le_refl _)
  exact ⟨hgreatest, hqueue, hnext, (hfails ScriptedLink stopper none goBracket).2 (by decide)⟩

/-- **A capacity is accepted that no queue can have**, and then no phase can be begun. -/
theorem oversized_capacity_is_accepted :
    ∃ c, Config.ofToml "[phase]\nchannel_capacity = 2305843009213693952" = .ok c ∧
      stopper.runPhase c.phase none goBracket =
        (.failed (.queueTooLarge 2305843009213693952), stopper) := by
  have hdocument : "[phase]\nchannel_capacity = 2305843009213693952" =
      capacityDocument 2305843009213693952 := by cbv
  rw [hdocument]
  exact ⟨_, Config.ofToml_capacityDocument (by decide) (by decide), rfl⟩

end Session

end BoardBench
