import BoardBench.Proofs.Phase.Progress

/-!
# Streams — what a reader that is through took off its link

A reader that has delivered the stop message sent the start command once and then read line after
line. `Streamed b l₀ lines es l` says what that comes to: the link went from `l₀` to `l` by one
write of the start command and by reads of `lines`, of which nothing but echoes and boot banners
was dropped; all others are the wire forms of `es`, and the stop message is the last thing read.

`Progress.streamed` is the one induction: it runs over the history of a reader, with `Heeded` as
what every reader that did not fail has done so far.

`Streamed` is stated of the link and not of the reader, as the reader is forgotten when the phase is
over. It extends `Heeded` by two facts about the ends of the lists. They are kept apart because a
list that grows at its end has them only at the last step: until then any event may turn out not to
have been the last one. The lines are dropped by what they are (`Bracket.keeps`) and not by what the
reader did with them, so that the statement can be read without the reader.
-/

set_option autoImplicit false

namespace BoardBench

/-- The line is neither an echo of the start command nor a boot banner. -/
def Bracket.keeps (b : Bracket) (line : String) : Bool :=
  line != b.start && !Line.isBanner line.toList

/-! ## Lines as a phase hears them -/

theorem Line.isBanner_of_parse {line text : String} (h : Line.parse line = .ok (.banner text)) :
    Line.isBanner line.toList = true := by
  simp only [Line.parse] at h
  split at h
  · assumption
  · split at h
    · cases h
    · split at h <;> cases h

theorem Line.not_isBanner_of_parse {line : String} {e : Event}
    (h : Line.parse line = .ok (.event e)) : Line.isBanner line.toList = false := by
  simp only [Line.parse] at h
  split at h
  · cases h
  · simpa using ‹¬Line.isBanner line.toList = true›

theorem Heard.keeps_of_skipped {b : Bracket} {port line : String}
    (h : Heard.ofLine b port line = .skipped) : b.keeps line = false := by
  unfold Heard.ofLine at h
  split at h
  · cases h
  · split at h
    · simp_all [Bracket.keeps]
    · split at h
      · cases h
      · simp [Bracket.keeps, Line.isBanner_of_parse ‹_›]
      · cases h

/-- An event is heard where a line is its wire form, and no echo. -/
theorem Heard.parse_of_event {b : Bracket} {port line : String} {e : Event}
    (h : Heard.ofLine b port line = .event e) :
    b.keeps line = true ∧ Line.parse line = .ok (.event e) := by
  unfold Heard.ofLine at h
  split at h
  · cases h
  · split at h
    · cases h
    · rename_i hne
      split at h
      · cases h
        have hb := Line.not_isBanner_of_parse ‹_›
        exact ⟨by simpa [Bracket.keeps, hb] using hne, ‹_›⟩
      · cases h
      · cases h

/-! ## What was read so far -/

section Streams

variable {σ : Type} [Link σ]

/-- Reads that follow one another and each yield a line. -/
inductive ReadsLines : σ → List String → σ → Prop
  | nil (l : σ) : ReadsLines l [] l
  | concat {l m l' : σ} {lines : List String} {d : Nat} {line : String}
      (h : ReadsLines l lines m) (hr : Link.read m = .after d (.ok line) l') :
      ReadsLines l (lines ++ [line]) l'

/-- The start command was sent and then lines were read. All but the echoes and the banners among
them are the wire forms of some events. -/
structure Heeded (b : Bracket) (l₀ : σ) (lines : List String) (es : List Event) (l : σ) : Prop where
  reads : ∃ sent, Link.write b.start l₀ = (.ok (), sent) ∧ ReadsLines sent lines l
  heard : (lines.filter b.keeps).map Line.parse = es.map fun e => .ok (.event e)

/-- The same, up to the stop message: it is the last event and the last line, and there is no
other. -/
structure Streamed (b : Bracket) (l₀ : σ) (lines : List String) (es : List Event) (l : σ) : Prop
    extends Heeded b l₀ lines es l where
  stops : ∃ front last, es = front ++ [last] ∧ last.payload = b.stop ∧
    ∀ e ∈ front, e.payload ≠ b.stop
  ends : ∃ before line, lines = before ++ [line] ∧ b.keeps line = true

variable {b : Bracket} {l₀ : σ} {lines : List String} {es : List Event} {l l' : σ} {d : Nat}
  {line : String}

theorem Heeded.skip (h : Heeded b l₀ lines es l) (hr : Link.read l = .after d (.ok line) l')
    (hk : b.keeps line = false) : Heeded b l₀ (lines ++ [line]) es l' := by
  obtain ⟨sent, hw, hreads⟩ := h.reads
  refine ⟨⟨sent, hw, hreads.concat hr⟩, ?_⟩
  simpa [List.filter_append, hk] using h.heard

theorem Heeded.hear {e : Event} (h : Heeded b l₀ lines es l)
    (hr : Link.read l = .after d (.ok line) l') (hk : b.keeps line = true)
    (he : Line.parse line = .ok (.event e)) : Heeded b l₀ (lines ++ [line]) (es ++ [e]) l' := by
  obtain ⟨sent, hw, hreads⟩ := h.reads
  refine ⟨⟨sent, hw, hreads.concat hr⟩, ?_⟩
  rw [List.filter_append, List.map_append, List.map_append, h.heard]
  simp [hk, he]

/-- What a reader that did not fail has read so far, by its stage. An event that is held is the last
one heard, in the last line. -/
def SoFar (b : Bracket) (l₀ : σ) (es : List Event) (r : Reader σ) : Prop :=
  match r.stage with
  | .ready => True
  | .failed _ => True
  | .reading _ => (∀ e ∈ es, e.payload ≠ b.stop) ∧ ∃ lines, Heeded b l₀ lines es r.link
  | .hanging => (∀ e ∈ es, e.payload ≠ b.stop) ∧ ∃ lines, Heeded b l₀ lines es r.link
  | .holding e => ∃ front before line, es = front ++ [e] ∧ b.keeps line = true ∧
      (∀ x ∈ front, x.payload ≠ b.stop) ∧ Heeded b l₀ (before ++ [line]) es r.link
  | .finished => ∃ lines, Streamed b l₀ lines es r.link

theorem Progress.soFar {rs : List Reception} {r : Reader σ} (h : Progress b l₀ rs es r) :
    SoFar b l₀ es r := by
  induction h with
  | ready => trivial
  | refused _ => trivial
  | @started l t hw => exact ⟨by simp, [], ⟨l, hw, .nil l⟩, rfl⟩
  | hung _ _ ih => exact ih
  | broken _ _ _ => trivial
  | skipped _ hr hh _ ih =>
    obtain ⟨hstop, lines, hl⟩ := ih
    exact ⟨hstop, _, hl.skip hr (Heard.keeps_of_skipped hh)⟩
  | @heard rs es l l' t d line e _ hr hh ih =>
    obtain ⟨hstop, lines, hl⟩ := ih
    obtain ⟨hk, he⟩ := Heard.parse_of_event hh
    exact ⟨es, lines, line, rfl, hk, hstop, hl.hear hr hk he⟩
  | faulty _ _ _ _ => trivial
  | delivered _ he t ih =>
    -- the event that was held is no stop message, or the reader would be through
    obtain ⟨front, before, line, rfl, -, hstop, hl⟩ := ih
    refine ⟨fun x hx => ?_, _, hl⟩
    rcases List.mem_append.mp hx with hx | hx
    · exact hstop x hx
    · exact List.mem_singleton.mp hx ▸ he
  | stopped _ he ih =>
    obtain ⟨front, before, line, rfl, hk, hstop, hl⟩ := ih
    exact ⟨_, hl, ⟨front, _, rfl, he, hstop⟩, before, line, rfl, hk⟩

/-- **A reader that is through streamed its link up to the stop message.** -/
theorem Progress.streamed {rs : List Reception} {r : Reader σ} (h : Progress b l₀ rs es r)
    (hs : r.stage = .finished) : ∃ lines, Streamed b l₀ lines es r.link := by
  have := h.soFar
  rw [SoFar, hs] at this
  exact this

end Streams

end BoardBench
