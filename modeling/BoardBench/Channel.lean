import BoardBench.Event
import BoardBench.Text.Utf8

/-!
# Channels

The payload of an event starts with the name of the peripheral that it is about, such as
`serial@40013800`. Names of one kind all have the same width, so the *channel* of an event is the
front of its payload, that many bytes long. A payload that has no such front is a channel of its
own.

Events are compared channel by channel: `channels` lists the channels of some categories of events
in order of first appearance, and `onChannel` takes one channel out of a category.
-/

set_option autoImplicit false

namespace BoardBench

/-- The events of a role whose payload satisfies `p`, in log order. -/
def selected (role : Role) (p : Event → Bool) (log : List Event) : List Event :=
  log.filter fun e => e.isFrom role && p e

/-- The channel of an event: the first `width` bytes of its payload, or the whole payload if it is
shorter or the cut would fall inside a character. -/
def Event.channel (width : Nat) (e : Event) : String :=
  match Text.firstBytes width e.payload.toList with
  | some front => String.ofList front
  | none => e.payload

/-- The channels that occur in any of the categories, each once, in order of first appearance. -/
def channels (width : Nat) (categories : List (List Event)) : List String :=
  (categories.flatten.map (Event.channel width)).eraseDups

/-- The events of a category that are on a channel. -/
def onChannel (width : Nat) (channel : String) (events : List Event) : List Event :=
  events.filter (·.channel width == channel)

/-! ## Membership -/

theorem mem_channels {width : Nat} {categories : List (List Event)} {c : String} :
    c ∈ channels width categories ↔
      ∃ events ∈ categories, ∃ e ∈ events, e.channel width = c := by
  simp only [channels, List.mem_eraseDups, List.mem_map, List.mem_flatten]
  constructor
  · rintro ⟨e, ⟨events, hc, he⟩, rfl⟩
    exact ⟨events, hc, e, he, rfl⟩
  · rintro ⟨events, hc, e, he, rfl⟩
    exact ⟨e, ⟨events, hc, he⟩, rfl⟩

theorem mem_onChannel {width : Nat} {c : String} {events : List Event} {e : Event} :
    e ∈ onChannel width c events ↔ e ∈ events ∧ e.channel width = c := by
  simp [onChannel]

end BoardBench
