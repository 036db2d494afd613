import BoardBench.Proofs.Evaluation.Breakdown
import Mathlib.Algebra.GroupWithZero.Nat

/-!
# Channels — events are shared out, and none is lost or in two groups

Evaluations go through the channels that occur and take the events of each channel out of each
category. Nothing escapes them that way: **the channels share the events of a category out**
(`SharedOut`). Each event is in the group of one channel and of no other, in its place among those
of the group, and the groups together are the category. That is so because the channels are those of
the very categories that are shared out, collected event by event: one more for each event whose
channel was not seen before.

A channel is cut out of a payload by bytes, while payloads are made of characters of one to four
bytes. Two events share a channel **exactly if their payloads start with the same bytes, up to the
end of a character, or are the same altogether** (`Event.channel_eq_iff`).

`SharedOut` says "each once" in two ways, of events and of occurrences. The first is a unique
existence, and is what one wants to know of an event at hand. But equal events occur, and of these
it does not tell how many are in the group: the second says that the groups are a permutation of the
category, so that none is lost or doubled. As a permutation forgets the order, that of each group is
a field of its own.
-/

set_option autoImplicit false

namespace BoardBench

/-! ## The bytes of a channel -/

theorem Text.length_encode (text : String) : (encode text).length = text.utf8ByteSize := by
  have hbytes : (encode text).toByteArray = text.toByteArray := by
    rw [encode, ← List.utf8Encode, ← String.toByteArray_ofList, String.ofList_toList]
  rw [← List.size_toByteArray, hbytes, String.utf8ByteSize]

theorem Text.isPrefix_toList_iff {c text : String} :
    c.toList <+: text.toList ↔ ∃ rest, text = c ++ rest := by
  constructor
  · rintro ⟨rest, hrest⟩
    refine ⟨String.ofList rest, ?_⟩
    rw [← String.toList_inj, String.toList_append, String.toList_ofList, hrest]
  · rintro ⟨rest, rfl⟩
    rw [String.toList_append]
    exact List.prefix_append _ _

namespace Event

variable {width : Nat} {e f : Event}

/-- The payload has a front of `width` bytes: there are as many, and they end where a character
ends. -/
def HasFront (width : Nat) (e : Event) : Prop :=
  String.Pos.Raw.IsValid e.payload ⟨width⟩

instance (width : Nat) (e : Event) : Decidable (e.HasFront width) :=
  decidable_of_iff _ String.Pos.Raw.isValid_eq_true_iff

/-- The first bytes of the payload: `width` of them, or all if there are fewer. -/
def front (width : Nat) (e : Event) : ByteArray :=
  e.payload.toByteArray.extract 0 width

/-- Two payloads have the same first bytes, and these are a front of the one and thereby of the
other. -/
structure StartsLike (width : Nat) (e f : Event) : Prop where
  hasFront : e.HasFront width
  front_eq : e.front width = f.front width

theorem hasFront_iff : e.HasFront width ↔
    ∃ c : String, c.toList <+: e.payload.toList ∧ (Text.encode c).length = width := by
  rw [HasFront, String.Pos.Raw.isValid_iff_exists_append]
  refine exists_congr fun c => ?_
  rw [exists_and_right, Text.isPrefix_toList_iff, Text.length_encode, String.Pos.Raw.ext_iff]
  exact and_congr_right fun _ => eq_comm

/-- The bytes of a text that the payload starts with are its first bytes. -/
theorem front_eq_of_isPrefix {c : String} (h : c.toList <+: e.payload.toList)
    (hwidth : (Text.encode c).length = width) : e.front width = c.toByteArray := by
  obtain ⟨rest, hrest⟩ := Text.isPrefix_toList_iff.1 h
  rw [Text.length_encode] at hwidth
  rw [front, hrest, String.toByteArray_append]
  exact ByteArray.extract_append_eq_left hwidth.symm

theorem size_front (h : e.HasFront width) : (e.front width).size = width := by
  have hle : width ≤ e.payload.toByteArray.size := h.le_rawEndPos
  rw [front, ByteArray.size_extract, Nat.min_eq_left hle, Nat.sub_zero]

/-- **The channel is the front of the payload**, if it has one. -/
theorem toByteArray_channel (h : e.HasFront width) :
    (e.channel width).toByteArray = e.front width := by
  rcases e.hasChannel_channel width with ⟨hstarts, hwidth⟩ | ⟨-, hnone⟩
  · exact (front_eq_of_isPrefix hstarts hwidth).symm
  · obtain ⟨c, hstarts, hwidth⟩ := hasFront_iff.1 h
    exact absurd hwidth (hnone c hstarts)

/-- **Otherwise it is the payload.** -/
theorem channel_of_not_hasFront (h : ¬e.HasFront width) : e.channel width = e.payload := by
  rcases e.hasChannel_channel width with hfront | ⟨hwhole, -⟩
  · exact absurd (hasFront_iff.2 ⟨_, hfront⟩) h
  · exact hwhole

/-- A text that is `width` bytes long is a front of itself. -/
theorem hasFront_of_size (h : e.payload.utf8ByteSize = width) : e.HasFront width :=
  hasFront_iff.2 ⟨e.payload, List.prefix_rfl, by rw [Text.length_encode, h]⟩

namespace StartsLike

theorem symm (h : e.StartsLike width f) : f.StartsLike width e := by
  obtain ⟨hfront, heq⟩ := h
  refine ⟨String.Pos.Raw.isValid_iff_isValidUTF8_extract_zero.2 ⟨?_, ?_⟩, heq.symm⟩
  · -- what the other payload has of these bytes is as many of them
    have hsize := size_front hfront
    rw [heq, front, ByteArray.size_extract] at hsize
    have hle : width ≤ f.payload.toByteArray.size := by omega
    exact hle
  · have hvalid : (e.front width).IsValidUTF8 := hfront.isValidUTF8_extract_zero
    rwa [heq] at hvalid

theorem channel_eq (h : e.StartsLike width f) : e.channel width = f.channel width := by
  rw [← String.toByteArray_inj, toByteArray_channel h.hasFront,
    toByteArray_channel h.symm.hasFront, h.front_eq]

end StartsLike

/-- A channel that is as wide as it should be is no payload without a front. -/
theorem channel_ne_payload (h : e.HasFront width) (hf : ¬f.HasFront width) :
    e.channel width ≠ f.payload := by
  intro heq
  refine hf (hasFront_of_size ?_)
  rw [← heq, String.utf8ByteSize, toByteArray_channel h, size_front h]

/-- **Two events are on one channel exactly if their payloads start with the same bytes**, and these
are a front of them, **or are the same.** -/
theorem channel_eq_iff :
    e.channel width = f.channel width ↔ e.StartsLike width f ∨ e.payload = f.payload := by
  constructor
  · intro heq
    by_cases he : e.HasFront width
    · by_cases hf : f.HasFront width
      · left
        exact ⟨he, by rw [← toByteArray_channel he, heq, toByteArray_channel hf]⟩
      · rw [channel_of_not_hasFront hf] at heq
        exact absurd heq (channel_ne_payload he hf)
    · by_cases hf : f.HasFront width
      · rw [channel_of_not_hasFront he] at heq
        exact absurd heq.symm (channel_ne_payload hf he)
      · right
        rwa [channel_of_not_hasFront he, channel_of_not_hasFront hf] at heq
  · rintro (hlike | hpayload)
    · exact hlike.channel_eq
    · rw [channel, channel, hpayload]

end Event

/-! ## The channels that occur -/

/-- The place of the first event on a channel, when categories are gone through one after the
other. -/
def firstOn (width : Nat) (categories : List (List Event)) (c : String) : Nat :=
  categories.flatten.findIdx (·.channel width == c)

theorem firstOn_eq_idxOf (width : Nat) (categories : List (List Event)) (c : String) :
    firstOn width categories c = (categories.flatten.map (Event.channel width)).idxOf c := by
  rw [firstOn, List.idxOf, List.findIdx_map]
  rfl

/-- **Channels are gone through in order of first appearance.** -/
theorem pairwise_firstOn_channels (width : Nat) (categories : List (List Event)) :
    (channels width categories).Pairwise fun c d =>
      firstOn width categories c < firstOn width categories d := by
  simp only [firstOn_eq_idxOf]
  exact pairwise_idxOf_eraseDups _

/-! ## Sharing out -/

variable {width : Nat} {cs : List String} {events : List Event} {e : Event}

theorem onChannel_cons_self (width : Nat) (e : Event) (events : List Event) :
    onChannel width (e.channel width) (e :: events) =
      e :: onChannel width (e.channel width) events :=
  List.filter_cons_of_pos (beq_self_eq_true _)

theorem onChannel_cons_of_ne {c : String} (h : c ≠ e.channel width) :
    onChannel width c (e :: events) = onChannel width c events :=
  List.filter_cons_of_neg (by simpa using Ne.symm h)

/-- **The groups of some channels make up the category**, if each of its events is on one of them
and none is gone through twice. -/
theorem flatMap_onChannel_perm (hcs : cs.Nodup) (h : ∀ e ∈ events, e.channel width ∈ cs) :
    (cs.flatMap (onChannel width · events)).Perm events := by
  induction events with
  | nil =>
    have hnil : cs.flatMap (onChannel width · []) = [] := List.flatMap_eq_nil_iff.2 fun c _ => rfl
    rw [hnil]
  | cons e events ih =>
    -- the event joins the group of its own channel and no other
    obtain ⟨before, after, rfl⟩ := List.append_of_mem (h e List.mem_cons_self)
    obtain ⟨-, hrest, hdisjoint⟩ := List.nodup_append.1 hcs
    obtain ⟨hafter, -⟩ := List.nodup_cons.1 hrest
    have hothers : ∀ {cs' : List String}, e.channel width ∉ cs' →
        cs'.flatMap (onChannel width · (e :: events)) = cs'.flatMap (onChannel width · events) :=
      fun hnot => List.flatMap_congr fun c hc => onChannel_cons_of_ne fun heq => hnot (heq ▸ hc)
    have hbefore : e.channel width ∉ before :=
      fun hmem => hdisjoint _ hmem _ List.mem_cons_self rfl
    have ih := ih fun e' he' => h e' (List.mem_cons_of_mem _ he')
    rw [List.flatMap_append, List.flatMap_cons] at ih ⊢
    rw [hothers hbefore, hothers hafter, onChannel_cons_self, List.cons_append]
    exact List.perm_middle.trans (ih.cons e)

/-- The events of a category are shared out among channels. -/
structure SharedOut (width : Nat) (cs : List String) (events : List Event) : Prop where
  /-- Each event is in one group, and only in this. -/
  one_group : ∀ e ∈ events, ∃! c, c ∈ cs ∧ e ∈ onChannel width c events
  /-- A group is in the order of the category. -/
  in_order : ∀ c ∈ cs, (onChannel width c events).Sublist events
  /-- The groups make up the category: what occurs twice in it is in its group twice. -/
  whole : (cs.flatMap (onChannel width · events)).Perm events
  sizes : (cs.map fun c => (onChannel width c events).length).sum = events.length

theorem sharedOut (hcs : cs.Nodup) (h : ∀ e ∈ events, e.channel width ∈ cs) :
    SharedOut width cs events where
  one_group e he := by
    refine ⟨e.channel width, ⟨h e he, mem_onChannel.2 ⟨he, rfl⟩⟩, ?_⟩
    rintro c ⟨-, hc⟩
    exact (mem_onChannel.1 hc).2.symm
  in_order c _ := List.filter_sublist
  whole := flatMap_onChannel_perm hcs h
  sizes := by rw [← List.length_flatMap, (flatMap_onChannel_perm hcs h).length_eq]

/-- **Channels share the events of all categories out.** No channel is listed twice, those that are
listed are those that occur, and they are in order of first appearance. Among them each category is
shared out. The channel of an event is the front of its payload, or the payload if it has no front;
so two events, whatever their categories, are in the groups of one channel exactly if their payloads
start with the same bytes, as many as the channels are wide and up to the end of a character, or are
the same. -/
theorem channels_share_events_out (width : Nat) (categories : List (List Event)) :
    (channels width categories).Nodup ∧
    (∀ c, c ∈ channels width categories ↔
      ∃ events ∈ categories, ∃ e ∈ events, e.channel width = c) ∧
    (channels width categories).Pairwise (fun c d =>
      firstOn width categories c < firstOn width categories d) ∧
    (∀ events ∈ categories, SharedOut width (channels width categories) events) ∧
    (∀ e : Event, (e.HasFront width → (e.channel width).toByteArray = e.front width) ∧
      (¬e.HasFront width → e.channel width = e.payload)) ∧
    ∀ events ∈ categories, ∀ others ∈ categories, ∀ e ∈ events, ∀ f ∈ others,
      (∃ c ∈ channels width categories,
        e ∈ onChannel width c events ∧ f ∈ onChannel width c others) ↔
      e.StartsLike width f ∨ e.payload = f.payload := by
  have hlisted : ∀ events ∈ categories, ∀ e ∈ events,
      e.channel width ∈ channels width categories :=
    fun events hevents e he => mem_channels.2 ⟨events, hevents, e, he, rfl⟩
  refine ⟨nodup_channels _ _, fun c => mem_channels, pairwise_firstOn_channels _ _,
    fun events hevents => sharedOut (nodup_channels _ _) (hlisted events hevents),
    fun e => ⟨Event.toByteArray_channel, Event.channel_of_not_hasFront⟩, ?_⟩
  intro events hevents others hothers e he f hf
  rw [← Event.channel_eq_iff]
  constructor
  · rintro ⟨c, -, hec, hfc⟩
    rw [(mem_onChannel.1 hec).2, (mem_onChannel.1 hfc).2]
  · intro heq
    exact ⟨e.channel width, hlisted events hevents e he, mem_onChannel.2 ⟨he, rfl⟩,
      mem_onChannel.2 ⟨hf, heq.symm⟩⟩

/-- Payloads that are cut behind a name, that end there, that would be cut inside a character, and
that are too short. -/
def mixedNames : List (List Event) := [
    [⟨1, .inf, "sut", "can@1: a"⟩, ⟨2, .inf, "sut", "can@1é"⟩, ⟨3, .inf, "sut", "can@é on"⟩,
      ⟨4, .inf, "sut", "can@1: b"⟩, ⟨4, .inf, "sut", "can@1: b"⟩],
    [⟨1, .inf, "tester", "can@é"⟩, ⟨2, .inf, "tester", "can@1"⟩, ⟨3, .inf, "tester", "can@1é"⟩]]

theorem mixedNames_are_shared_out :
    channels 6 mixedNames = ["can@1:", "can@1é", "can@é", "can@1"] ∧
      (∀ events ∈ mixedNames, SharedOut 6 ["can@1:", "can@1é", "can@é", "can@1"] events) ∧
      ∃ c ∈ channels 6 mixedNames,
        ⟨3, .inf, "sut", "can@é on"⟩ ∈ onChannel 6 c mixedNames[0] ∧
          ⟨1, .inf, "tester", "can@é"⟩ ∈ onChannel 6 c mixedNames[1] := by
  have hchannels : channels 6 mixedNames = ["can@1:", "can@1é", "can@é", "can@1"] := by
    decide +kernel
  obtain ⟨-, -, -, hshared, -, hgroup⟩ := channels_share_events_out 6 mixedNames
  refine ⟨hchannels, hchannels ▸ hshared, ?_⟩
  refine (hgroup _ (List.getElem_mem _) _ (List.getElem_mem _) _ (by decide) _ (by decide)).2 ?_
  exact Or.inl ⟨by decide +kernel, by decide +kernel⟩

end BoardBench
