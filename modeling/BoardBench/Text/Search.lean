/-!
# Searching a text

Whether one text occurs inside another, and comparison that ignores the case of ASCII letters.

A text is searched as the list of its characters. Every search is an infix, a prefix or a suffix of
lists then, and the lemmas that the library has about these are all that is needed.
-/

set_option autoImplicit false

namespace BoardBench.Text

/-- `needle` occurs somewhere in the list. -/
def occursIn (needle : List Char) : List Char → Bool
  | [] => needle.isEmpty
  | c :: cs => needle.isPrefixOf (c :: cs) || occursIn needle cs

/-- `needle` occurs somewhere in `text`. -/
def contains (text needle : String) : Bool :=
  occursIn needle.toList text.toList

/-- The text ends with `tail`. -/
def endsWith (text tail : String) : Bool :=
  tail.toList.isSuffixOf text.toList

/-- The text without `lead` at its front, or as it is if it does not start so. -/
def withoutLead (lead : String) (text : String) : String :=
  if lead.toList.isPrefixOf text.toList then String.ofList (text.toList.drop lead.toList.length)
  else text

/-- The texts, with a separator between each and the next. -/
def joined (separator : String) (texts : List String) : String :=
  separator.intercalate texts

/-- Capital ASCII letters become small ones; all other characters stay. -/
def foldCase (text : String) : List Char :=
  text.toList.map Char.toLower

/-- Equality up to the case of ASCII letters. -/
def sameFolded (a b : String) : Bool :=
  foldCase a == foldCase b

/-! ## Occurrence is being an infix -/

theorem occursIn_iff {needle cs : List Char} : occursIn needle cs = true ↔ needle <:+: cs := by
  induction cs with
  | nil => simp [occursIn]
  | cons c cs ih =>
    rw [occursIn, Bool.or_eq_true, ih, List.isPrefixOf_iff_prefix, List.infix_cons_iff]

theorem sameFolded_iff {a b : String} : sameFolded a b = true ↔ foldCase a = foldCase b := by
  simp [sameFolded]

end BoardBench.Text
