/-!
# Wrapped text

A text is wrapped by putting word behind word for as long as the line has room. Blanks between the
words of a line stay as they are, and those at which a line ends are dropped. No word is cut, so
**a line is wider than asked only if it is a single word** (`fits_of_mem_wrap`).

A character takes one column. What the text has in lines of its own is wrapped line by line.
-/

set_option autoImplicit false

namespace BoardBench.Text

/-- The words of a line, each with the blanks behind it. -/
def words (cs : List Char) : List (List Char) :=
  cs.splitBy fun c d => !(c == ' ' && d != ' ')

/-- A word without the blanks behind it. -/
def bare (word : List Char) : List Char :=
  word.takeWhile (· != ' ')

def blanksBehind (word : List Char) : List Char :=
  word.dropWhile (· != ' ')

/-- Goes on with a line that ends in some blanks, and then with the lines behind it. -/
def fill (width : Nat) (line blanks : List Char) : List (List Char) → List (List Char)
  | [] => [line]
  | word :: rest =>
    let longer := line ++ blanks ++ bare word
    if longer.length ≤ width then fill width longer (blanksBehind word) rest
    else line :: fill width (bare word) (blanksBehind word) rest

def wrapLine (width : Nat) (cs : List Char) : List (List Char) :=
  match words cs with
  | [] => [[]]
  | word :: rest => fill width (bare word) (blanksBehind word) rest

/-- The lines of a text that is wrapped to some width. -/
def wrap (width : Nat) (text : String) : List String :=
  ((text.toList.splitOn '\n').flatMap (wrapLine width)).map String.ofList

/-! ## Widths -/

/-- The line has the width asked for, or it is a single word. -/
def Fits (width : Nat) (line : List Char) : Prop :=
  line.length ≤ width ∨ ' ' ∉ line

theorem fits_bare (width : Nat) (word : List Char) : Fits width (bare word) := by
  refine Or.inr fun h => ?_
  have hblank := List.all_eq_true.1 (List.all_takeWhile (p := (· != ' ')) (l := word)) _ h
  simp at hblank

theorem fits_of_mem_fill {width : Nat} {words : List (List Char)} {line blanks : List Char}
    (h : Fits width line) : ∀ l ∈ fill width line blanks words, Fits width l := by
  induction words generalizing line blanks with
  | nil => exact List.forall_mem_singleton.2 h
  | cons word rest ih =>
    simp only [fill]
    split
    · rename_i hroom
      exact ih (Or.inl hroom)
    · exact List.forall_mem_cons.2 ⟨h, ih (fits_bare width word)⟩

/-- **Only a single word makes a line too wide.** -/
theorem fits_of_mem_wrap {width : Nat} {text : String} :
    ∀ line ∈ wrap width text, Fits width line.toList := by
  intro line hline
  obtain ⟨cs, hcs, rfl⟩ := List.mem_map.1 hline
  obtain ⟨part, -, hpart⟩ := List.mem_flatMap.1 hcs
  rw [String.toList_ofList]
  unfold wrapLine at hpart
  split at hpart
  · obtain rfl := List.mem_singleton.1 hpart
    exact Or.inr List.not_mem_nil
  · exact fits_of_mem_fill (fits_bare width _) cs hpart

example : wrap 10 "one two  three [four-and-more]" = ["one two", "three", "[four-and-more]"] := by
  decide

end BoardBench.Text
