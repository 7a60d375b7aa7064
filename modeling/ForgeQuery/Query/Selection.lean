import ForgeQuery.Text.Cut

/-!
# Splitting a selection body into units

A selection body lists its fields separated by commas or newlines. A separator counts only where
as many braces and as many parentheses have been opened as closed; brackets inside string literals
count like any others. The two differences are signed, so a stray closing bracket switches
splitting off until an opening one makes up for it.

* `Depth` — the two differences, and how a character moves them.
* `pieces` — the text between consecutive cuts, untrimmed; joined at the cuts they give the body
  back.
* `splitSelections` — the pieces trimmed, without the empty ones.
-/

namespace ForgeQuery

/-! ## Bracket depth -/

/-- How many more brackets have been opened than closed, for each of the two kinds. -/
structure Depth where
  /-- opening less closing braces -/
  braces : Int
  /-- opening less closing parentheses -/
  parens : Int
  deriving DecidableEq

namespace Depth

/-- Nothing is open. -/
def ground : Depth := ⟨0, 0⟩

/-- The depth after one more character. -/
def after (d : Depth) (c : Char) : Depth :=
  if c = '{' then { d with braces := d.braces + 1 }
  else if c = '}' then { d with braces := d.braces - 1 }
  else if c = '(' then { d with parens := d.parens + 1 }
  else if c = ')' then { d with parens := d.parens - 1 }
  else d

/-- The depth after a stretch of text. -/
def afterAll (d : Depth) (t : Text) : Depth := t.foldl after d

@[simp] theorem afterAll_nil (d : Depth) : d.afterAll [] = d := rfl

@[simp] theorem afterAll_cons (d : Depth) (c : Char) (t : Text) :
    d.afterAll (c :: t) = (d.after c).afterAll t := rfl

end Depth

/-! ## Units -/

/-- A comma or a newline. -/
def isSeparator (c : Char) : Bool := c == ',' || c == '\n'

/-- A separator leaves the depth alone. -/
theorem Depth.after_separator (d : Depth) {c : Char} (h : isSeparator c = true) :
    d.after c = d := by
  simp only [isSeparator, Bool.or_eq_true, beq_iff_eq] at h
  rcases h with rfl | rfl <;> simp [after]

/-- The text between consecutive cuts, where a cut is a separator met at ground depth. There is
always a piece after the last cut, be it empty. -/
def pieces (d : Depth) : Text → List Text
  | [] => [[]]
  | c :: rest =>
    if isSeparator c = true ∧ d = Depth.ground then [] :: pieces d rest
    else (pieces (d.after c) rest).modifyHead (c :: ·)

theorem pieces_ne_nil (d : Depth) (t : Text) : pieces d t ≠ [] := by
  induction t generalizing d with
  | nil => simp [pieces]
  | cons c rest ih =>
    rw [pieces]
    split
    · simp
    · intro h
      exact ih (d.after c) (by simpa using h)

/-- The units of a selection body, in order: its pieces trimmed, without those that hold nothing
but blanks. -/
def splitSelections (body : Text) : List Text :=
  ((pieces Depth.ground body).map Text.trim).filter fun unit => !unit.isEmpty

/-- No unit is empty. -/
theorem ne_nil_of_mem_splitSelections {body unit : Text} (h : unit ∈ splitSelections body) :
    unit ≠ [] := by
  have := (List.mem_filter.1 h).2
  simpa using this

end ForgeQuery
