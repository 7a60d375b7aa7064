/-!
# Text and its blanks

A `Text` is a list of characters: every reader of this library takes its input apart from the
front, so a list is the shape it wants. This module holds the one character class that all of them
share, the characters with the Unicode property `White_Space`, and trimming by it.

* `Text.isBlank` is the property, as a table of ranges.
* `Text.trim` removes blanks at both ends.
-/

namespace ForgeQuery

/-- A text, taken apart character by character. -/
abbrev Text : Type := List Char

namespace Text

/-! ## The property `White_Space` -/

/-- The code point ranges of `White_Space`, both ends included. -/
def blankRanges : List (Nat × Nat) :=
  [(0x09, 0x0D), (0x20, 0x20), (0x85, 0x85), (0xA0, 0xA0), (0x1680, 0x1680), (0x2000, 0x200A),
    (0x2028, 0x2029), (0x202F, 0x202F), (0x205F, 0x205F), (0x3000, 0x3000)]

/-- Whether a character has the property `White_Space`. -/
def isBlank (c : Char) : Bool :=
  blankRanges.any fun r => r.1 ≤ c.toNat && c.toNat ≤ r.2

/-! ## Trimming -/

/-- The text without the blanks at its start. -/
def trimStart (t : Text) : Text := t.dropWhile isBlank

/-- The text without the blanks at its end. -/
def trimEnd (t : Text) : Text := (t.reverse.dropWhile isBlank).reverse

/-- The text without the blanks at its two ends. -/
def trim (t : Text) : Text := trimEnd (trimStart t)

theorem trimStart_cons (c : Char) (t : Text) :
    trimStart (c :: t) = if isBlank c then trimStart t else c :: t := by
  simp only [trimStart, List.dropWhile_cons]

/-- Trimming the start takes a stretch of blanks off the front and nothing else. -/
theorem trimStart_append (t : Text) : t.takeWhile isBlank ++ trimStart t = t :=
  List.takeWhile_append_dropWhile

end Text

end ForgeQuery
