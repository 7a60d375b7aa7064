import ForgeQuery.Text.Blank

/-!
# Sets of characters

A `CharSet` describes a set of characters by ranges and by the operations on sets. It is data, so
sets can be compared; `CharSet.has` tells what is in a set. The sets that go by a name hold
characters of ASCII only.
-/

namespace ForgeQuery

/-- A set of characters. -/
inductive CharSet where
  /-- the set without a character -/
  | empty
  /-- the characters from one to another, both included -/
  | range (first last : Char)
  /-- what is in either of two sets -/
  | union (s t : CharSet)
  /-- what is in both of two sets -/
  | inter (s t : CharSet)
  /-- what is not in a set -/
  | complement (s : CharSet)
  deriving DecidableEq

namespace CharSet

/-- Whether a character is in a set. -/
def has (c : Char) : CharSet → Bool
  | empty => false
  | range first last => decide (first.toNat ≤ c.toNat) && decide (c.toNat ≤ last.toNat)
  | union s t => s.has c || t.has c
  | inter s t => s.has c && t.has c
  | complement s => !s.has c

/-- The set of one character. -/
def single (c : Char) : CharSet := range c c

/-- What is in one set and not in another. -/
def minus (s t : CharSet) : CharSet := inter s (complement t)

/-- What is in one of two sets and not in the other. -/
def difference (s t : CharSet) : CharSet := union (s.minus t) (t.minus s)

/-- The set of every character. -/
def all : CharSet := complement empty

/-- What is in any of a number of ranges. -/
def ofRanges (ranges : List (Char × Char)) : CharSet :=
  ranges.foldr (fun r s => union (range r.1 r.2) s) empty

/-! ## Sets with a name -/

/-- The sets that go by a name. -/
def named : List (String × CharSet) :=
  [("alnum", ofRanges [('0', '9'), ('A', 'Z'), ('a', 'z')]),
    ("alpha", ofRanges [('A', 'Z'), ('a', 'z')]),
    ("ascii", range '\x00' '\x7f'),
    ("blank", ofRanges [('\t', '\t'), (' ', ' ')]),
    ("cntrl", ofRanges [('\x00', '\x1f'), ('\x7f', '\x7f')]),
    ("digit", range '0' '9'),
    ("graph", range '!' '~'),
    ("lower", range 'a' 'z'),
    ("print", range ' ' '~'),
    ("punct", ofRanges [('!', '/'), (':', '@'), ('[', '\x60'), ('\x7b', '~')]),
    ("space", ofRanges [('\t', '\r'), (' ', ' ')]),
    ("upper", range 'A' 'Z'),
    ("word", ofRanges [('0', '9'), ('A', 'Z'), ('a', 'z'), ('_', '_')]),
    ("xdigit", ofRanges [('0', '9'), ('A', 'F'), ('a', 'f')])]

/-- The set that goes by a name. -/
def ofName? (name : Text) : Option CharSet :=
  (named.find? fun s => s.1.toList == name).map Prod.snd

end CharSet

end ForgeQuery
