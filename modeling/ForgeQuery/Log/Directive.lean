import ForgeQuery.Execution.Event
import ForgeQuery.Pattern.Reader

/-!
# Directives of a log filter

A directive says how far down reports are shown, and of what. It is written as one of

* a limit alone, which holds for every source;
* a source, with or without a limit behind an equals sign: every source whose name starts like
  that;
* a span in brackets, with a source in front or not, and a limit behind or not: what happens inside
  that span. In the brackets, behind the name of the span or in place of it, a field may stand in
  braces, alone or with the value that is expected of it.

A limit is the name of a level, or its rank; everything is shown that weighs at least as much, so
the higher the rank the more is shown. Where it is left out everything is.
-/

namespace ForgeQuery

/-! ## Limits -/

/-- How far down reports are shown: the rank of the finest level that is, or zero for none. -/
abbrev Limit : Type := Nat

namespace Limit

/-- The words for limits, in order. -/
def words : List Text :=
  ["off", "error", "warn", "info", "debug", "trace"].map String.toList

/-- Nothing is shown. -/
def nothing : Limit := 0

/-- Everything is shown. -/
def everything : Limit := Level.trace.rank

/-- Whether a limit lets a level through. -/
def shows (limit : Limit) (l : Level) : Bool := decide (l.rank ≤ limit)

/-- The number that digits stand for; a plus may stand in front. -/
def number? (t : Text) : Option Nat :=
  let digits := (['+'].isPrefixOf? t).getD t
  if digits.isEmpty || !digits.all Text.isDecimal then none else some (Text.valueOf digits)

/-- The limit that a word stands for. -/
def ofText? (t : Text) : Option Limit :=
  match number? t with
  | some n => if n < words.length then some n else none
  | none => words.findIdx? fun w => w == t.map Char.toLower

/-- The limit behind an equals sign, where it may be left out. -/
def ofSetting? (t : Text) : Option Limit := if t.isEmpty then some everything else ofText? t

end Limit

/-! ## Expected values -/

/-- What is expected of the value of a field. -/
inductive Expectation where
  /-- a number or a truth value, and no text is one -/
  | noText
  /-- a text that a pattern covers, which is written like this -/
  | covered (p : Pattern) (written : Text)
  deriving DecidableEq

namespace Expectation

/-- Read what is expected. Whatever is no number or truth value has to be a pattern. -/
def ofText? (t : Text) : Option Expectation :=
  if t = "true".toList || t = "false".toList || Text.isNumber t then some noText
  else (Pattern.ofWritten? t).map fun p => covered p t

/-- Whether a text is as expected. -/
def accepts (s : String) : Expectation → Bool
  | noText => false
  | covered p _ => p.covers s.toList

end Expectation

/-- A field that has to be there, and what is expected of its value, if anything. -/
structure FieldCondition where
  /-- the name of the field -/
  name : Text
  /-- what is expected of its value -/
  expected : Option Expectation
  deriving DecidableEq

/-- Read a condition: a name, or a name, an equals sign and what is expected, up to a second equals
sign. -/
def FieldCondition.ofText? (t : Text) : Option FieldCondition :=
  match t.splitOn '=' with
  | name :: value :: _ => (Expectation.ofText? value).map fun x => ⟨name, some x⟩
  | _ => some ⟨t, none⟩

/-! ## Directives -/

/-- What a directive is about. -/
structure LogScope where
  /-- how the names of the sources start -/
  source : Option Text
  /-- the name of the span -/
  span : Option Text
  /-- the field that a report or a span has to have -/
  field : Option FieldCondition
  deriving DecidableEq

/-- The scope of a directive that is a limit alone. -/
def LogScope.everything : LogScope := ⟨none, none, none⟩

/-- A part of a log filter. -/
structure LogDirective where
  /-- what it is about -/
  scope : LogScope
  /-- how far down reports are shown -/
  limit : Limit
  deriving DecidableEq

namespace LogDirective

/-! ## Reading

The blanks around a directive do not count for its shape, but they are not taken away either: the
words are cut out of the whole text, at the places that the shape gives. So the text is read
together with its trimmed form, as a list of pairs of characters: the mark that makes the shape, and
the character that is written at the same place. -/

/-- Marks, each with the character written in its place. -/
abbrev Marked : Type := List (Char × Char)

/-- What is written in the places of some marks. -/
def written (m : Marked) : Text := m.map Prod.snd

/-- Whether a directive may start with a character. -/
def isStart (c : Char) : Bool :=
  Text.isLetterOrNumber c || c == '-' || c == ':' || c == '_' || c == '['

/-- A span behind its opening bracket: its name, its field, and what follows the closing bracket.
Without a field it has a name, if only an empty one. -/
def span? (m : Marked) : Option (Option Text × Option FieldCondition × Marked) := do
  let (name, rest) := m.span fun c => c.1 != ']' && c.1 != '\x7b'
  match rest with
  | (']', _) :: rest => some (some (written name), none, rest)
  | _ :: inside =>
    let (field, rest) := inside.span fun c => c.1 != '\x7d'
    match rest with
    | _ :: (']', _) :: rest => do
      guard !field.isEmpty
      let condition ← FieldCondition.ofText? (written field)
      some (if name.isEmpty then none else some (written name), some condition, rest)
    | _ => none
  | [] => none

/-- What follows the scope of a directive: an equals sign and a limit, or nothing. The last word
goes on to the end of the text, and so has the blanks there. -/
def limit? (tail : Text) : Marked → Option Limit
  | [] => some Limit.everything
  | ('=', _) :: rest => Limit.ofSetting? (written rest ++ tail)
  | _ => none

/-- Read a directive. A word alone is a limit if it can be, and a source otherwise. -/
def ofText? (t : Text) : Option LogDirective := do
  let body := Text.trim t
  let tail := t.drop body.length
  guard (body.head?.any isStart)
  let (word, rest) := (body.zip t).span fun c => c.1 != '=' && c.1 != '['
  let source := if word.isEmpty then none else some (written word)
  match rest with
  | [] =>
    match Limit.ofText? t with
    | some limit => some ⟨.everything, limit⟩
    | none => some ⟨⟨some t, none, none⟩, Limit.everything⟩
  | ('[', _) :: inside => do
    let (span, field, rest) ← span? inside
    return ⟨⟨source, span, field⟩, ← limit? tail rest⟩
  | rest => return ⟨⟨source, none, none⟩, ← limit? tail rest⟩

example : ofText? "Warn".toList = some ⟨.everything, 2⟩ := by decide +kernel

example : ofText? "a=5".toList = some ⟨⟨some ['a'], none, none⟩, 5⟩ := by decide +kernel

example : ofText? "a=b".toList = none := by decide +kernel

example : ofText? "[s\x7bf\x7d]=".toList
    = some ⟨⟨none, some ['s'], some ⟨['f'], none⟩⟩, 5⟩ := by decide +kernel

example : ofText? " [span]".toList = some ⟨⟨none, some "[spa".toList, none⟩, 5⟩ := by
  decide +kernel

/-! ## What directives are about -/

/-- Whether a directive is about the reports of a source, as far as the source goes. -/
def admits (d : LogDirective) (source : String) : Bool :=
  (d.scope.source.getD []).isPrefixOf source.toList

/-- Whether a directive looks at nothing but the kinds of reports and spans: it names no span, and
expects nothing of the value of a field. -/
def isStanding (d : LogDirective) : Bool :=
  d.scope.span.isNone && d.scope.field.all fun f => f.expected.isNone

/-- Whether a directive can show what happens inside a span: it names the span or a field of it. -/
def isInner (d : LogDirective) : Bool := d.scope.span.isSome || d.scope.field.isSome

/-- Whether the field of a directive, if it has one, is one of given names. -/
def hasFieldIn (d : LogDirective) (names : List String) : Bool :=
  d.scope.field.all fun f => names.any fun name => name.toList == f.name

/-- Whether a directive is about the kind of an event. -/
def regardsEvent (d : LogDirective) (e : Event) : Bool :=
  d.isStanding && d.admits e.source && d.hasFieldIn e.fieldNames

/-- Whether a directive is about the kind of spans, whatever their fields are. -/
def regardsSpans (d : LogDirective) : Bool := d.isStanding && d.admits Span.source

/-- Whether a directive can show what happens inside spans. -/
def entersSpans (d : LogDirective) : Bool :=
  d.isInner && d.admits Span.source && d.scope.span.all (· == Span.name.toList)
    && d.hasFieldIn Span.fieldNames

/-- Whether the field of a directive, if it has one, has in a span the value that is expected. -/
def holdsIn (d : LogDirective) (s : Span) : Bool :=
  d.scope.field.all fun f => f.expected.all fun x =>
    s.fields.any fun v => v.1.toList == f.name && x.accepts v.2

/-- Whether a directive says more than another about what both are about: by a longer source, or by
naming a field. Of two fields the one whose name comes later in the order of characters wins. -/
def outweighs (d e : LogDirective) : Bool :=
  let n := (d.scope.source.getD []).length
  let k := (e.scope.source.getD []).length
  if n = k then
    match d.scope.field, e.scope.field with
    | some f, some g => comesBefore g.name f.name
    | some _, none => true
    | none, _ => false
  else decide (k < n)
where
  /-- Whether a text comes before another in the order of characters. -/
  comesBefore : Text → Text → Bool
    | _, [] => false
    | [], _ :: _ => true
    | c :: t, d :: u => if c = d then comesBefore t u else decide (c.toNat < d.toNat)

end LogDirective

end ForgeQuery
