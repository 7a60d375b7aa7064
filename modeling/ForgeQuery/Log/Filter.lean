import ForgeQuery.Log.Directive

/-!
# Log filters

A filter is a list of directives, separated by commas. Of directives with the same scope the last
counts. A report is shown in one of two ways:

* by what kind of report it is: of the directives about its source and its fields, the one that says
  most decides;
* by the span that it is reported in: the highest limit of those about the span, if the span is as
  they want it. For this the span itself has to be shown.
-/

namespace ForgeQuery

/-- The directives of a log filter, in order. -/
abbrev LogFilter : Type := List LogDirective

namespace LogFilter

/-! ## Reading -/

/-- Read a filter. Nothing between two commas is passed over, and a filter without a directive shows
errors. -/
def ofText? (t : Text) : Option LogFilter := do
  let f ← ((t.splitOn ',').filter fun piece => !piece.isEmpty).mapM LogDirective.ofText?
  return if f.isEmpty then [⟨.everything, Level.error.rank⟩] else f

/-! ## Limits -/

/-- The directives that count: those behind which none with the same scope follows. -/
def current : LogFilter → LogFilter
  | [] => []
  | d :: f => if f.any fun e => e.scope = d.scope then current f else d :: current f

/-- The highest of the limits of some directives. -/
def highest (ds : List LogDirective) : Limit := (ds.map LogDirective.limit).foldl max .nothing

/-- The limit of the directive that says most. -/
def decisive (ds : List LogDirective) : Limit :=
  let best := ds.foldl (fun best d => if best.any (·.outweighs d) then best else some d) none
  (best.map LogDirective.limit).getD .nothing

/-- How far down a kind of event is shown. -/
def eventLimit (f : LogFilter) (e : Event) : Limit :=
  decisive (f.current.filter fun d => d.regardsEvent e)

/-- Whether the value of a field has a say in what is shown. -/
def looksAtValues (f : LogFilter) : Bool :=
  f.current.any fun d => d.scope.field.any fun c => c.expected.isSome

/-- The limit beyond which no directive reaches, those that do not count any more included. Where
the values of fields have a say every span has to be looked at. -/
def reach (f : LogFilter) : Limit := if f.looksAtValues then .everything else highest f

/-- Whether spans are shown. A directive that can show what happens inside them shows them, whatever
its own limit and the values of their fields. -/
def showsSpans (f : LogFilter) : Bool :=
  f.reach.shows Span.level
    && (f.current.any LogDirective.entersSpans
      || (decisive (f.current.filter LogDirective.regardsSpans)).shows Span.level)

/-- How far down everything is shown that happens inside a span. -/
def insideLimit (f : LogFilter) (s : Span) : Limit :=
  if f.showsSpans then highest (f.current.filter fun d => d.entersSpans && d.holdsIn s)
  else .nothing

/-! ## Reports -/

/-- The report as it is shown: not at all when it is too fine, and without its span when the span
is. -/
def shown? (f : LogFilter) (r : Report) : Option Report :=
  if (f.eventLimit r.event).shows r.event.level
      || r.span.any fun s => (f.insideLimit s).shows r.event.level then
    some { r with span := r.span.filter fun _ => f.showsSpans }
  else none

end LogFilter

end ForgeQuery
