import ForgeQuery.Configuration.Source
import ForgeQuery.Text.Symbol
import ForgeQuery.Yaml.Value

/-!
# Configuration texts

A configuration is written down in YAML. A text of blanks alone is the standard configuration. A
text that can be decoded is a configuration only if it is also valid (`Configuration.ofText`).
-/

namespace ForgeQuery

/-! ## YAML as a source -/

/-- The nodes of a document as data trees. An alternative is written as its name, or as a mapping
from its name to nothing. -/
def Yaml.Document.source (d : Yaml.Document) : Source Yaml.Node where
  text v := (d.follow v).bind Yaml.Node.text?
  integer v := (d.follow v).bind Yaml.Node.integer?
  flag v := (d.follow v).bind Yaml.Node.flag?
  optional v := do
    let v ← d.follow v
    if ← v.isPresent? then return some v else return none
  items v := do
    match ← d.follow v with
    | .sequence items => return items
    | _ => failure
  fields v := do
    match ← d.follow v with
    | .mapping entries => do
      let members ← entries.mapM fun (key, value) => do return (← (← d.follow key).text?, value)
      return .inl members
    | .sequence items => return .inr items
    | _ => failure
  choice v := do
    match ← d.follow v with
    | .scalar _ tag text => do
      guard !(tag.any namesPolicy)
      return text
    | .mapping [(key, value)] => do
      guard (← d.follow value).isNothing
      key.text?
    | _ => failure
where
  /-- Whether a tag names a policy; a scalar under such a tag is taken for the content of that
  alternative, and there is none. -/
  namesPolicy (tag : Yaml.Tag) : Bool := tag.handle == "!" && (Policy.ofName? tag.suffix).isSome

/-! ## Texts -/

namespace Configuration

/-- The configuration that a text writes down, valid or not. -/
def decode (t : Text) : Except ConfigurationError Configuration :=
  if (Text.trim t).isEmpty then .ok standard
  else
    match (Yaml.document? t).bind fun d => d.source.configuration d.root with
    | some c => .ok c
    | none => .error .undecodable

/-- The valid configuration that a text writes down. -/
def ofText (t : Text) : Except ConfigurationError Configuration := do
  let c ← decode t
  c.validate
  return c

/-- The valid configuration that bytes write down. -/
def ofBytes (bytes : List UInt8) : Except ConfigurationError Configuration :=
  match Symbol.text? (Symbol.ofBytes bytes) with
  | some t => ofText t
  | none => .error .unreadable

/-- A text gives exactly the configurations that it decodes to and that are valid. -/
theorem ofText_eq_ok_iff {t : Text} {c : Configuration} :
    ofText t = .ok c ↔ decode t = .ok c ∧ c.validate = .ok () := by
  cases h : decode t with
  | error e => simp [ofText, h, bind, Except.bind]
  | ok d =>
    cases hv : d.validate with
    | error e =>
      have : ofText t = .error e := by simp [ofText, h, hv, bind, Except.bind]
      rw [this]
      constructor
      · intro h'
        cases h'
      · rintro ⟨h', hc⟩
        cases h'
        rw [hv] at hc
        cases hc
    | ok u =>
      have : ofText t = .ok d := by simp [ofText, h, hv, bind, Except.bind, pure, Except.pure]
      rw [this]
      constructor
      · intro h'
        cases h'
        exact ⟨rfl, hv⟩
      · rintro ⟨h', -⟩
        exact h'

end Configuration

end ForgeQuery
