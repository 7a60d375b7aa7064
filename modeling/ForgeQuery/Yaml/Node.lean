import ForgeQuery.Yaml.Tokens

/-!
# YAML nodes

The tree of a document. A reference stays in the tree as the number of the anchor that it named
when it was read; the nodes behind the anchors are kept beside the tree, so a reference to a node
around it does no harm. Tags on collections mean nothing and are dropped.

`Yaml.document?` reads a text that holds exactly one document.
-/

namespace ForgeQuery

namespace Yaml

/-- A node of a document. -/
inductive Node where
  /-- a scalar: whether it is plain, its tag and its text -/
  | scalar (plain : Bool) (tag : Option Tag) (text : String)
  /-- a sequence -/
  | sequence (items : List Node)
  /-- a mapping, its entries in order -/
  | mapping (entries : List (Node × Node))
  /-- a reference to the node behind an anchor -/
  | alias (anchor : Nat)

/-- The node that stands for nothing at all. -/
def Node.missing : Node := .scalar true none "~"

/-- A document: its root, and the nodes behind its anchors. -/
structure Document where
  /-- the outermost node -/
  root : Node
  /-- the nodes under the numbers of their anchors -/
  anchors : List (Nat × Node)

/-! ## The state of reading -/

/-- What is left of the tokens, and what has been anchored. -/
structure Assembly where
  /-- the tokens that are left -/
  tokens : List Token
  /-- the latest number under each name -/
  names : List (Text × Nat)
  /-- the numbers given so far -/
  given : Nat
  /-- the anchored nodes that are complete -/
  anchors : List (Nat × Node)

/-- A step of reading, which may refuse the tokens. -/
abbrev Assemble : Type → Type := StateT Assembly Option

namespace Assemble

/-- The token at hand. -/
def peek : Assemble Token := do
  let token ← (← get).tokens.head?
  return token

/-- Step over the token at hand. -/
def skip : Assemble Unit := modify fun s => { s with tokens := s.tokens.tail }

/-- Step over the token at hand if it is a given one; whether it was. -/
def accept (t : Token) : Assemble Bool := do
  if (← peek) == t then
    skip
    return true
  else return false

/-- A fresh number for an anchor, under which its name is known from here on. -/
def register (name : Text) : Assemble Nat := do
  modify fun s => { s with given := s.given + 1, names := (name, s.given + 1) :: s.names }
  return (← get).given

/-- The anchor and the tag in front of a node, in either order. -/
def properties : Assemble (Option Nat × Option Tag) := do
  match ← peek with
  | .anchor name => do
    skip
    let anchor ← register name
    match ← peek with
    | .tag t => do
      skip
      return (some anchor, some t)
    | _ => return (some anchor, none)
  | .tag t => do
    skip
    match ← peek with
    | .anchor name => do
      skip
      return (some (← register name), some t)
    | _ => return (none, some t)
  | _ => return (none, none)

/-! ## Nodes -/

/-- Where a node stands: whether block collections may start there, and whether a sequence may
start without indentation of its own. -/
structure Place where
  /-- block collections may start -/
  block : Bool
  /-- a sequence needs no indentation -/
  indentless : Bool

/-- Where the items of a block sequence and the roots of documents stand. -/
def Place.item : Place := ⟨true, false⟩

/-- Where the keys and values of a block mapping stand. -/
def Place.member : Place := ⟨true, true⟩

/-- Where everything inside a flow collection stands. -/
def Place.flow : Place := ⟨false, false⟩

/-- The node at hand, unless it is left out, which the tokens in `ends` tell. -/
def nodeUnless (node : Place → Assemble Node) (place : Place) (ends : List Token) :
    Assemble Node := do
  if ends.contains (← peek) then return .missing else node place

/-- The items of a block sequence behind its start, with its end. -/
def blockItems (node : Place → Assemble Node) : Nat → Assemble (List Node)
  | 0 => failure
  | n + 1 => do
    if ← accept .blockEnd then return []
    guard (← accept .blockEntry)
    let item ← nodeUnless node .item [.blockEntry, .blockEnd]
    return item :: (← blockItems node n)

/-- The items of a sequence without indentation of its own, which has no end token. -/
def indentlessItems (node : Place → Assemble Node) : Nat → Assemble (List Node)
  | 0 => failure
  | n + 1 => do
    if !(← accept .blockEntry) then return []
    let item ← nodeUnless node .item [.blockEntry, .key, .value, .blockEnd]
    return item :: (← indentlessItems node n)

/-- The value of a key in a block mapping. -/
def blockValue (node : Place → Assemble Node) : Assemble Node := do
  if ← accept .value then nodeUnless node .member [.key, .value, .blockEnd] else return .missing

/-- The entries of a block mapping behind its start, with its end. -/
def blockEntries (node : Place → Assemble Node) : Nat → Assemble (List (Node × Node))
  | 0 => failure
  | n + 1 => do
    if ← accept .blockEnd then return []
    let key ←
      if ← accept .key then nodeUnless node .member [.key, .value, .blockEnd]
      else do
        guard ((← peek) == .value)
        pure .missing
    let value ← blockValue node
    return (key, value) :: (← blockEntries node n)

/-- The value of a key in a flow mapping. -/
def flowValue (node : Place → Assemble Node) : Assemble Node := do
  if ← accept .value then nodeUnless node .flow [.flowEntry, .flowMappingEnd] else return .missing

/-- The entries of a flow mapping behind its opening brace, with its closing one. Entries are
separated by commas, and one may follow the last. -/
def flowEntries (node : Place → Assemble Node) (first : Bool) :
    Nat → Assemble (List (Node × Node))
  | 0 => failure
  | n + 1 => do
    if ← accept .flowMappingEnd then return []
    if !first then guard (← accept .flowEntry)
    if ← accept .flowMappingEnd then return []
    let entry ←
      if ← accept .key then do
        let key ← nodeUnless node .flow [.value, .flowEntry, .flowMappingEnd]
        pure (key, ← flowValue node)
      else if (← peek) == .value then do
        pure (Node.missing, ← flowValue node)
      else do
        let key ← node .flow
        pure (key, Node.missing)
    return entry :: (← flowEntries node false n)

/-- A single pair among the items of a flow sequence, its key mark having been read. A key that is
left out takes the token that shows it along. -/
def flowPair (node : Place → Assemble Node) : Assemble Node := do
  let key ←
    if [Token.value, .flowEntry, .flowSequenceEnd].contains (← peek) then do
      skip
      pure .missing
    else node .flow
  let value ←
    if ← accept .value then nodeUnless node .flow [.flowEntry, .flowSequenceEnd] else pure .missing
  return .mapping [(key, value)]

/-- The items of a flow sequence behind its opening bracket, with its closing one. -/
def flowItems (node : Place → Assemble Node) (first : Bool) : Nat → Assemble (List Node)
  | 0 => failure
  | n + 1 => do
    if ← accept .flowSequenceEnd then return []
    if !first then guard (← accept .flowEntry)
    if ← accept .flowSequenceEnd then return []
    let item ← if ← accept .key then flowPair node else node .flow
    return item :: (← flowItems node false n)

/-- What stands behind the properties of a node. A node may be empty only if it has some. A
collection takes at most so many rounds. -/
def content (rounds : Nat) (node : Place → Assemble Node) (place : Place) (tag : Option Tag)
    (bare : Bool) : Assemble Node := do
  match ← peek with
  | .blockEntry => do
    if place.indentless then do
      return .sequence (← indentlessItems node rounds)
    else empty
  | .scalar plain text => do
    skip
    return .scalar plain tag text
  | .flowSequenceStart => do
    skip
    return .sequence (← flowItems node true rounds)
  | .flowMappingStart => do
    skip
    return .mapping (← flowEntries node true rounds)
  | .blockSequenceStart => do
    if place.block then do
      skip
      return .sequence (← blockItems node rounds)
    else empty
  | .blockMappingStart => do
    if place.block then do
      skip
      return .mapping (← blockEntries node rounds)
    else empty
  | _ => empty
where
  /-- The node that has properties and nothing else. -/
  empty : Assemble Node := do
    guard !bare
    return .scalar true tag ""

/-- A node, with at most so many rounds for each collection in it, and with at most `depth` nodes
around each other. -/
def node (rounds : Nat) : Nat → Place → Assemble Node
  | 0, _ => failure
  | depth + 1, place => do
    match ← peek with
    | .alias name => do
      skip
      let anchor ← (← get).names.lookup name
      return .alias anchor
    | _ => do
      let (anchor, tag) ← properties
      let v ← content rounds (node rounds depth) place tag (anchor.isNone && tag.isNone)
      match anchor with
      | some anchor => modify fun s => { s with anchors := (anchor, v) :: s.anchors }
      | none => pure ()
      return v

/-! ## Documents -/

/-- Step over the tokens of one kind. -/
def skipAll (t : Token) : Assemble Unit :=
  modify fun s => { s with tokens := s.tokens.dropWhile (· == t) }

/-- The only document of a stream. It may start with directives and a marker, and end with
markers; nothing else may follow. -/
def document : Assemble Node := do
  let t ← peek
  guard (t != .streamEnd)
  let fuel := (← get).tokens.length + 1
  let explicit := t == .directive || t == .documentStart
  skipAll .directive
  if explicit then guard (← accept .documentStart)
  let root ←
    if explicit then
      nodeUnless (node fuel fuel) .item [.directive, .documentStart, .documentEnd, .streamEnd]
    else node fuel fuel .item
  skipAll .documentEnd
  guard ((← peek) == .streamEnd)
  return root

end Assemble

/-- Read the tokens of a stream that holds exactly one document. -/
def Document.ofTokens? (tokens : List Token) : Option Document := do
  let (root, s) ← Assemble.document.run ⟨tokens, [], 0, []⟩
  some ⟨root, s.anchors⟩

/-- Read a text that holds exactly one document. -/
def document? (t : Text) : Option Document := do
  Document.ofTokens? (← tokens? t)

end Yaml

end ForgeQuery
