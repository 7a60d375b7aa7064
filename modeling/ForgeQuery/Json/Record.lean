import ForgeQuery.Json.Reader

/-!
# Reading records

A record is an object with known fields, each of which may be missing. It is written as an object,
in which names that are not known are stepped over and a repeated known name is a fault, or as an
array of the fields in their order, in which fields may be missing at the end and nothing may
follow the last.
-/

namespace ForgeQuery

namespace Json

/-- A field of a record that is being read: its name, and how its value changes the record. -/
structure RecordField (σ : Type) where
  /-- the name of the field -/
  name : String
  /-- read the value of the field into the record -/
  read : σ → Input → Except Fault (σ × Input)

/-- A member of a record written as an object: which names have come and what the record is so
far. The repetition of a known name is a fault before its value is looked at. -/
def readField {σ : Type} (fields : List (RecordField σ)) (sofar : List String × σ) (name : String)
    (s : Input) : Except Fault ((List String × σ) × Input) :=
  match fields.find? fun f => f.name == name with
  | none => do
    let s ← readColon s
    let s ← skipValue s
    .ok (sofar, s)
  | some field =>
    if name ∈ sofar.1 then .error .mismatched
    else do
      let s ← readColon s
      let (record, s) ← field.read sofar.2 s
      .ok ((name :: sofar.1, record), s)

/-- The end of an array none of whose items is wanted any more. -/
def readArrayEnd (s : Input) : Except Fault Input :=
  match skipBlanks s with
  | [] => .error .truncated
  | .char ']' :: s => .ok s
  | _ => .error .malformed

/-- The fields of a record written as an array, in order; `first` says that no item has been read
yet. -/
def readPositions {σ : Type} (first : Bool) :
    List (RecordField σ) → σ → Input → Except Fault (σ × Input)
  | [], record, s => (readArrayEnd s).map fun s => (record, s)
  | field :: fields, record, s =>
    match skipBlanks s with
    | [] => .error .truncated
    | .char ']' :: s => .ok (record, s)
    | s =>
      if first then do
        let (record, s) ← field.read record s
        readPositions false fields record s
      else
        match s with
        | .char ',' :: s =>
          match skipBlanks s with
          | [] => .error .truncated
          | .char ']' :: _ => .error .malformed
          | s => do
            let (record, s) ← field.read record s
            readPositions false fields record s
        | _ => .error .malformed

/-- A record in either form, starting from a record with every field missing. -/
def readRecord {σ : Type} (fields : List (RecordField σ)) (start : σ) (s : Input) :
    Except Fault (σ × Input) :=
  match skipBlanks s with
  | .char '{' :: s => (readObject (readField fields) ([], start) s).map fun r => (r.1.2, r.2)
  | .char '[' :: s => readPositions true fields start s
  | s => .error (mismatch s)

/-! ## Values of fields -/

/-- A value or `null`. -/
def readOptional {α : Type} (value : Input → Except Fault (α × Input)) (s : Input) :
    Except Fault (Option α × Input) :=
  match skipBlanks s with
  | .char 'n' :: s => (readWord ['u', 'l', 'l'] s).map fun s => (none, s)
  | s => (value s).map fun r => (some r.1, r.2)

/-- A string. -/
def readStringValue (s : Input) : Except Fault (String × Input) :=
  match skipBlanks s with
  | .char '"' :: s => readText s
  | s => .error (mismatch s)

/-- An array with items of one shape. -/
def readArrayValue {α : Type} (item : Input → Except Fault (α × Input)) (s : Input) :
    Except Fault (List α × Input) :=
  match skipBlanks s with
  | .char '[' :: s => readArray item s
  | s => .error (mismatch s)

end Json

end ForgeQuery
