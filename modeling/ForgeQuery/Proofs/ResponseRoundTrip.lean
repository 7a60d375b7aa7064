import ForgeQuery.Proofs.StandingFields
import ForgeQuery.Proofs.WritableData

/-!
# Responses survive being written

A response to a request holds data alone or one error alone, and the text that is written for it is
an object that names what it holds and nothing else. Reading this text gives the response back. The
same is true of any response that was read, so long as the numbers of its data are integers
(`response_round_trip`).

Data that is `null` is read as no data, so it never comes to be written (`ne_null_of_readOptional`);
an empty list of errors is left out, and comes back as the list that a missing field stands for.
-/

namespace ForgeQuery

namespace Response

open Json

/-! ## The fields of a response -/

/-- The field of the data. -/
def dataField : RecordField Response := fields.get ⟨0, by decide⟩

/-- The field of the errors. -/
def errorsField : RecordField Response := fields.get ⟨1, by decide⟩

/-- The field of the message of an error. -/
def messageField : RecordField ResponseError := errorFields.get ⟨0, by decide⟩

theorem sets_data :
    dataField.Sets (readValue (nestingLimit - 1)) fun r data => { r with data } :=
  fun _ _ => rfl

/-- The data of a response that can be written and read again. -/
def IsWritable (r : Response) : Prop :=
  ∀ v, r.data = some v → Survives (nestingLimit - 1) v ∧ v ≠ .null

/-- The data of a response that was read is kept, and is not `null`. -/
theorem isKept_data {bytes : List UInt8} {r : Response} (h : ofBytes bytes = .ok r) :
    ∀ v, r.data = some v → IsKept (nestingLimit - 1) v ∧ v ≠ .null := by
  obtain ⟨rest, h⟩ := exists_of_readWith h
  refine readRecord_invariant
    (P := fun r : Response => ∀ v, r.data = some v → IsKept (nestingLimit - 1) v ∧ v ≠ .null)
    ?_ h fun v hv => by cases hv
  intro f hf record s next rest hread hrecord
  rw [show fields = [dataField, errorsField] from rfl, List.mem_cons, List.mem_singleton] at hf
  rcases hf with rfl | rfl
  · obtain ⟨x, hx, rfl⟩ := sets_data.eq_ok hread
    rintro v rfl
    exact ⟨.of_readValue (exists_of_readOptional hx), ne_null_of_readOptional hx⟩
  · obtain ⟨⟨errors, rest'⟩, -, heq⟩ := bind_eq_ok_iff.mp hread
    obtain ⟨rfl, -⟩ := Prod.mk.inj (Except.ok.inj heq)
    exact hrecord

/-! ## Reading a response that was written -/

section Written

variable {L : Layout} {seen : List String}

/-- Data that is not `null` does not look like it, and is read again. -/
theorem read_data {v : Json} (hv : Survives (nestingLimit - 1) v) (hne : v ≠ .null) (r : Response)
    (level : Nat) {s : Input} (hs : IsStopped s) :
    dataField.read r (Symbol.ofText (L.colon ++ L.write level v) ++ s)
      = .ok ({ r with data := some v }, s) := by
  have hread := readValue_write (L := L) hv.isKept hv.isIntegral
  have hopens := (hread.opens level).append s
  have hvalue := hread.reads level s hs
  have hskip := hopens.skipBlanks_eq
  obtain ⟨c, rest, hc, hblank, -⟩ := hopens
  have hn : c ≠ 'n' := by
    rintro rfl
    exact hne ((eq_null_iff_of_readValue hvalue).mpr ⟨rest, hskip.trans hc⟩)
  rw [Symbol.ofText_append, List.append_assoc]
  rw [hc] at hvalue ⊢
  exact sets_data.read_some L.colon_allBlank hblank hn hvalue r

theorem survives_error (e : ResponseError) : Survives 1 (errorToJson e) :=
  .object (by decide : ["message"].Nodup) (by simpa using .string e.message)

/-- An error is read again. -/
theorem reads_error (e : ResponseError) :
    Reads L (readRecord errorFields ⟨""⟩) (errorToJson e) e := by
  have hfield : errorFields.find? (fun f => f.name == "message") = some messageField := rfl
  refine ⟨fun level => opens_write L level (survives_error e).isIntegral, fun level s _ => ?_⟩
  refine readRecord_write
    (.cons (takes_readField hfield List.not_mem_nil fun level s _ => ?_) .nil) level s
  have hread (s : Input) : messageField.read ⟨""⟩ s
      = (readStringValue s >>= fun x => .ok (⟨x.1⟩, x.2)) := rfl
  rw [Symbol.ofText_append, List.append_assoc, hread,
    passesBlanks_readStringValue.append L.colon_allBlank, readStringValue_write, bind_ok]

/-- A list of errors is read again. -/
theorem read_errors (errors : List ResponseError) (r : Response) (level : Nat) (s : Input) :
    errorsField.read r
        (Symbol.ofText (L.colon ++ L.write level (.array (errors.map errorToJson))) ++ s)
      = .ok ({ r with errors }, s) := by
  have hread (s : Input) : errorsField.read r s = (readArrayValue (readRecord errorFields ⟨""⟩) s
      >>= fun x => .ok ({ r with errors := x.1 }, x.2)) := rfl
  have hitems : List.Forall₂ (Reads L (readRecord errorFields ⟨""⟩)) (errors.map errorToJson)
      errors :=
    List.forall₂_map_left_iff.mpr (List.forall₂_same.mpr fun e _ => reads_error e)
  rw [Symbol.ofText_append, List.append_assoc, hread,
    (passesBlanks_readArrayValue _).append L.colon_allBlank, readArrayValue_write hitems, bind_ok]

/-- Nothing is written for data that is missing, and data that is there is read again. -/
theorem takesAll_data {data : Option Json} (h : IsWritable ⟨data, []⟩) :
    TakesAll L (readField fields) ([], empty) (data.toList.map fun v => ("data", v))
      (data.toList.map (fun _ => "data"), ⟨data, []⟩) := by
  have hfield : fields.find? (fun f => f.name == "data") = some dataField := rfl
  cases data with
  | none => exact .nil
  | some v =>
    obtain ⟨hv, hne⟩ := h v rfl
    exact .cons (takes_readField hfield List.not_mem_nil
      fun level _ hs => read_data hv hne empty level hs) .nil

/-- Nothing is written for errors when there are none, and otherwise they are read again. -/
theorem takesAll_errors (hseen : "errors" ∉ seen) (data : Option Json)
    (errors : List ResponseError) :
    ∃ seen', TakesAll L (readField fields) (seen, ⟨data, []⟩)
      (if errors.isEmpty then [] else [("errors", .array (errors.map errorToJson))])
      (seen', ⟨data, errors⟩) := by
  have hfield : fields.find? (fun f => f.name == "errors") = some errorsField := rfl
  cases errors with
  | nil => exact ⟨seen, .nil⟩
  | cons e rest =>
    exact ⟨"errors" :: seen,
      .cons (takes_readField hfield hseen fun level s _ => read_errors (e :: rest) _ level s) .nil⟩

/-- **The text of a response is read as the response**, in whatever layout it is written. -/
theorem readRecord_toJson {r : Response} (h : r.IsWritable) (level : Nat) (s : Input) :
    readRecord fields empty (Symbol.ofText (L.write level r.toJson) ++ s) = .ok (r, s) := by
  have hfresh : "errors" ∉ r.data.toList.map fun _ => "data" := by simp
  obtain ⟨seen, herrors⟩ := takesAll_errors hfresh r.data r.errors
  exact readRecord_write ((takesAll_data h).append herrors) level s

theorem ofBytes_toJson {r : Response} (h : r.IsWritable) : ofBytes r.toJson.bytes = .ok r :=
  readWith_bytes fun s _ => readRecord_toJson h 0 s

/-- The indented text is read as the response as well, with blanks behind it or not. -/
theorem ofBytes_indented {r : Response} (h : r.IsWritable) {finish : Text}
    (hfinish : AllBlank finish) :
    ofBytes (utf8 (String.ofList (r.toJson.renderIndented 0 ++ finish))) = .ok r := by
  rw [renderIndented_eq_write]
  exact readWith_utf8 hfinish fun s _ => readRecord_toJson h 0 s

end Written

/-! ## Responses to requests -/

/-- The response holds this data and no errors, and says so and nothing else. -/
structure IsOfData (r : Response) (data : Object) : Prop where
  /-- there is data -/
  data_eq : r.data = some (.ofObject data)
  /-- there are no errors -/
  errors_eq : r.errors = []
  /-- the response is one of success -/
  isSuccess_eq : r.isSuccess = true
  /-- the data is all that is written -/
  toJson_eq : r.toJson = .object [("data", .ofObject data)]

/-- The response holds one error and no data, and says so and nothing else. -/
structure IsOfMessage (r : Response) (message : String) : Prop where
  /-- there is no data -/
  data_eq : r.data = none
  /-- there is one error -/
  errors_eq : r.errors = [⟨message⟩]
  /-- the response is one of failure -/
  isSuccess_eq : r.isSuccess = false
  /-- the message is all that is written -/
  toJson_eq : r.toJson = .object [("errors", .array [.object [("message", .string message)]])]

section Execution

variable (policy : Policy) (s : Store) (request : Request) (caller : Option Caller)

theorem execute_cases :
    let result := (tryExecute policy s request caller).result
    let r := (execute policy s request caller).result
    (∃ data, result = .ok data ∧ r.IsOfData data) ∨
      ∃ e, result = .error e ∧ r.IsOfMessage e.message := by
  intro result r
  have hr : r = .ofResult result := rfl
  cases hresult : result with
  | ok data =>
    rw [hr, hresult]
    exact Or.inl ⟨data, rfl, rfl, rfl, rfl, rfl⟩
  | error e =>
    rw [hr, hresult]
    exact Or.inr ⟨e, rfl, rfl, rfl, rfl, rfl⟩

theorem isWritable_execute : (execute policy s request caller).result.IsWritable := by
  intro v hv
  rcases execute_cases policy s request caller with ⟨data, hdata, hr⟩ | ⟨e, -, hr⟩
  · rw [hr.data_eq] at hv
    obtain rfl := Option.some.inj hv
    exact ⟨survives_of_tryExecute hdata, Json.noConfusion⟩
  · rw [hr.data_eq] at hv
    cases hv

end Execution

/-- **Responses survive being written.** The response to a request holds data or one error, as the
execution has ended, and its text holds the same and nothing else. This text is read as the
response, and so is the text of every response that was read, if the numbers of its data are
integers: what is read from it is written by the same text again. -/
theorem response_round_trip :
    (∀ (policy : Policy) (s : Store) (request : Request) (caller : Option Caller),
      let result := (tryExecute policy s request caller).result
      let r := (execute policy s request caller).result
      ((∃ data, result = .ok data ∧ r.IsOfData data) ∨
          ∃ e, result = .error e ∧ r.IsOfMessage e.message) ∧
        ofBytes r.toJson.bytes = .ok r) ∧
    ∀ (bytes : List UInt8) (r : Response), ofBytes bytes = .ok r →
      (∀ v, r.data = some v → v.IsIntegral) →
      ofBytes r.toJson.bytes = .ok r ∧
        ∀ r', ofBytes r.toJson.bytes = .ok r' → r'.toJson.compact = r.toJson.compact := by
  refine ⟨fun policy s request caller => ?_, fun bytes r hread hr => ?_⟩
  · exact ⟨execute_cases policy s request caller,
      ofBytes_toJson (isWritable_execute policy s request caller)⟩
  · have hagain : ofBytes r.toJson.bytes = .ok r := by
      refine ofBytes_toJson fun v hv => ?_
      obtain ⟨hkept, hne⟩ := isKept_data hread v hv
      exact ⟨⟨hkept, hr v hv⟩, hne⟩
    refine ⟨hagain, fun r' hr' => ?_⟩
    rw [Except.ok.inj (hagain.symm.trans hr')]

/-- An address that needs escapes, in the response to a question for it, and a response with data
and errors at once, of which one has no message and another has more than that, and with a name that
is repeated inside the data. -/
theorem escaped_address_is_read :
    let s := Store.ofRecords [⟨"u1", "dev", "pw", "\"dev\"\u0001\n", none, []⟩] []
    let dev : Option Caller := some ⟨"u1", none, []⟩
    let r := (execute .permissive s (.ofQuery "\x7b me \x7b email \x7d \x7d") dev).result
    let body := ("\x7b\"errors\": [\x7b\x7d, \x7b\"code\": 1.5, \"message\": \"a\"\x7d], "
      ++ "\"data\": \x7b\"b\": 7, \"a\": null, \"b\": [-9223372036854775808]\x7d\x7d").toList
    let bytes := body.flatMap String.utf8EncodeChar
    (r.toJson.compact
          = "\x7b\"data\":\x7b\"me\":\x7b\"email\":\"\\\"dev\\\"\\u0001\\n\"\x7d\x7d\x7d" ∧
        ofBytes r.toJson.bytes = .ok r) ∧
      ∃ r, ofBytes bytes = .ok r ∧ (∀ v, r.data = some v → v.IsIntegral) ∧
        r.toJson.compact = "\x7b\"data\":\x7b\"b\":[-9223372036854775808],\"a\":null\x7d,"
          ++ "\"errors\":[\x7b\"message\":\"\"\x7d,\x7b\"message\":\"a\"\x7d]\x7d" ∧
        ofBytes r.toJson.bytes = .ok r := by
  intro s dev r body bytes
  refine ⟨⟨by decide +kernel, (response_round_trip.1 .permissive s _ dev).2⟩, ?_⟩
  have hfacts : (ofBytes bytes).toOption.map (fun r =>
      (r.data.all fun v => decide v.IsIntegral, r.toJson.compact))
      = some (true, "\x7b\"data\":\x7b\"b\":[-9223372036854775808],\"a\":null\x7d,"
          ++ "\"errors\":[\x7b\"message\":\"\"\x7d,\x7b\"message\":\"a\"\x7d]\x7d") := by
    rw [ofBytes, Symbol.ofBytes_utf8]
    decide +kernel
  cases hread : ofBytes bytes with
  | error fault =>
    rw [hread] at hfacts
    cases hfacts
  | ok r =>
    simp only [hread, Except.toOption, Option.map_some, Option.some.injEq, Prod.mk.injEq] at hfacts
    obtain ⟨hall, hcompact⟩ := hfacts
    have hr (v : Json) (hv : r.data = some v) : v.IsIntegral := by
      rw [hv] at hall
      exact of_decide_eq_true hall
    exact ⟨r, rfl, hr, hcompact, (response_round_trip.2 bytes r hread hr).1⟩

end Response

end ForgeQuery
