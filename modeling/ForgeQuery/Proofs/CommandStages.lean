import ForgeQuery.Command.Conclusion
import ForgeQuery.Proofs.Indexing
import ForgeQuery.Proofs.PrintedLines
import ForgeQuery.Proofs.ResponseRoundTrip
import ForgeQuery.Proofs.Results

/-!
# How a run of the command is decided

A run takes its configuration, its document, its variables and its caller from the options and the
surroundings, in this order. For each of them there is a relation that says what is given, or what
is said when nothing is: `GivesConfiguration`, `GivesDocument`, `GivesBindings` and `GivesCaller`.
They are put together in `GivesResponse`, by which the first of them that fails decides, and if none
fails, the response of the engine.

What is seen of a run is settled by `GivesResponse` (`first_failing_stage_decides`). A response is
printed whether it carries data or errors, and only a name with its password makes a caller.

Neither side of this goes through the functions of the command itself. A file or the standard input
holds a text if its bytes are the encoding of that text, and the variables are what a reader of any
value takes for an object. What is printed are the lines of the response, and reading them gives the
response back.

The stages of the command also report what they do. `Stage.ComesTo` leaves the reports out.
-/

namespace ForgeQuery

/-! ## What the options and the surroundings give -/

/-- The file can be read, and the text is what it holds. -/
def Surroundings.Holds (w : Surroundings) (path text : String) : Prop :=
  w.file path = some (utf8 text)

/-- The configuration of a run, or what is said when it cannot be loaded. -/
inductive GivesConfiguration (w : Surroundings) (o : Options) :
    Except String Configuration → Prop where
  /-- no file is named -/
  | standard (unnamed : o.configuration = none) : GivesConfiguration w o (.ok .standard)
  /-- the file that is named has a configuration, and nothing is repeated in its seed -/
  | loaded {path text : String} {c : Configuration} (named : o.configuration = some path)
      (read : w.Holds path text) (decoded : Configuration.decode text.toList = .ok c)
      (distinct : ∀ key, (c.entries key).Nodup) : GivesConfiguration w o (.ok c)
  /-- the file has no text -/
  | unreadable {path : String} (named : o.configuration = some path)
      (unread : ∀ text, ¬ w.Holds path text) :
      GivesConfiguration w o (.error ("could not load " ++ path))
  /-- the text is no configuration -/
  | undecodable {path text : String} {e : ConfigurationError} (named : o.configuration = some path)
      (read : w.Holds path text) (refused : Configuration.decode text.toList = .error e) :
      GivesConfiguration w o (.error ("could not load " ++ path))
  /-- something is repeated in the seed -/
  | repeated {path text : String} {c : Configuration} {key : SeedKey}
      (named : o.configuration = some path) (read : w.Holds path text)
      (decoded : Configuration.decode text.toList = .ok c) (twice : ¬ (c.entries key).Nodup) :
      GivesConfiguration w o (.error ("could not load " ++ path))

/-- The document of a run, or what is said when there is none. -/
inductive GivesDocument (w : Surroundings) (o : Options) : Except String String → Prop where
  /-- it is given as it is -/
  | given {query : String} (given : o.query = some query) : GivesDocument w o (.ok query)
  /-- it is on the standard input -/
  | input {query : String} (notGiven : o.query = none) (named : o.queryFile = some "-")
      (read : w.input = utf8 query) : GivesDocument w o (.ok query)
  /-- the standard input is no text -/
  | inputUnreadable (notGiven : o.query = none) (named : o.queryFile = some "-")
      (unread : ∀ text, w.input ≠ utf8 text) :
      GivesDocument w o (.error "could not read stdin")
  /-- it is in a file -/
  | file {path query : String} (notGiven : o.query = none) (named : o.queryFile = some path)
      (isFile : path ≠ "-") (read : w.Holds path query) : GivesDocument w o (.ok query)
  /-- the file has no text -/
  | fileUnreadable {path : String} (notGiven : o.query = none) (named : o.queryFile = some path)
      (isFile : path ≠ "-") (unread : ∀ text, ¬ w.Holds path text) :
      GivesDocument w o (.error ("could not read " ++ path))
  /-- none is given and no place is named -/
  | missing (notGiven : o.query = none) (unnamed : o.queryFile = none) :
      GivesDocument w o (.error "a document is required, use --query or --query-file")

/-- The variables of a run, or what is said when they are no object. -/
inductive GivesBindings (o : Options) : Except String Object → Prop where
  /-- there are none -/
  | absent (notGiven : o.bindings = none) : GivesBindings o (.ok ∅)
  /-- they are an object -/
  | object {text : String} {bindings : Object} (given : o.bindings = some text)
      (read : Json.read (Symbol.ofText text.toList) = .ok (.ofObject bindings)) :
      GivesBindings o (.ok bindings)
  /-- they are no text of the format, or the text of another value -/
  | rejected {text : String} (given : o.bindings = some text)
      (refused : ∀ bindings, Json.read (Symbol.ofText text.toList) ≠ .ok (.ofObject bindings)) :
      GivesBindings o (.error "--variables must be a JSON object")

/-- The caller of a run, or what is said when the credentials are those of nobody. -/
inductive GivesCaller (o : Options) (s : Seed) : Except String (Option Caller) → Prop where
  /-- no name is given; there may be a password -/
  | nobody (unnamed : o.username = none) : GivesCaller o s (.ok none)
  /-- name and password are those of a user -/
  | user {u : User} (named : o.username = some u.username) (known : o.password = some u.password)
      (recorded : u ∈ s.users) : GivesCaller o s (.ok (some u.caller))
  /-- name and password are those of no user -/
  | refused {username password : String} (named : o.username = some username)
      (given : o.password = some password)
      (unknown : ∀ u ∈ s.users, u.username = username → u.password ≠ password) :
      GivesCaller o s (.error ("invalid credentials for " ++ username))

/-- The response of a run, or what is said by the first part that fails. -/
inductive GivesResponse (w : Surroundings) (o : Options) : Except String Response → Prop where
  /-- there is no configuration -/
  | configuration {message : String} (failed : GivesConfiguration w o (.error message)) :
      GivesResponse w o (.error message)
  /-- there is no document -/
  | document {c : Configuration} {message : String} (hc : GivesConfiguration w o (.ok c))
      (failed : GivesDocument w o (.error message)) : GivesResponse w o (.error message)
  /-- the variables are no object -/
  | bindings {c : Configuration} {query message : String} (hc : GivesConfiguration w o (.ok c))
      (hq : GivesDocument w o (.ok query)) (failed : GivesBindings o (.error message)) :
      GivesResponse w o (.error message)
  /-- nobody has the credentials -/
  | caller {c : Configuration} {query message : String} {bindings : Object}
      (hc : GivesConfiguration w o (.ok c)) (hq : GivesDocument w o (.ok query))
      (hb : GivesBindings o (.ok bindings)) (failed : GivesCaller o c.seed (.error message)) :
      GivesResponse w o (.error message)
  /-- the engine answers, on a store that holds the seed and nothing else -/
  | response {c : Configuration} {query : String} {bindings : Object} {caller : Option Caller}
      (hc : GivesConfiguration w o (.ok c)) (hq : GivesDocument w o (.ok query))
      (hb : GivesBindings o (.ok bindings)) (hcaller : GivesCaller o c.seed (.ok caller)) :
      GivesResponse w o (.ok
        (execute c.policy c.seed.store { Request.ofQuery query with bindings } caller).result)

/-- Whatever configuration is given, the store of its seed loses nothing. -/
theorem GivesConfiguration.isIndexed {w : Surroundings} {o : Options} {c : Configuration}
    (h : GivesConfiguration w o (.ok c)) : c.seed.IsIndexed := by
  have hdistinct : ∀ key, (c.entries key).Nodup := by
    cases h with
    | standard unnamed => exact Configuration.validate_eq_ok_iff.mp (by decide +kernel)
    | loaded named read decoded distinct => exact distinct
  obtain ⟨hid, hname, hrepo⟩ := SeedKey.forall_iff.mp hdistinct
  exact Seed.isIndexed_of_nodup hid hname hrepo

/-- A response that is given survives being written. -/
theorem GivesResponse.isWritable {w : Surroundings} {o : Options} {response : Response}
    (h : GivesResponse w o (.ok response)) : response.IsWritable := by
  cases h
  exact Response.isWritable_execute _ _ _ _

/-! ## What is seen of a run -/

/-- The run prints this response and nothing else. -/
structure Ending.Prints (e : Ending) (response : Response) : Prop where
  /-- the run is a success -/
  code_eq : e.code = 0
  /-- no error is reported -/
  message?_eq : e.message? = none
  /-- the lines of the response are printed, a line break behind each -/
  output_eq : e.output = String.ofList (response.toJson.lines.flatMap (· ++ ['\n']))
  /-- what is printed is read as the response -/
  ofBytes_output : Response.ofBytes (utf8 e.output) = .ok response

/-- What is seen of a response, or of a failure. -/
def Ending.Shows (e : Ending) : Except String Response → Prop
  | .ok response => e.Prints response
  | .error message => e.code = 1 ∧ e.output = "" ∧ e.message? = some message

/-- A response that survives being written is printed by its indented text and a line break. -/
theorem Ending.prints_success {response : Response} (h : response.IsWritable) :
    (Ending.success (response.toJson.indented ++ "\n")).Prints response := by
  have htext : response.toJson.indented ++ "\n"
      = String.ofList (response.toJson.renderIndented 0 ++ ['\n']) := by
    rw [Json.indented, String.ofList_append]
  have hbreak : Json.AllBlank ['\n'] := fun c hc => by
    rw [List.mem_singleton.mp hc]
    rfl
  refine ⟨rfl, rfl, ?_, ?_⟩
  · rw [Ending.output, htext, Json.renderIndented_eq_lines]
  · rw [Ending.output, htext]
    exact Response.ofBytes_indented h hbreak

/-! ## What a stage comes to -/

namespace Stage

variable {α β : Type}

/-- Whatever has been reported before, the stage ends with this value or with this message. -/
def ComesTo (m : Stage α) (r : Except String α) : Prop :=
  ∀ reported, (m.run.run reported).1.mapError Failure.message = r

theorem run_bind (m : Stage α) (f : α → Stage β) (reported : List Report) :
    (m >>= f).run.run reported =
      match m.run.run reported with
      | (.ok a, reported) => (f a).run.run reported
      | (.error e, reported) => (.error e, reported) := by
  rw [ExceptT.run_bind, StateT.run_bind]
  rcases m.run.run reported with ⟨r, reported⟩
  cases r <;> rfl

namespace ComesTo

protected theorem pure (a : α) : (pure a : Stage α).ComesTo (.ok a) := fun _ => rfl

protected theorem throw (e : Failure) : (throw e : Stage α).ComesTo (.error e.message) :=
  fun _ => rfl

theorem report (e : Event) : (Stage.report e).ComesTo (.ok ()) := fun _ => rfl

/-- A result that is there already. -/
theorem mk {x : Except Failure α} {r : Except String α} (h : x.mapError Failure.message = r) :
    ComesTo (ExceptT.mk (pure x)) r :=
  fun _ => h

protected theorem bind {m : Stage α} {f : α → Stage β} {a : α} {r : Except String β}
    (hm : m.ComesTo (.ok a)) (hf : (f a).ComesTo r) : (m >>= f).ComesTo r := by
  intro reported
  have h := hm reported
  rw [run_bind]
  rcases hrun : m.run.run reported with ⟨x, after⟩
  rw [hrun] at h
  cases x with
  | ok b =>
    obtain rfl := Except.ok.inj h
    exact hf after
  | error e => cases h

/-- A stage that fails ends the run. -/
theorem bind_error {m : Stage α} {f : α → Stage β} {message : String}
    (hm : m.ComesTo (.error message)) : (m >>= f).ComesTo (.error message) := by
  intro reported
  have h := hm reported
  rw [run_bind]
  rcases hrun : m.run.run reported with ⟨x, after⟩
  rw [hrun] at h
  cases x with
  | ok b => cases h
  | error e => exact congrArg Except.error (Except.error.inj h)

end ComesTo

/-! ## Texts -/

/-- Bytes have a text exactly if they are its encoding. -/
theorem text?_eq_some_iff {bytes : List UInt8} {s : String} :
    text? bytes = some s ↔ bytes = utf8 s := by
  rw [← String.ofList_toList (s := s), text?, utf8_ofList, ← Symbol.text?_ofBytes_eq_some_iff,
    Option.map_eq_some_iff]
  simp only [String.ofList_inj, exists_eq_right]

theorem text?_eq_none_iff {bytes : List UInt8} : text? bytes = none ↔ ∀ s, bytes ≠ utf8 s := by
  simp only [Option.eq_none_iff_forall_ne_some, ne_eq, text?_eq_some_iff]

end Stage

namespace Surroundings

variable {w : Surroundings} {path text text' : String}

theorem bind_text?_eq_some_iff :
    (w.file path).bind Stage.text? = some text ↔ w.Holds path text := by
  simp only [Option.bind_eq_some_iff, Stage.text?_eq_some_iff, Holds, exists_eq_right]

theorem bind_text?_eq_none_iff :
    (w.file path).bind Stage.text? = none ↔ ∀ text, ¬ w.Holds path text := by
  simp only [Option.eq_none_iff_forall_ne_some, ne_eq, bind_text?_eq_some_iff]

/-- A file holds one text at most. -/
theorem Holds.eq (h : w.Holds path text) (h' : w.Holds path text') : text = text' := by
  rw [← bind_text?_eq_some_iff] at h h'
  exact Option.some.inj (h.symm.trans h')

end Surroundings

namespace Stage

/-! ## The stages -/

section

variable {w : Surroundings} {o : Options}

/-- Bytes are a configuration that can be loaded if they are a text that can be decoded and nothing
is repeated in the seed. -/
theorem ofBytes_eq_ok_iff {bytes : List UInt8} {c : Configuration} :
    Configuration.ofBytes bytes = .ok c ↔ ∃ text, text? bytes = some text ∧
      Configuration.decode text.toList = .ok c ∧ ∀ key, (c.entries key).Nodup := by
  rw [← Configuration.validate_eq_ok_iff]
  cases h : Symbol.text? (Symbol.ofBytes bytes) with
  | none => simp [Configuration.ofBytes, text?, h]
  | some t => simp [Configuration.ofBytes, text?, h, Configuration.ofText_eq_ok_iff]

theorem map_ofBytes_eq_some_ok_iff {path : String} {c : Configuration} :
    (w.file path).map Configuration.ofBytes = some (.ok c) ↔ ∃ text, w.Holds path text ∧
      Configuration.decode text.toList = .ok c ∧ ∀ key, (c.entries key).Nodup := by
  simp only [← Surroundings.bind_text?_eq_some_iff, Option.map_eq_some_iff, ofBytes_eq_ok_iff,
    Option.bind_eq_some_iff]
  constructor
  · rintro ⟨bytes, hfile, text, htext, h⟩
    exact ⟨text, ⟨bytes, hfile, htext⟩, h⟩
  · rintro ⟨text, ⟨bytes, hfile, htext⟩, h⟩
    exact ⟨bytes, hfile, text, htext, h⟩

/-- What cannot be loaded is told by its path. -/
theorem configuration_comesTo_error {path : String} (named : o.configuration = some path)
    (h : ∀ c, (w.file path).map Configuration.ofBytes ≠ some (.ok c)) :
    (configuration w o).ComesTo (.error ("could not load " ++ path)) := by
  rw [configuration, named]
  refine (ComesTo.report _).bind ?_
  split
  · exact absurd ‹_› (h _)
  · exact ComesTo.throw (.configuration path)

theorem configuration_comesTo {r : Except String Configuration} (h : GivesConfiguration w o r) :
    (configuration w o).ComesTo r := by
  cases h with
  | standard unnamed =>
    rw [configuration, unnamed]
    exact ComesTo.pure _
  | loaded named read decoded distinct =>
    rw [configuration, named]
    refine (ComesTo.report _).bind ?_
    rw [map_ofBytes_eq_some_ok_iff.mpr ⟨_, read, decoded, distinct⟩]
    exact ComesTo.pure _
  | unreadable named unread =>
    refine configuration_comesTo_error named fun c hc => ?_
    obtain ⟨text, read, -⟩ := map_ofBytes_eq_some_ok_iff.mp hc
    exact unread text read
  | undecodable named read refused =>
    refine configuration_comesTo_error named fun c hc => ?_
    obtain ⟨text, hread, hdecoded, -⟩ := map_ofBytes_eq_some_ok_iff.mp hc
    obtain rfl := read.eq hread
    cases refused.symm.trans hdecoded
  | repeated named read decoded twice =>
    refine configuration_comesTo_error named fun c hc => ?_
    obtain ⟨text, hread, hdecoded, hdistinct⟩ := map_ofBytes_eq_some_ok_iff.mp hc
    obtain rfl := read.eq hread
    obtain rfl := Except.ok.inj (decoded.symm.trans hdecoded)
    exact twice (hdistinct _)

theorem document_comesTo {r : Except String String} (h : GivesDocument w o r) :
    ComesTo (ExceptT.mk (pure (document w o))) r := by
  refine ComesTo.mk ?_
  cases h with
  | given given =>
    rw [document, given]
    rfl
  | @input query notGiven named read =>
    rw [← text?_eq_some_iff] at read
    have h : document w o = .ok query := by
      simp [document, notGiven, named, read, Options.inputPath]
    rw [h]
    rfl
  | inputUnreadable notGiven named unread =>
    rw [← text?_eq_none_iff] at unread
    have h : document w o = .error .input := by
      simp [document, notGiven, named, unread, Options.inputPath]
    rw [h]
    rfl
  | @file path query notGiven named isFile read =>
    rw [← Surroundings.bind_text?_eq_some_iff] at read
    have h : document w o = .ok query := by
      simp [document, notGiven, named, isFile, read, Options.inputPath]
    rw [h]
    rfl
  | @fileUnreadable path notGiven named isFile unread =>
    rw [← Surroundings.bind_text?_eq_none_iff] at unread
    have h : document w o = .error (.document path) := by
      simp [document, notGiven, named, isFile, unread, Options.inputPath]
    rw [h]
    rfl
  | missing notGiven unnamed =>
    rw [document, notGiven, unnamed]
    rfl

theorem bindings_comesTo {r : Except String Object} (h : GivesBindings o r) :
    ComesTo (ExceptT.mk (pure (bindings o))) r := by
  refine ComesTo.mk ?_
  cases h with
  | absent notGiven =>
    rw [bindings, notGiven]
    rfl
  | object given read =>
    rw [bindings, given]
    simp only [Json.readWith_readObjectValue_eq_ok_iff.mpr read]
    rfl
  | @rejected text given refused =>
    cases hread : Json.readWith (Json.readObjectValue Json.nestingLimit)
        (Symbol.ofText text.toList) with
    | ok bindings => exact absurd (Json.readWith_readObjectValue_eq_ok_iff.mp hread) (refused _)
    | error fault =>
      rw [bindings, given]
      simp only [hread]
      rfl

/-- Who logs in is looked up again as the user with the credentials. -/
theorem login_comesTo {s : Seed} {r : Except String (Option Caller)} (hs : s.IsIndexed)
    (h : GivesCaller o s r) :
    match r with
    | .ok caller => ∃ sessions token, (login s.store o).ComesTo (.ok (sessions, token)) ∧
        token.bind (sessions.lookup? s.store) = caller
    | .error message => (login s.store o).ComesTo (.error message) := by
  cases h with
  | nobody unnamed =>
    refine ⟨.empty, none, ?_, rfl⟩
    rw [login, unnamed]
    exact ComesTo.pure _
  | @user u named known recorded =>
    refine ⟨Sessions.empty.grant token u.id, some token, ?_, ?_⟩
    · rw [login, named, known]
      simp only [hs.login u recorded]
      exact (ComesTo.report _).bind (ComesTo.pure _)
    · rw [Option.bind_some, Sessions.lookup?, Sessions.grant, Ordered.get?_insert, if_pos rfl,
        Option.bind_some, Store.caller?, hs.user_found u recorded, Option.map_some]
  | @refused username password named given unknown =>
    have hnone : s.store.authenticate username password = none := by
      cases hlogin : s.store.authenticate username password with
      | none => rfl
      | some id =>
        obtain ⟨u, hu, -, -, hname, hpassword⟩ := hs.login_only username password id hlogin
        exact absurd hpassword (unknown u hu hname)
    rw [login, named, given]
    simp only [hnone]
    exact (ComesTo.report _).bind (ComesTo.throw (.credentials username))

/-- The document comes first in a request, and the variables behind it. -/
theorem request_eq : (ExceptT.mk (pure (request w o)) : Stage Request) = do
    let query ← ExceptT.mk (pure (document w o))
    let bindings ← ExceptT.mk (pure (bindings o))
    return { Request.ofQuery query with bindings } := by
  rw [request]
  cases document w o with
  | error e => rfl
  | ok query =>
    cases bindings o with
    | error e => rfl
    | ok bindings => rfl

theorem request_comesTo {query : String} {bindings : Object} (hq : GivesDocument w o (.ok query))
    (hb : GivesBindings o (.ok bindings)) :
    ComesTo (ExceptT.mk (pure (request w o))) (.ok { Request.ofQuery query with bindings }) := by
  rw [request_eq]
  exact (document_comesTo hq).bind ((bindings_comesTo hb).bind (ComesTo.pure _))

/-- The first part that fails ends the run; if none fails, it ends with the response. -/
theorem response_comesTo {r : Except String Response} (h : GivesResponse w o r) :
    (response w o).ComesTo r := by
  rw [response]
  cases h with
  | configuration failed => exact (configuration_comesTo failed).bind_error
  | document hc failed =>
    rw [request_eq]
    exact (configuration_comesTo hc).bind (document_comesTo failed).bind_error.bind_error
  | bindings hc hq failed =>
    rw [request_eq]
    exact (configuration_comesTo hc).bind
      ((document_comesTo hq).bind (bindings_comesTo failed).bind_error).bind_error
  | caller hc hq hb failed =>
    exact (configuration_comesTo hc).bind
      ((request_comesTo hq hb).bind (login_comesTo hc.isIndexed failed).bind_error)
  | response hc hq hb hcaller =>
    obtain ⟨sessions, token, hlogin, rfl⟩ := login_comesTo hc.isIndexed hcaller
    exact (configuration_comesTo hc).bind
      ((request_comesTo hq hb).bind (hlogin.bind fun _ => rfl))

end

end Stage

/-! ## Every run is decided -/

/-- A command line that gives a name without a password is not accepted. -/
theorem Options.password_of_username {environment : String → Option String} {words : List String}
    {o : Options} (h : Options.parse environment words = .ok o) {username : String}
    (named : o.username = some username) : ∃ password, o.password = some password := by
  obtain ⟨g, -, h⟩ := bind_eq_ok_iff.mp h
  rw [ofGiven] at h
  split at h
  · cases h
  · rename_i haccepted
    obtain rfl := Except.ok.inj h
    replace named : value? environment g .username = some username := named
    cases hpassword : value? environment g .password with
    | some password => exact ⟨password, rfl⟩
    | none => simp [named, hpassword] at haccepted

theorem exists_givesConfiguration (w : Surroundings) (o : Options) :
    ∃ r, GivesConfiguration w o r := by
  cases named : o.configuration with
  | none => exact ⟨_, .standard named⟩
  | some path =>
    by_cases unread : ∀ text, ¬ w.Holds path text
    · exact ⟨_, .unreadable named unread⟩
    · push Not at unread
      obtain ⟨text, read⟩ := unread
      cases decoded : Configuration.decode text.toList with
      | error e => exact ⟨_, .undecodable named read decoded⟩
      | ok c =>
        by_cases distinct : ∀ key, (c.entries key).Nodup
        · exact ⟨_, .loaded named read decoded distinct⟩
        · obtain ⟨key, twice⟩ := not_forall.mp distinct
          exact ⟨_, .repeated named read decoded twice⟩

theorem exists_givesDocument (w : Surroundings) (o : Options) : ∃ r, GivesDocument w o r := by
  cases given : o.query with
  | some query => exact ⟨_, .given given⟩
  | none =>
    cases named : o.queryFile with
    | none => exact ⟨_, .missing given named⟩
    | some path =>
      by_cases isFile : path = "-"
      · rw [isFile] at named
        by_cases unread : ∀ text, w.input ≠ utf8 text
        · exact ⟨_, .inputUnreadable given named unread⟩
        · push Not at unread
          obtain ⟨query, read⟩ := unread
          exact ⟨_, .input given named read⟩
      · by_cases unread : ∀ text, ¬ w.Holds path text
        · exact ⟨_, .fileUnreadable given named isFile unread⟩
        · push Not at unread
          obtain ⟨query, read⟩ := unread
          exact ⟨_, .file given named isFile read⟩

theorem exists_givesBindings (o : Options) : ∃ r, GivesBindings o r := by
  cases given : o.bindings with
  | none => exact ⟨_, .absent given⟩
  | some text =>
    by_cases refused : ∀ bindings,
        Json.read (Symbol.ofText text.toList) ≠ .ok (.ofObject bindings)
    · exact ⟨_, .rejected given refused⟩
    · push Not at refused
      obtain ⟨bindings, read⟩ := refused
      exact ⟨_, .object given read⟩

theorem exists_givesCaller {o : Options} (s : Seed)
    (h : ∀ username, o.username = some username → ∃ password, o.password = some password) :
    ∃ r, GivesCaller o s r := by
  cases named : o.username with
  | none => exact ⟨_, .nobody named⟩
  | some username =>
    obtain ⟨password, given⟩ := h username named
    by_cases unknown : ∀ u ∈ s.users, u.username = username → u.password ≠ password
    · exact ⟨_, .refused named given unknown⟩
    · push Not at unknown
      obtain ⟨u, hu, rfl, rfl⟩ := unknown
      exact ⟨_, .user named given hu⟩

/-- Each part of a run gives something or fails, and so does the run. -/
theorem exists_givesResponse {w : Surroundings} {o : Options}
    (h : ∀ username, o.username = some username → ∃ password, o.password = some password) :
    ∃ r, GivesResponse w o r := by
  obtain ⟨_ | c, hc⟩ := exists_givesConfiguration w o
  · exact ⟨_, .configuration hc⟩
  obtain ⟨_ | query, hq⟩ := exists_givesDocument w o
  · exact ⟨_, .document hc hq⟩
  obtain ⟨_ | bindings, hb⟩ := exists_givesBindings o
  · exact ⟨_, .bindings hc hq hb⟩
  obtain ⟨_ | caller, hcaller⟩ := exists_givesCaller c.seed h
  · exact ⟨_, .caller hc hq hb hcaller⟩
  · exact ⟨_, .response hc hq hb hcaller⟩

/-- What is seen of a run that gives a response or a message. -/
theorem runOptions_shows {w : Surroundings} {o : Options} {filter : LogFilter}
    {r : Except String Response} (noSchema : o.schema = false)
    (hfilter : LogFilter.ofText? o.log.toList = some filter) (h : GivesResponse w o r) :
    (runOptions w o).ending.Shows r := by
  have hr := Stage.response_comesTo h []
  rw [runOptions, noSchema, if_neg Bool.false_ne_true, hfilter]
  rcases hrun : (Stage.response w o).run.run [] with ⟨x, reports⟩
  rw [hrun] at hr
  subst hr
  cases x with
  | ok response => exact Ending.prints_success h.isWritable
  | error e => exact ⟨rfl, rfl, rfl⟩

/-- **The first stage that fails decides a run.** Whatever the files, the standard input and the
environment hold, a command line that is accepted and asks for no schema, at the standard log level,
comes to the response of the engine or to the message of the first of configuration, document,
variables and login that fails; and this is what is seen of it. -/
theorem first_failing_stage_decides (w : Surroundings) (o : Options)
    (accepted : Options.parse w.environment w.arguments = .ok o) (noSchema : o.schema = false)
    (standardLog : o.log = "info") :
    (∃ r, GivesResponse w o r) ∧ ∀ r, GivesResponse w o r → (runCommand w).ending.Shows r := by
  refine ⟨exists_givesResponse fun _ => Options.password_of_username accepted, fun r h => ?_⟩
  have hfilter : ∃ filter, LogFilter.ofText? o.log.toList = some filter := by
    rw [standardLog, ← Option.isSome_iff_exists]
    decide +kernel
  obtain ⟨filter, hfilter⟩ := hfilter
  rw [runCommand, accepted]
  exact runOptions_shows noSchema hfilter h

/-- A user from a configuration file asks what a document file asks for and gets what is printed. In
the same surroundings a standard input that is no text comes before variables that are no object,
and without a document nobody learns that the variables and the credentials are wrong as well. A
password alone makes no caller, and that the engine then refuses is a success of the command. -/
theorem configured_user_and_stray_password :
    let configuration := "authorization: \x7bmode: enforced\x7d\nseed:\n  users:\n"
      ++ "    - id: u1\n      username: dev\n      password: pw\n"
      ++ "      email: \"\\xe9\\\"\\x01\"\n      repos: [r1]\n"
      ++ "  repos:\n    - \x7bid: r1, name: one, language: C, stars: -7\x7d\n"
    let document := "\x7b me \x7b email \x7d, repos \x7b id, stars \x7d \x7d"
    let profile := "mutation \x7b updateProfile(email: \"x\") \x7b id \x7d \x7d"
    let environment name := if name = "DEVHUB_GRAPHQL_PASSWORD" then some "pw" else none
    let file path :=
      if path = "forge.yaml" then some (utf8 configuration)
      else if path = "own.graphql" then some (utf8 document) else none
    let ending (arguments : List String) : Ending :=
      (runCommand ⟨arguments, environment, file, [0xFF]⟩).ending
    let own := ending ["-c", "forge.yaml", "--query-file", "own.graphql", "-u", "dev",
      "--variables", "\x7b\"n\": [1]\x7d"]
    let stray := ending ["-q", profile]
    (∃ response, own.Shows (.ok response) ∧ own.output = "\x7b\n  \"data\": \x7b\n"
        ++ "    \"me\": \x7b\n      \"email\": \"é\\\"\\u0001\"\n    \x7d,\n"
        ++ "    \"repos\": [\n      \x7b\n        \"id\": \"r1\",\n"
        ++ "        \"stars\": -7\n      \x7d\n    ]\n  \x7d\n\x7d\n") ∧
      (ending ["-c", "forge.yaml", "--query-file", "-", "--variables", "[]"]).Shows
        (.error "could not read stdin") ∧
      (ending ["--variables", "[]", "-u", "nobody"]).Shows
        (.error "a document is required, use --query or --query-file") ∧
      ∃ response, stray.Shows (.ok response) ∧ stray.output = "\x7b\n  \"errors\": [\n"
        ++ "    \x7b\n      \"message\": \"Authentication required\"\n    \x7d\n  ]\n\x7d\n" := by
  intro configuration document profile environment file ending own stray
  let dev : User := ⟨"u1", "dev", "pw", "é\"\u0001", none, ["r1"]⟩
  let forge : Configuration := ⟨.enforced, ⟨[dev], [⟨"r1", "one", -7, "C", false, none⟩]⟩⟩
  have loaded (arguments : List String) {o : Options}
      (named : o.configuration = some "forge.yaml") :
      GivesConfiguration ⟨arguments, environment, file, [0xFF]⟩ o (.ok forge) :=
    .loaded named rfl (by decide +kernel) (Configuration.validate_eq_ok_iff.mp (by decide +kernel))
  refine ⟨?_, ?_, ?_, ?_⟩
  · let o : Options := ⟨"info", some "forge.yaml", false, none, some "own.graphql",
      some "\x7b\"n\": [1]\x7d", some "dev", some "pw"⟩
    have numbers : GivesBindings o (.ok (.ofList [("n", .array [.integer 1])])) := .object rfl rfl
    have caller : GivesCaller o forge.seed (.ok (some dev.caller)) :=
      .user rfl rfl List.mem_cons_self
    exact ⟨_, (first_failing_stage_decides _ o (by decide +kernel) rfl rfl).2 _
      (.response (loaded _ rfl) (.file rfl rfl (by decide) rfl) numbers caller),
      by decide +kernel⟩
  · have noText : ∀ text, ([0xFF] : List UInt8) ≠ utf8 text :=
      Stage.text?_eq_none_iff.mp (by decide +kernel)
    exact (first_failing_stage_decides _
      ⟨"info", some "forge.yaml", false, none, some "-", some "[]", none, some "pw"⟩
      (by decide +kernel) rfl rfl).2 _ (.document (loaded _ rfl) (.inputUnreadable rfl rfl noText))
  · exact (first_failing_stage_decides _
      ⟨"info", none, false, none, none, some "[]", some "nobody", some "pw"⟩
      (by decide +kernel) rfl rfl).2 _ (.document (.standard rfl) (.missing rfl rfl))
  · exact ⟨_, (first_failing_stage_decides _
      ⟨"info", none, false, some profile, none, none, none, some "pw"⟩
      (by decide +kernel) rfl rfl).2 _ (.response (.standard rfl) (.given rfl) (.absent rfl)
        (.nobody rfl)), by decide +kernel⟩

end ForgeQuery
