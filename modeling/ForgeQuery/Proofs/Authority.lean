import ForgeQuery.Proofs.Privileges
import ForgeQuery.Proofs.Restriction

/-!
# Authority is settled when a request starts

A mutation can change the record that its own authority comes from: an admin may demote himself in
front of other promotions, and a developer may try to become an admin first. Neither makes a
difference for the request that does it. The caller is looked up once, before the first unit, so
that under the enforced policy an admin's request is not refused by any of its units, and nobody
else's changes a privilege by any of them (`DecidedBy`). The next request with the token looks the
caller up again, in the store that this one has left (`authority_is_settled_at_the_start`).
-/

namespace ForgeQuery

/-! ## Units on the way -/

/-- A unit of the mutation that a request carries, with the units around it. -/
structure MutationUnit (request : Request) where
  /-- the document of the request -/
  doc : Document
  /-- the units in front -/
  before : List Text
  /-- the unit -/
  unit : Text
  /-- the units behind -/
  behind : List Text
  /-- the request carries the document -/
  document_eq : request.document = .ok doc
  /-- the document is a mutation -/
  isMutation : doc.kind = .mutation
  /-- together they are the units of the document -/
  together : splitSelections doc.body = before ++ unit :: behind

/-- What the units of a request with a token are resolved in, all of them alike. -/
def World.context (w : World) (token : Option String) : Context :=
  ⟨.enforced, token.bind (w.sessions.lookup? w.store)⟩

/-- The store that a unit is executed on, which is the one that the units in front of it leave. -/
def MutationUnit.storeIn {request : Request} (u : MutationUnit request) (w : World)
    (token : Option String) : Store :=
  (runUnits .mutation (w.context token) u.before ∅).after w.store

/-! ## Refusals -/

/-- Whoever is refused is known, and is no admin. -/
theorem Call.not_isAdmin_of_forbidden {ctx : Context} {c : Call} {s : Store} {field : String}
    (h : (c.resolve ctx).result s = .error (.forbidden field)) :
    ∃ who, ctx.caller = some who ∧ who.isAdmin = false :=
  (Call.of_forbidden (Call.resolve_eq_error_iff.mp h)).1

/-- No unit is refused but for its caller. -/
theorem not_isAdmin_of_step_forbidden {kind : OperationKind} {ctx : Context} {data : Object}
    {unit : Text} {s : Store} {field : String}
    (h : (step kind ctx data unit).result s = .error (.forbidden field)) :
    ∃ who, ctx.caller = some who ∧ who.isAdmin = false := by
  cases hcall : Call.ofUnit? kind unit with
  | none =>
    rw [(step_of_none hcall ctx data s).result_eq] at h
    cases h
  | some c =>
    rw [(step_of_some hcall ctx data s).result_eq, map_eq_error_iff] at h
    exact Call.not_isAdmin_of_forbidden h

/-- No request is refused but for its caller. -/
theorem not_isAdmin_of_tryExecute_forbidden {policy : Policy} {s : Store} {request : Request}
    {caller : Option Caller} {field : String}
    (h : (tryExecute policy s request caller).result = .error (.forbidden field)) :
    ∃ who, caller = some who ∧ who.isAdmin = false := by
  cases hdoc : request.document with
  | error e =>
    rw [tryExecute_result, Request.outcome, hdoc] at h
    obtain rfl := Except.error.inj h
    obtain ⟨hempty, -⟩ | ⟨hunparseable, -⟩ := Request.document_eq_error_iff.mp hdoc
    · cases hempty
    · cases hunparseable
  | ok doc => exact (of_tryExecute_forbidden hdoc h).1

/-- A client is told of a refusal only if there is one. -/
theorem exists_forbidden_of_mem_errors {result : Except ExecutionError Object} {field : String}
    (h : (ExecutionError.forbidden field).toResponseError ∈ (Response.ofResult result).errors) :
    ∃ field', result = .error (.forbidden field') := by
  cases result with
  | ok data => exact absurd h List.not_mem_nil
  | error e =>
    have htold := congrArg ResponseError.message (List.mem_singleton.mp h)
    cases e with
    | forbidden field' => exact ⟨field', rfl⟩
    | documentEmpty | documentUnparseable | unauthenticated | targetNotFound =>
      simp [ExecutionError.toResponseError, ExecutionError.message] at htold

/-- A promotion fails for everybody but an admin, and leaves the store to itself. -/
theorem step_promotion_fails {ctx : Context} (hpolicy : ctx.policy = .enforced)
    (hno : ∀ who, ctx.caller = some who → who.isAdmin = false) {unit : Text} {c : Call}
    (hcall : Call.ofUnit? .mutation unit = some c) (hroot : c.root = .promoteUser) (data : Object)
    (s : Store) :
    ∃ e, (e = .unauthenticated "promoteUser" ∨ e = .forbidden "promoteUser") ∧
      (step .mutation ctx data unit).Ends s (.error e) s := by
  obtain ⟨policy, caller⟩ := ctx
  obtain rfl : policy = .enforced := hpolicy
  obtain ⟨root, field⟩ := c
  obtain rfl : root = .promoteUser := hroot
  obtain ⟨e, he, hends⟩ : ∃ e,
      (e = .unauthenticated "promoteUser" ∨ e = .forbidden "promoteUser") ∧
        (resolvePromoteUser ⟨.enforced, caller⟩ field).Ends s (.error e) s := by
    cases caller with
    | none => exact ⟨_, Or.inl rfl, resolve_anonymous .enforced field s .promoteUser rfl⟩
    | some who =>
      exact ⟨_, Or.inr rfl, resolvePromoteUser_forbidden .enforced who field s (hno who rfl)⟩
  refine ⟨e, he, ?_⟩
  have hstep := step_of_some hcall ⟨.enforced, caller⟩ data s
  rw [Call.resolve, RootField.resolve, hends.result_eq, hends.after_eq] at hstep
  exact hstep

/-! ## The authority of a request -/

/-- What a request with a token may do, if its authority is that `admin` holds. -/
structure DecidedBy (w : World) (request : Request) (token : Option String) (admin : Prop) :
    Prop where
  /-- with authority no unit is refused, whatever the units in front of it have written -/
  not_forbidden : admin → ∀ (u : MutationUnit request) (data : Object) (field : String),
    (step .mutation (w.context token) data u.unit).result (u.storeIn w token)
      ≠ .error (.forbidden field)
  /-- nor is the client told of a refusal -/
  not_told : admin → ∀ field, (ExecutionError.forbidden field).toResponseError
    ∉ (executeWithSession .enforced w.store w.sessions request token).result.errors
  /-- without authority every promotion fails, and leaves the store to itself -/
  promotion_fails : ¬ admin → ∀ (u : MutationUnit request) (c : Call),
    Call.ofUnit? .mutation u.unit = some c → c.root = .promoteUser → ∀ data : Object,
      ∃ e, (e = .unauthenticated "promoteUser" ∨ e = .forbidden "promoteUser") ∧
        (step .mutation (w.context token) data u.unit).Ends (u.storeIn w token) (.error e)
          (u.storeIn w token)
  /-- and the request changes no privilege -/
  privileges_eq : ¬ admin →
    (w.step .enforced (.request request token)).store.privileges = w.store.privileges

namespace World

/-- A token is an admin's if an admin is looked up with it. -/
theorem isHeldByAdmin_iff {w : World} {token : Option String} :
    w.IsHeldByAdmin token
      ↔ ∃ who, (w.context token).caller = some who ∧ who.isAdmin = true := by
  constructor
  · rintro ⟨t, id, user, rfl, hid, huser, hrole⟩
    refine ⟨user.caller, ?_, beq_iff_eq.mpr hrole⟩
    simp only [context, Option.bind_some, Sessions.lookup?, hid, Store.caller?, huser]
    rfl
  · rintro ⟨who, hwho, hadmin⟩
    exact isHeldByAdmin_of_lookup? hwho hadmin

/-- **The role at the start decides**, in every world. -/
theorem decidedBy_isHeldByAdmin (w : World) (request : Request) (token : Option String) :
    DecidedBy w request token (w.IsHeldByAdmin token) := by
  have hallowed (hadmin : w.IsHeldByAdmin token) :
      ¬ ∃ who, (w.context token).caller = some who ∧ who.isAdmin = false := by
    obtain ⟨who, hwho, htrue⟩ := isHeldByAdmin_iff.mp hadmin
    rintro ⟨who', hwho', hfalse⟩
    obtain rfl := Option.some.inj (hwho.symm.trans hwho')
    rw [htrue] at hfalse
    cases hfalse
  have hrefused (hno : ¬ w.IsHeldByAdmin token) (who : Caller)
      (hwho : (w.context token).caller = some who) : who.isAdmin = false := by
    rw [← Bool.not_eq_true]
    exact fun htrue => hno (isHeldByAdmin_iff.mpr ⟨who, hwho, htrue⟩)
  refine ⟨fun hadmin u data field h => ?_, fun hadmin field h => ?_,
    fun hno u c hcall hroot data => ?_, fun hno => privileges_step_request hno request⟩
  · exact hallowed hadmin (not_isAdmin_of_step_forbidden h)
  · obtain ⟨field', hresult⟩ := exists_forbidden_of_mem_errors h
    exact hallowed hadmin (not_isAdmin_of_tryExecute_forbidden hresult)
  · exact step_promotion_fails rfl (hrefused hno) hcall hroot data _

end World

/-- **Authority is settled at the start** of a request, by the role that the user behind the token
has in the store then, and for the next request with the token by the role in the store that this
one has left. -/
theorem authority_is_settled_at_the_start (w : World) (request : Request) (token : Option String) :
    DecidedBy w request token (w.IsHeldByAdmin token) ∧
      ∀ next, DecidedBy (w.step .enforced (.request request token)) next token
        (∃ t id user, token = some t ∧ w.sessions.holders.get? t = some id ∧
          (executeWithSession .enforced w.store w.sessions request token).store.user? id
            = some user ∧ user.role = some adminRole) :=
  ⟨w.decidedBy_isHeldByAdmin request token,
    fun next => (w.step .enforced (.request request token)).decidedBy_isHeldByAdmin next token⟩

/-- An admin who demotes himself still makes somebody else an admin in the same request, and
changes no privilege with the next one. -/
theorem demoted_admin_finishes_the_request :
    let s := Store.ofRecords [⟨"u1", "ops", "pw", "ops@forge", some adminRole, []⟩,
      ⟨"u2", "dev", "pw", "dev@forge", none, []⟩] [⟨"r1", "tools", 5, "Rust", true, none⟩]
    let w := (World.start s).run .enforced [.login "t" "ops" "pw"]
    let request := Request.ofQuery ("mutation \x7b promoteUser(userId: \"u1\", role: \"guest\"), "
      ++ "promoteUser(userId: \"u2\", role: \"admin\") \x7d")
    let w' := w.step .enforced (.request request (some "t"))
    (∀ field, (ExecutionError.forbidden field).toResponseError
        ∉ (executeWithSession .enforced w.store w.sessions request (some "t")).result.errors) ∧
      w'.store.privileges = [("u1", some "guest", []), ("u2", some adminRole, ["r1"])] ∧
      ∀ next, (w'.step .enforced (.request next (some "t"))).store.privileges
        = w'.store.privileges := by
  intro s w request w'
  obtain ⟨hfirst, hnext⟩ := authority_is_settled_at_the_start w request (some "t")
  have hadmin : w.IsHeldByAdmin (some "t") :=
    ⟨"t", "u1", ⟨"u1", "ops", "pw", "ops@forge", some adminRole, []⟩, rfl, by decide, by decide,
      rfl⟩
  refine ⟨hfirst.not_told hadmin, by decide +kernel, fun next => ?_⟩
  refine (hnext next).privileges_eq ?_
  -- the store that the first request has left
  rintro ⟨t, id, user, ⟨⟩, hid, huser, hrole⟩
  have hholder : w.sessions.holders.get? "t" = some "u1" := by decide
  obtain rfl := Option.some.inj (hholder.symm.trans hid)
  have hdemoted : (w'.store.user? "u1").map User.role = some (some "guest") := by decide +kernel
  rw [show w'.store.user? "u1" = some user from huser, Option.map_some, hrole] at hdemoted
  exact absurd hdemoted (by decide)

end ForgeQuery
