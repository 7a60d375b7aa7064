import ForgeQuery.Proofs.Calls
import ForgeQuery.Proofs.Heading
import ForgeQuery.Proofs.Splitting

/-!
# Cutting a document in two

A body can be cut at a separator if what stands in front of it is balanced; nothing else is asked
of the two halves. The calls of the whole are then those of the first half followed by those of the
second, and the document is executed as two documents in turn, the second on the store that the
first has left (`cut_document`).
-/

namespace ForgeQuery

namespace Heading

/-- The request for a braced body behind a heading. -/
def request (h : Heading) (body : Text) : Request := .ofQuery (String.ofList (h.document body))

/-- The calls of a body behind a heading. -/
def calls (h : Heading) (body : Text) : List Call :=
  (splitSelections body).filterMap (Call.ofUnit? h.kind)

variable (h : Heading) {body : Text}

theorem document_request (hb : MarkerFree body) :
    (h.request body).document = .ok ⟨h.kind, none, none, Text.trim body⟩ := by
  have hne : String.ofList (h.document body) ≠ "" := by
    intro he
    have hnil : h.document body = [] := by
      rw [← String.toList_ofList (l := h.document body), he]
      rfl
    exact (h.isTight_document body).ne_nil hnil
  unfold Request.document request Request.ofQuery
  simp only [if_neg hne, String.toList_ofList, Document.parse?_heading h (h.markerFree_document hb)]

/-- **A body behind a heading is performed**: the calls one after the other, their values inserted
in order. -/
theorem tryExecute_request (hb : MarkerFree body) (policy : Policy) (s : Store)
    (caller : Option Caller) :
    (tryExecute policy s (h.request body) caller).result
        = (perform ⟨policy, caller⟩ (h.calls body) s).1.map Ordered.ofList ∧
      (tryExecute policy s (h.request body) caller).store
        = (perform ⟨policy, caller⟩ (h.calls body) s).2 := by
  rw [tryExecute_result, tryExecute_store, Request.outcome, h.document_request hb]
  simp only [Document.outcome, Document.calls, splitSelections_trim]
  cases h <;> exact ⟨rfl, rfl⟩

/-- The calls of a body that is cut in two. -/
theorem calls_append {a : Text} (ha : Balanced a) {sep : Char} (hs : isSeparator sep = true)
    (b : Text) : h.calls (a ++ sep :: b) = h.calls a ++ h.calls b := by
  rw [calls, splitSelections_append ha hs, List.filterMap_append]
  rfl

end Heading

theorem isMarkerChar_of_isSeparator {sep : Char} (h : isSeparator sep = true) :
    isMarkerChar sep = false := by
  rw [isSeparator, Bool.or_eq_true, beq_iff_eq, beq_iff_eq] at h
  rcases h with rfl | rfl
  · decide
  · decide

/-! ## One execution as two -/

/-- Whether an execution comes to the same as two others in turn. -/
structure InTurn (whole first second : Outcome (Except ExecutionError Object)) : Prop where
  /-- if the first fails then the whole fails with it -/
  failed : ∀ e, first.result = .error e → whole.result = .error e ∧ whole.store = first.store
  /-- else the whole ends as the second does, with the data of both -/
  succeeded : ∀ data, first.result = .ok data →
    whole.result = second.result.map (fun more => data.insertAll more.entries) ∧
      whole.store = second.store

section

variable (policy : Policy) (s : Store) (caller : Option Caller) (h : Heading) {a b : Text}
  (ha : MarkerFree a) (hb : MarkerFree b) (hbalanced : Balanced a) {sep : Char}
  (hsep : isSeparator sep = true)

include ha hb hbalanced hsep

/-- An error in front of the cut is the end, and what has been written stays. -/
theorem cut_failed {e : ExecutionError}
    (he : (tryExecute policy s (h.request a) caller).result = .error e) :
    (tryExecute policy s (h.request (a ++ sep :: b)) caller).result = .error e ∧
      (tryExecute policy s (h.request (a ++ sep :: b)) caller).store
        = (tryExecute policy s (h.request a) caller).store := by
  have hab : MarkerFree (a ++ sep :: b) := ha.append_cons (isMarkerChar_of_isSeparator hsep) hb
  obtain ⟨hresult, hstore⟩ := h.tryExecute_request hab policy s caller
  obtain ⟨hresult₁, hstore₁⟩ := h.tryExecute_request ha policy s caller
  rw [hresult₁, map_eq_error_iff] at he
  rw [hresult, hstore, hstore₁, h.calls_append hbalanced hsep, perform_append_error he]
  exact ⟨rfl, rfl⟩

/-- Without an error in front of the cut the other half is executed on the store that is left. -/
theorem cut_succeeded {data : Object}
    (hdata : (tryExecute policy s (h.request a) caller).result = .ok data) :
    let second := tryExecute policy (tryExecute policy s (h.request a) caller).store
      (h.request b) caller
    (tryExecute policy s (h.request (a ++ sep :: b)) caller).result
        = second.result.map (fun more => data.insertAll more.entries) ∧
      (tryExecute policy s (h.request (a ++ sep :: b)) caller).store = second.store := by
  have hab : MarkerFree (a ++ sep :: b) := ha.append_cons (isMarkerChar_of_isSeparator hsep) hb
  obtain ⟨hresult, hstore⟩ := h.tryExecute_request hab policy s caller
  obtain ⟨hresult₁, hstore₁⟩ := h.tryExecute_request ha policy s caller
  rw [hresult₁, map_eq_ok_iff] at hdata
  obtain ⟨values, hvalues, rfl⟩ := hdata
  rw [hstore₁]
  obtain ⟨hresult₂, hstore₂⟩ := h.tryExecute_request hb policy
    (perform ⟨policy, caller⟩ (h.calls a) s).2 caller
  rw [hresult, hstore, h.calls_append hbalanced hsep, perform_append_ok hvalues]
  refine ⟨?_, hstore₂.symm⟩
  rw [hresult₂]
  cases (perform ⟨policy, caller⟩ (h.calls b) (perform ⟨policy, caller⟩ (h.calls a) s).2).1 with
  | error e => rfl
  | ok more => exact congrArg Except.ok (Ordered.ofList_append values more)

end

/-- **A document is executed in two parts**, wherever its body is cut behind a balanced text. -/
theorem cut_document (policy : Policy) (s : Store) (caller : Option Caller) (h : Heading)
    {a b : Text} (ha : MarkerFree a) (hb : MarkerFree b) (hbalanced : Balanced a) {sep : Char}
    (hsep : isSeparator sep = true) :
    let first := tryExecute policy s (h.request a) caller
    InTurn (tryExecute policy s (h.request (a ++ sep :: b)) caller) first
      (tryExecute policy first.store (h.request b) caller) := by
  intro first
  constructor
  · intro e he
    exact cut_failed policy s caller h ha hb hbalanced hsep he
  · intro data hdata
    exact cut_succeeded policy s caller h ha hb hbalanced hsep hdata

/-- A profile update and a promotion of nobody: the second half fails, and the first half's address
stays. -/
theorem cut_behind_update :
    let s := Store.ofRecords [⟨"u1", "dev", "pw", "dev@forge", none, []⟩] []
    let dev : Option Caller := some ⟨"u1", none, []⟩
    let update := "updateProfile(email: \"new@forge\")".toList
    let first := tryExecute .permissive s (Heading.mutation.request update) dev
    InTurn
        (tryExecute .permissive s
          (Heading.mutation.request (update ++ '\n' :: "promoteUser".toList)) dev)
        first
        (tryExecute .permissive first.store (Heading.mutation.request "promoteUser".toList) dev) ∧
      (first.store.user? "u1").map User.email = some "new@forge" := by
  intro s dev update first
  have hupdate : MarkerFree update := isIntrospection_eq_false_iff.mp (by decide +kernel)
  have hpromotion : MarkerFree "promoteUser".toList :=
    isIntrospection_eq_false_iff.mp (by decide +kernel)
  have hbalanced : Balanced update := ⟨by decide, by decide⟩
  refine ⟨?_, by decide +kernel⟩
  exact cut_document .permissive s dev .mutation hupdate hpromotion hbalanced rfl

end ForgeQuery
