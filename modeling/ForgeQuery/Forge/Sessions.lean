import ForgeQuery.Forge.Store

/-!
# Sessions

A session table maps opaque tokens to user ids. It holds no copy of a record: whoever looks a token
up gets the user as the store has it at that moment, so a change of role is visible to the next
request made with an old token. Fresh tokens are handed in from outside.
-/

namespace ForgeQuery

/-- The open sessions. -/
structure Sessions where
  /-- the id of the user behind each open token -/
  holders : Ordered String String
  deriving DecidableEq

namespace Sessions

/-- The table in which no session is open. -/
def empty : Sessions := ⟨∅⟩

/-- Open a session for a user under a fresh token. -/
def grant (s : Sessions) (token user : String) : Sessions := ⟨s.holders.insert token user⟩

/-- Open a session under a fresh token, if the credentials are those of a user. -/
def login? (s : Sessions) (store : Store) (token username password : String) : Option Sessions :=
  (store.authenticate username password).map (s.grant token)

/-- Whether a token is open. -/
def isOpen (s : Sessions) (token : String) : Bool := (s.holders.get? token).isSome

/-- Close a token. Closing one that is not open changes nothing. -/
def logout (s : Sessions) (token : String) : Sessions := ⟨s.holders.erase token⟩

/-- The identity behind a token, read from the user's current record. -/
def lookup? (s : Sessions) (store : Store) (token : String) : Option Caller :=
  (s.holders.get? token).bind store.caller?

end Sessions

end ForgeQuery
