import ForgeQuery.Proofs.Calls

/-!
# Runs through sessions

A `World` is what a server keeps between two actions of its clients: the store and the table of
open sessions over it. A client logs in, logs out, looks a token up, or has a request executed,
either for whoever holds a token or for a caller that the host names directly. `World.step` is one
action, `World.run` a list of them.

What every action preserves, every run preserves (`World.run_invariant`).
-/

namespace ForgeQuery

/-- The records of a server and its open sessions. -/
structure World where
  /-- the records -/
  store : Store
  /-- the open sessions -/
  sessions : Sessions
  deriving DecidableEq

/-- Something that a client does. -/
inductive Action where
  /-- ask for a session; the token is the one that is generated -/
  | login (token username password : String)
  /-- close a session -/
  | logout (token : String)
  /-- ask for the identity behind a token -/
  | lookup (token : String)
  /-- have a request executed for whoever holds a token -/
  | request (request : Request) (token : Option String)
  /-- have a request executed for a caller that is given -/
  | direct (request : Request) (caller : Option Caller)

/-- Whether every identity in the action comes from the session table. -/
def Action.IsThroughSession : Action → Prop
  | .direct .. => False
  | _ => True

namespace World

/-- The world before the first action. -/
def start (s : Store) : World := ⟨s, Sessions.empty⟩

/-- The world after an action. Credentials of nobody open no session. -/
def step (policy : Policy) (w : World) : Action → World
  | .login token username password =>
    { w with sessions := (w.sessions.login? w.store token username password).getD w.sessions }
  | .logout token => { w with sessions := w.sessions.logout token }
  | .lookup _ => w
  | .request request token =>
    { w with store := (executeWithSession policy w.store w.sessions request token).store }
  | .direct request caller => { w with store := (execute policy w.store request caller).store }

/-- The world after a list of actions. -/
def run (policy : Policy) (w : World) (actions : List Action) : World :=
  actions.foldl (step policy) w

/-- What every action of a run preserves, the run preserves. -/
theorem run_invariant {policy : Policy} {P : World → Prop} {actions : List Action}
    (hstep : ∀ a ∈ actions, ∀ w, P w → P (w.step policy a)) {w : World} (h : P w) :
    P (w.run policy actions) :=
  List.foldlRecOn actions (step policy) h fun w hw a ha => hstep a ha w hw

end World

end ForgeQuery
