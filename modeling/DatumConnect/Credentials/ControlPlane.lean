import DatumConnect.Lib.Pool
import DatumConnect.Lib.Watch
/-!
# Clients of a project's control plane

A `ProjectControlPlaneClient` keeps an access token, and a kube client built with it, in two cells.
They are rebuilt by `client_refreshed`, and by a task of the client that watches for a new token:
one made by `new_with_token_source` watches the token source, one made by `new` the login state and
the auth updates.  The source puts a new token into its cell, and then sends it to those who watch.
-/

namespace DatumConnect.Credentials

open DatumConnect.Lib
open DatumConnect.Lib.Prog (Protocol)

/-- `ExternalTokenSource`, less its refresh loop. -/
structure TokenSource where
  token : String
  tokenTx : Watch String
  deriving DecidableEq, Repr

def TokenSource.withToken (token : String) : TokenSource where
  token
  tokenTx := { value := token }

inductive LoginState where
  | missing
  | valid
  | refreshing
  deriving DecidableEq, Repr

/-- What `login_state_watch` subscribes to.  Nobody sends on it. -/
def loginStateTx : Watch LoginState := { value := .valid }

/-- What `auth_update_watch` returns a receiver of: its sender has been dropped by then. -/
def authUpdateTx : Watch Nat := { value := 0, alive := false }

structure KubeClient where
  serverUrl : String
  token : String
  deriving DecidableEq, Repr

structure ProjectControlPlaneClient where
  serverUrl : String
  accessToken : String
  client : KubeClient
  /-- What the `token_rx` has seen, if there is one. -/
  seen : Option Nat
  /-- Not all clones of it have been dropped. -/
  live : Bool := true
  deriving DecidableEq, Repr

structure Plane where
  source : TokenSource
  clients : List ProjectControlPlaneClient := []
  deriving DecidableEq, Repr

namespace Plane

/-- Somebody watches the token. -/
def watched (s : Plane) : Bool := s.clients.any fun c => c.live && c.seen.isSome

def modify (s : Plane) (id : Nat) (f : ProjectControlPlaneClient → ProjectControlPlaneClient) :
    Plane :=
  { s with clients := s.clients.modify id f }

end Plane

inductive Call where
  | token
  | store (newToken : String)
  | send (newToken : String)
  /-- The client is made, with or without a `token_rx`, and its task spawned. -/
  | create (serverUrl accessToken : String) (watching : Bool)
  | loadToken (id : Nat)
  | build (id : Nat) (accessToken : String)
  | storeClient (id : Nat) (accessToken : String)
  | storeToken (id : Nat) (accessToken : String)
  /-- `token_rx.changed().await` -/
  | changed (id : Nat)
  | borrow (id : Nat)
  /-- The `select!` over the login state and the auth updates. -/
  | select (id : Nat)
  | drop (id : Nat)
  deriving DecidableEq, Repr

abbrev Call.Reply : Call → Type
  | .token | .loadToken _ | .borrow _ => String
  | .build .. | .changed _ | .select _ => Bool
  | .store _ | .send _ | .create .. | .storeClient .. | .storeToken .. | .drop _ => Unit

inductive Op where
  | swapToken (newToken : String)
  | new (serverUrl accessToken : String)
  | newWithTokenSource (serverUrl : String)
  | clientRefreshed (id : Nat)
  /-- The task of a client up to its loop. -/
  | authTask (id : Nat) (watching : Bool)
  /-- A turn of the loop. -/
  | authTurn (id : Nat) (watching : Bool)
  | dropClient (id : Nat)
  deriving DecidableEq, Repr

abbrev Program := Prog Call Call.Reply

def perform (c : Call) : Program c.Reply := Prog.perform c

-- Whether kube makes a client for the server and the token.
variable (builds : String → String → Bool)

section Code

def swapToken (newToken : String) : Program Unit := do
  perform (.store newToken)
  perform (.send newToken)

/-- Nothing happens if there is no kube client for the server and the token. -/
def ProjectControlPlaneClient.new (serverUrl accessToken : String) : Program Unit :=
  if builds serverUrl accessToken then perform (.create serverUrl accessToken false) else pure ()

def ProjectControlPlaneClient.newWithTokenSource (serverUrl : String) : Program Unit := do
  let initialToken ← perform .token
  if builds serverUrl initialToken then perform (.create serverUrl initialToken true) else pure ()

def rebuildIfChanged (id : Nat) (accessToken : String) : Program Unit := do
  let current ← perform (.loadToken id)
  if current = accessToken then
    pure ()
  else
    let built ← perform (.build id accessToken)
    if built then
      perform (.storeClient id accessToken)
      perform (.storeToken id accessToken)
    else
      pure ()

def clientRefreshed (id : Nat) : Program Unit := do
  let accessToken ← perform .token
  rebuildIfChanged id accessToken

/-- In plugin mode, as in any other, the token is the source's. -/
def refreshClientFromUpdate (id : Nat) : Program Unit := do
  let token ← perform .token
  rebuildIfChanged id token

def refreshUnlessMissing (id : Nat) : Program Unit :=
  if loginStateTx.value ≠ .missing then refreshClientFromUpdate id else pure ()

/-- The task goes on to its loop. -/
def authTask (id : Nat) : Bool → Program Bool
  | true => do
      refreshClientFromUpdate id
      return true
  | false => do
      refreshUnlessMissing id
      return true

/-- Whether the loop goes on. -/
def authTurn (id : Nat) : Bool → Program Bool
  | true => do
      let changed ← perform (.changed id)
      if changed then
        let newToken ← perform (.borrow id)
        rebuildIfChanged id newToken
        return true
      else
        return false
  | false => do
      let changed ← perform (.select id)
      if changed then
        refreshUnlessMissing id
        return true
      else
        return false

/-- What is returned says whether a task goes on. -/
def code : Op → Program Bool
  | .swapToken newToken => do
      swapToken newToken
      return false
  | .new serverUrl accessToken => do
      ProjectControlPlaneClient.new builds serverUrl accessToken
      return false
  | .newWithTokenSource serverUrl => do
      ProjectControlPlaneClient.newWithTokenSource builds serverUrl
      return false
  | .clientRefreshed id => do
      clientRefreshed id
      return false
  | .authTask id watching => authTask id watching
  | .authTurn id watching => authTurn id watching
  | .dropClient id => do
      perform (.drop id)
      return false

end Code

/-! ## Calls -/

/-- What waiting for either of two channels comes to: whether the one that is ready has changed. -/
def selectChanged : Watch.Changed → Watch.Changed → Option Bool
  | .changed, _ => some true
  | .closed, _ => some false
  | .waits, .changed => some true
  | .waits, .closed => some false
  | .waits, .waits => none

/-- The task of a client without a `token_rx` has subscribed when the client was made. -/
def authChanged : Option Bool := selectChanged (loginStateTx.changed 0) (authUpdateTx.changed 0)

/-- What the `token_rx` of a client comes to. -/
def Plane.tokenChanged (s : Plane) (id : Nat) : Watch.Changed :=
  match s.clients[id]?.bind (·.seen) with
  | some seen => s.source.tokenTx.changed seen
  | none => .waits

def handle (s : Plane) : (c : Call) → Unit → Plane × c.Reply
  | .token, _ => (s, s.source.token)
  | .store newToken, _ => ({ s with source := { s.source with token := newToken } }, ())
  | .send newToken, _ =>
      ({ s with source := { s.source with tokenTx := s.source.tokenTx.send s.watched newToken } },
        ())
  | .create serverUrl accessToken watching, _ =>
      ({ s with clients := s.clients ++ [{
          serverUrl
          accessToken
          client := { serverUrl, token := accessToken }
          seen := if watching then some s.source.tokenTx.version else none }] }, ())
  | .loadToken id, _ => (s, (s.clients[id]?.map (·.accessToken)).getD "")
  | .build id accessToken, _ => (s, s.clients[id]?.any fun c => builds c.serverUrl accessToken)
  | .storeClient id accessToken, _ =>
      (s.modify id fun c => { c with client := { serverUrl := c.serverUrl, token := accessToken } },
        ())
  | .storeToken id accessToken, _ => (s.modify id fun c => { c with accessToken }, ())
  | .changed id, _ =>
      (s.modify id fun c => { c with seen := c.seen.map fun _ => s.source.tokenTx.version },
        decide (s.tokenChanged id = .changed))
  | .borrow _, _ => (s, s.source.tokenTx.value)
  | .select _, _ => (s, authChanged = some true)
  | .drop id, _ => (s.modify id fun c => { c with live := false }, ())

/-! ## The whole -/

/-- Where a program is. -/
structure Place where
  op : Op
  /-- The token that a rebuild under way has taken. -/
  taken : Option String := none
  /-- The rebuild has stored the kube client, and not the token. -/
  half : Bool := false
  /-- A token has been taken. -/
  took : Bool := false
  /-- The task has been told of a change. -/
  notified : Bool := false
  /-- The task has been told that the sender is gone. -/
  closed : Bool := false
  /-- The token that a swap has stored, and not sent. -/
  swapping : Option String := none
  deriving DecidableEq, Repr

/-- The client that is rebuilt. -/
def Op.client : Op → Option Nat
  | .clientRefreshed id | .authTask id _ | .authTurn id _ => some id
  | _ => none

/-- What the task of the client does. -/
def Op.tasks (id : Nat) : Op → Bool
  | .authTask id' _ | .authTurn id' _ => id' = id
  | _ => false

namespace Place

/-- The token is the one that the rebuild goes on with. -/
def take (g : Place) (token : String) : Place :=
  { g with taken := some token, took := true }

def finish (g : Place) : Place := { g with taken := none, half := false }

/-- The task is about to take a token. -/
def coming (g : Place) : Bool :=
  !g.took && match g.op with
    | .authTask .. => true
    | _ => g.notified

def Allowed (g : Place) : Call → Prop
  | .token =>
      g.op.client.isSome = true ∧ g.taken = none ∧ g.half = false ∨
        ∃ serverUrl, g.op = .newWithTokenSource serverUrl
  | .store newToken => g.op = .swapToken newToken
  | .send newToken => g.swapping = some newToken
  | .create .. => True
  | .loadToken id => g.op.client = some id ∧ g.taken.isSome = true ∧ g.half = false
  | .build id accessToken | .storeClient id accessToken =>
      g.op.client = some id ∧ g.taken = some accessToken ∧ g.half = false
  | .storeToken id accessToken => g.op.client = some id ∧ g.taken = some accessToken ∧ g.half = true
  | .changed id => g = { op := .authTurn id true }
  | .borrow id =>
      g.op = .authTurn id true ∧ g.notified = true ∧ g.took = false ∧ g.taken = none ∧
        g.half = false
  | .select id => g = { op := .authTurn id false }
  | .drop id => g.op = .dropClient id

def advance (g : Place) : (c : Call) → c.Reply → Place
  | .token, token => if g.op.client.isSome then g.take token else g
  | .store newToken, _ => { g with swapping := some newToken }
  | .send _, _ => { g with swapping := none }
  | .loadToken _, current => if g.taken = some current then g.finish else g
  | .build .., built => if built = true then g else g.finish
  | .storeClient .., _ => { g with half := true }
  | .storeToken .., _ => g.finish
  | .changed _, changed => { g with notified := changed, closed := !changed }
  | .borrow _, token => g.take token
  | .create .., _ | .select _, _ | .drop _, _ => g

end Place

def protocol : Protocol Call Call.Reply Place where
  allowed g c := g.Allowed c
  advance := Place.advance

def system : Pool.System Op Call Call.Reply Bool Plane Unit Place Unit where
  code := code builds
  handle := handle builds
  protocol
  start op := { op }
  fresh := ()
  notice _ _ _ _ _ := ()
  abandon s _ := s

abbrev Clients := Pool.World Op Call Call.Reply Bool Plane Place Unit

abbrev Worker := Pool.Client Op Call Call.Reply Bool Place Unit

/-- What the task of a client has done so far. -/
def Clients.task (w : Clients) (id : Nat) : List Worker :=
  w.clients.filter fun cl => cl.op.tasks id

/-- The task of a live client, and it has or has not a `token_rx`. -/
def Plane.has (s : Plane) (id : Nat) (watching : Bool) : Bool :=
  s.clients[id]?.any fun c => c.live && c.seen.isSome == watching

def Plane.lives (s : Plane) (id : Nat) : Bool := s.clients[id]?.any (·.live)

/-- A task waits where its channels have nothing for it, and is aborted there when its client is
dropped. -/
def Plane.ready (s : Plane) : Call → Bool
  | .changed id => s.lives id && s.tokenChanged id != .waits
  | .select id => s.lives id && authChanged.isSome
  | _ => true

/-- A task is spawned once and does one thing after another.  No program is given up halfway. -/
def ready (w : Clients) : Pool.Act Op Unit → Bool
  | .spawn op =>
      match op with
      | .authTask id watching => w.state.has id watching && (w.task id).isEmpty
      | .authTurn id watching =>
          w.state.has id watching && !(w.task id).isEmpty &&
            (w.task id).all fun cl => cl.result == some true
      | .clientRefreshed id => w.state.lives id
      | .dropClient id =>
          w.state.lives id && !w.clients.any fun cl => cl.running && cl.op == .clientRefreshed id
      | .swapToken _ | .new .. | .newWithTokenSource _ => true
  | .step i _ => ((w.clients[i]?).bind Pool.Client.next).all w.state.ready
  | .drop _ => false

def step (w : Clients) (act : Pool.Act Op Unit) : Option Clients :=
  (system builds).stepWhen ready w act

def start (token : String) : Clients := { state := { source := .withToken token } }

/-- No task, caller or swap has a step left to take. -/
def Clients.Settled (w : Clients) : Prop :=
  (∀ i, step builds w (.step i ()) = none) ∧
    ∀ id watching, step builds w (.spawn (.authTask id watching)) = none ∧
      step builds w (.spawn (.authTurn id watching)) = none

/-- Every live client has the token of the source, and a kube client built with it. -/
def Plane.Current (s : Plane) : Prop :=
  ∀ c ∈ s.clients, c.live = true →
    c.accessToken = s.source.token ∧
      c.client = { serverUrl := c.serverUrl, token := s.source.token }

end DatumConnect.Credentials
