import DatumConnect.Proxies.State
/-!
# Who is let through

A `ListenNode` lets a request through when its own copy of the list has an enabled
proxy for the host and port that the request names.  The identity that the request
came to, and the peer that made it, play no part.
-/

namespace DatumConnect.Proxies

structure Authority where
  host : String
  port : UInt16
  deriving DecidableEq, Repr

/-- `HttpProxyRequestKind`. -/
inductive Request where
  | tunnel (target : Authority)
  | absolute (target : String)
  deriving DecidableEq, Repr

def stripHostScheme (host : String) : String :=
  if "http://".toList.isPrefixOf host.toList then String.ofList (host.toList.drop 7)
  else if "https://".toList.isPrefixOf host.toList then String.ofList (host.toList.drop 8)
  else host

def normalizeLoopback (host : String) : String :=
  if host = "localhost" ∨ host = "::1" then "127.0.0.1" else host

/-- The request's host and port are those of the target. -/
def SameTarget (authority : Authority) (data : TcpProxyData) : Prop :=
  normalizeLoopback data.host = normalizeLoopback (stripHostScheme authority.host) ∧
    data.port = authority.port

instance (authority : Authority) (data : TcpProxyData) : Decidable (SameTarget authority data) := by
  unfold SameTarget
  infer_instance

def State.tcpProxyExists (s : State) (authority : Authority) : Bool :=
  s.proxies.any fun proxy => proxy.enabled && decide (SameTarget authority proxy.info.data)

/-- The host and port that a request names.  `Authority::from_absolute_uri` is the
library's. -/
def Request.authority? (fromAbsoluteUri : String → Option Authority) : Request → Option Authority
  | .tunnel target => some target
  | .absolute target => fromAbsoluteUri target

/-- `StateWrapper::authorize`: `Ok` or `Forbidden`. -/
def State.authorize (fromAbsoluteUri : String → Option Authority) (s : State) (request : Request) :
    Bool :=
  match request.authority? fromAbsoluteUri with
  | some authority => s.tcpProxyExists authority
  | none => false

theorem State.authorize_iff {fromAbsoluteUri : String → Option Authority} {s : State}
    {request : Request} :
    s.authorize fromAbsoluteUri request = true ↔
      ∃ authority, request.authority? fromAbsoluteUri = some authority ∧
        ∃ proxy ∈ s.proxies, proxy.enabled = true ∧ SameTarget authority proxy.info.data := by
  rw [State.authorize]
  cases request.authority? fromAbsoluteUri with
  | none => simp
  | some authority => simp [State.tcpProxyExists]

end DatumConnect.Proxies
