import ExpenseLedger.Http.Status

/-!
# Peers

What a program can know of somebody at the other end of HTTP: whether it can be reached at all,
and the answers that it gives one after another.
-/

namespace ExpenseLedger
namespace Http

structure Request where
  path : String
  body : String := ""
  deriving DecidableEq, Repr

structure Response where
  status : Status
  body : String
  deriving DecidableEq, Repr

/-- A peer: the answers that are still to come, of which the last repeats, and the requests that
have come in. One that has nothing to answer does not listen. -/
structure Peer where
  reachable : Bool := true
  responses : List Response
  received : List Request := []
  deriving DecidableEq, Repr

namespace Peer

/-- The answers that are left once the first has been given. -/
def following : List Response → List Response
  | _ :: second :: rest => second :: rest
  | last => last

/-- Sends a request; none if it does not reach the peer. -/
def send (request : Request) (peer : Peer) : Option Response × Peer :=
  match peer.responses with
  | [] => (none, peer)
  | first :: _ =>
    if peer.reachable then
      (some first, { peer with
        responses := following peer.responses
        received := peer.received ++ [request] })
    else
      (none, peer)

end Peer
end Http
end ExpenseLedger
