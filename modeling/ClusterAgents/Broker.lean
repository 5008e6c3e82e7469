import ClusterAgents.Document

/-!
# The connection to the broker

Agents reach the program that starts them through a message broker.  A `Broker` is a complete
connection, which every job carries in its environment; a `Broker.Draft` is one that is still being
put together.  Building hands the draft's fields over and leaves it empty, so that nothing of one
connection can leak into the next.
-/

namespace ClusterAgents

open Doc

/-- How agents reach the broker. -/
structure Broker where
  uri : String
  routingKey : String
  /-- No client certificate is used if the path is empty. -/
  certPath : String
  noVerifyPeer : Bool
  noVerifyHost : Bool
  deriving DecidableEq, Repr

namespace Broker

def cert? (b : Broker) : Option String := if b.certPath.isEmpty then none else some b.certPath

/-- The variables through which an agent receives the connection. -/
def environment (b : Broker) : List (String × String) :=
  [("ACTUATOR_BROKER_URI", b.uri), ("ACTUATOR_ROUTING_KEY", b.routingKey)] ++
    (b.cert?.map (("ACTUATOR_BROKER_CERT", ·))).toList ++
    (if b.noVerifyPeer then [("ACTUATOR_NO_VERIFY_PEER", "1")] else []) ++
    (if b.noVerifyHost then [("ACTUATOR_NO_VERIFY_HOST", "1")] else [])

inductive Setting
  | uri (value : String)
  | routingKey (value : String)
  | certPath (value : String)
  | noVerifyPeer (value : Bool)
  | noVerifyHost (value : Bool)
  deriving DecidableEq, Repr

/-- A connection that is being put together. -/
structure Draft where
  uri : Option String := none
  routingKey : Option String := none
  certPath : Option String := none
  noVerifyPeer : Bool := false
  noVerifyHost : Bool := false
  deriving DecidableEq, Repr

inductive Draft.Use
  | set (s : Setting)
  | build
  | buildCopy
  deriving DecidableEq, Repr

namespace Draft

def set (d : Draft) : Setting → Draft
  | .uri value => { d with uri := some value }
  | .routingKey value => { d with routingKey := some value }
  | .certPath value => { d with certPath := some value }
  | .noVerifyPeer value => { d with noVerifyPeer := value }
  | .noVerifyHost value => { d with noVerifyHost := value }

/-- Completes a draft.  What is left of it is empty exactly if that succeeds. -/
def build (d : Draft) : Outcome Broker × Draft :=
  match d.uri, d.routingKey with
  | none, _ => (.error (.configuration .brokerUri), d)
  | some _, none => (.error (.configuration .brokerRoutingKey), d)
  | some uri, some key =>
    (.ok ⟨uri, key, d.certPath.getD "", d.noVerifyPeer, d.noVerifyHost⟩, {})

/-- What is answered to a use of a draft, and what is left of the draft. -/
def use (d : Draft) : Use → Option (Outcome Broker) × Draft
  | .set s => (none, d.set s)
  | .build => (some d.build.1, d.build.2)
  | .buildCopy => (some d.build.1, d)

structure Fields where
  uri : Option (Option String) := none
  routingKey : Option (Option String) := none
  certPath : Option (Option String) := none
  noVerifyPeer : Option Bool := none
  noVerifyHost : Option Bool := none

def shape (origin : Origin) : Shape Fields where
  title := "struct BrokerConnectionBuilder"
  fields := ["uri", "routing_key", "cert_path", "no_verify_peer", "no_verify_host"]
  strict := true
  optional := ["no_verify_peer", "no_verify_host"]
  set field d draft :=
    match field with
    | "uri" => do return { draft with uri := some (← d.asOption (·.asText origin)) }
    | "routing_key" => do return { draft with routingKey := some (← d.asOption (·.asText origin)) }
    | "cert_path" => do
      return { draft with certPath := some (← d.asOption (·.asText origin "path string")) }
    | "no_verify_peer" => do return { draft with noVerifyPeer := some (← d.asBool origin) }
    | _ => do return { draft with noVerifyHost := some (← d.asBool origin) }

def read (origin : Origin) (d : Doc) : Reading Draft := do
  let f ← (shape origin).read origin {} d
  return {
    uri := f.uri.getD none
    routingKey := f.routingKey.getD none
    certPath := f.certPath.getD none
    noVerifyPeer := f.noVerifyPeer.getD false
    noVerifyHost := f.noVerifyHost.getD false }

end Draft

end Broker

end ClusterAgents
