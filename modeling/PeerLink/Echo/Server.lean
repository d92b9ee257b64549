import PeerLink.Echo.Address
import PeerLink.Scenario.Report

/-! A server for trying out clients. It listens at an address and serves the service `Echo` to every
client that connects, over a connection of bytes. When accepting a connection fails, it listens no
longer, but still serves the clients that it has. -/
namespace PeerLink

/-- The unary method `Call` and the stream `Stream`. Both reply with the messages they receive. -/
def echoService : ScriptService :=
  { name := "Echo"
    methods := [{ name := "Call", handler := { actions := [], reply := .typed .echo } }]
    streams := [{ name := "Stream", handler := .actions [.ready, .echo]
                  serverStreams := true, clientStreams := true }] }

structure EchoServer where
  config : Config
  /-- The connections, by the name of the client. -/
  clients : List (String × World)
  /-- Why it listens no longer. -/
  stopped? : Option String

inductive EchoStep where
  | connect (client : String)
  /-- A client sends bytes. -/
  | send (client : String) (data : Bytes)
  /-- Reading from a client fails. -/
  | failRead (client : String) (message : String)
  /-- A client sends nothing more. -/
  | finish (client : String)
  /-- A client goes away. -/
  | drop (client : String)
  | failAccept
  deriving DecidableEq, Repr

inductive EchoResult where
  | refused
  | done
  deriving DecidableEq, Repr

structure EchoReport where
  received : List (String × List Output)
  result? : Option EchoResult
  stopped? : Option String

namespace EchoServer

def defaultAddress : String := "127.0.0.1:9000"

/-- As many bytes are read at once. -/
def readSize : Nat := 4096

/-- Start to listen, if the address is one. -/
def listen (address : String) (config : Config) : EchoServer :=
  { config, clients := []
    stopped? := if (SocketAddress.ofString? address).isSome then none
      else some "invalid socket address" }

/-- A new connection. There is none if its queues would be too large. -/
def connection? (s : EchoServer) : Option World :=
  World.ofSetup?
    { services := [echoService], telemetry := .none, config := s.config, link := .framed
      logs := false }

def remove (s : EchoServer) (client : String) : EchoServer :=
  { s with clients := s.clients.filter fun c => c.1 ≠ client }

/-- Something happens on the connection of a client. -/
def onClient (s : EchoServer) (client : String) (steps : List ScenarioStep) : EchoServer :=
  { s with clients := s.clients.map fun c =>
      if c.1 = client then (c.1, steps.foldl (fun w step => (w.run step).1) c.2) else c }

def step? (s : EchoServer) : EchoStep → Option (EchoServer × Option EchoResult)
  | .connect client =>
    if s.stopped?.isSome then some (s, some .refused)
    else s.connection?.map fun w =>
      let s := s.remove client
      ({ s with clients := s.clients ++ [(client, w)] }, none)
  | .send client data =>
    let chunks := (World.pieces readSize data).filter fun c => !c.isEmpty
    some (s.onClient client (chunks.map .receiveBytes), none)
  | .failRead client message => some (s.onClient client [.failSource message], none)
  | .finish client => some (s.onClient client [.endInbound], none)
  | .drop client => some (s.remove client, none)
  | .failAccept => some ({ s with stopped? := s.stopped?.or (some "accept failed") }, some .done)

/-- What the clients have received, which is not seen again. That a connection is closed is. -/
def look (s : EchoServer) (result? : Option EchoResult) : EchoServer × EchoReport :=
  ({ s with clients := s.clients.map fun c => (c.1, c.2.onTransport World.clearTaken) },
    { received := s.clients.map fun c => (c.1, World.outputs false c.2.a.transport)
      result?, stopped? := s.stopped? })

/-- Take all steps, as far as possible, and look after each of them. -/
def reports? (s : EchoServer) : List EchoStep → Option (List EchoReport)
  | [] => some []
  | step :: steps =>
    match s.step? step with
    | none => none
    | some (s, result?) =>
      let (s, report) := s.look result?
      (reports? s steps).map (report :: ·)

end EchoServer

end PeerLink
