import PeerLink.Text.Quoted

/-! The methods and streams that a peer serves, by full name `Service.method`. Registering a service
adds all of its names or none. -/
namespace PeerLink

/-- A unary method and what serves it. -/
structure Method (M : Type) where
  name : String
  handler : M

/-- A stream method and what serves it. The two flags say which sides send messages. -/
structure StreamMethod (S : Type) where
  name : String
  handler : S
  serverStreams : Bool
  clientStreams : Bool

def Method.debug {M : Type} (m : Method M) : String :=
  Text.record "MethodDescriptor" [("name", Text.quoted m.name)]

def StreamMethod.debug {S : Type} (s : StreamMethod S) : String :=
  Text.record "StreamDescriptor"
    [("name", Text.quoted s.name), ("server_streams", Text.bool s.serverStreams),
      ("client_streams", Text.bool s.clientStreams)]

/-- A named group of methods and streams. -/
structure Service (M S : Type) where
  name : String
  methods : List (Method M)
  streams : List (StreamMethod S)

namespace Service

variable {M S : Type}

/-- The name by which a method of the service is called. -/
def fullName (s : Service M S) (method : String) : String :=
  s.name ++ "." ++ method

/-- All full names, methods first. -/
def fullNames (s : Service M S) : List String :=
  s.methods.map (fun m => s.fullName m.name) ++ s.streams.map (fun m => s.fullName m.name)

end Service

inductive RegistryError where
  | duplicate (name : String)
  deriving DecidableEq, Repr

def RegistryError.message : RegistryError → String
  | .duplicate name => "Handler for \"" ++ name ++ "\" is already registered"

/-- Methods and streams under their full names, in the order in which they were registered. -/
structure Registry (M S : Type) where
  methods : List (Method M)
  streams : List (StreamMethod S)

namespace Registry

variable {M S : Type}

def empty : Registry M S :=
  ⟨[], []⟩

def method? (r : Registry M S) (name : String) : Option (Method M) :=
  r.methods.find? fun m => m.name == name

def stream? (r : Registry M S) (name : String) : Option (StreamMethod S) :=
  r.streams.find? fun s => s.name == name

/-- All names in use. -/
def names (r : Registry M S) : List String :=
  r.methods.map Method.name ++ r.streams.map StreamMethod.name

/-- The first of `names` that is in `taken` or occurs earlier in `names`. -/
def firstTaken? (taken : List String) : (names : List String) → Option String
  | [] => none
  | name :: names => if name ∈ taken then some name else firstTaken? (name :: taken) names

/-- Add all methods and streams of a service, unless one of the names is taken. -/
def register (r : Registry M S) (s : Service M S) : Except RegistryError (Registry M S) :=
  match firstTaken? r.names s.fullNames with
  | some name => .error (.duplicate name)
  | none =>
    .ok { methods := r.methods ++ s.methods.map fun m => { m with name := s.fullName m.name }
          streams := r.streams ++ s.streams.map fun m => { m with name := s.fullName m.name } }

def debug (r : Registry M S) : String :=
  Text.record "Registry"
    [("methods", Text.list (r.methods.map fun m => Text.quoted m.name)),
      ("streams", Text.list (r.streams.map fun s => Text.quoted s.name))]

end Registry

end PeerLink
