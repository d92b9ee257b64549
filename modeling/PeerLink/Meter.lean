/-! What a peer counts and notes down about its sessions. -/
namespace PeerLink

/-- The counts of a peer: handlers that succeeded, handlers and encodings that failed, and pings of
the remote peer. Nothing is counted while it is off. -/
structure Meter where
  active : Bool
  successes : Nat
  failures : Nat
  pings : Nat
  deriving DecidableEq, Repr

namespace Meter

def new (active : Bool) : Meter :=
  ⟨active, 0, 0, 0⟩

def success (m : Meter) : Meter :=
  if m.active then { m with successes := m.successes + 1 } else m

def failure (m : Meter) : Meter :=
  if m.active then { m with failures := m.failures + 1 } else m

def ping (m : Meter) : Meter :=
  if m.active then { m with pings := m.pings + 1 } else m

end Meter

/-- A happening that is worth a note. -/
inductive LogEvent where
  | unknownStreamClosed
  | unknownRequestAnswered
  | methodNotFound
  | streamNotFound
  | requestNotDecoded
  | textIgnored
  | handlerFailed
  | streamHandlerFailed
  | envelopeNotRead
  | envelopeNotWritten
  | envelopeNotEncoded
  | messageNotDecoded
  | messageNotRead
  | messageNotWritten
  deriving DecidableEq, Repr

/-- The severity and the wording of a note. -/
def LogEvent.text : LogEvent → String
  | .unknownStreamClosed => "INFO received close for unknown stream"
  | .unknownRequestAnswered => "INFO received response for unknown request"
  | .methodNotFound => "WARN method not found"
  | .streamNotFound => "WARN stream not found"
  | .requestNotDecoded => "WARN failed to decode request"
  | .textIgnored => "WARN ignoring text message"
  | .handlerFailed => "ERROR handler failed"
  | .streamHandlerFailed => "ERROR stream handler failed"
  | .envelopeNotRead => "ERROR failed to read envelope"
  | .envelopeNotWritten => "ERROR failed to write envelope"
  | .envelopeNotEncoded => "ERROR failed to encode envelope"
  | .messageNotDecoded => "ERROR failed to decode websocket message"
  | .messageNotRead => "ERROR failed to read websocket message"
  | .messageNotWritten => "ERROR failed to write websocket message"

end PeerLink
