import PeerLink.Duration
import PeerLink.Json.Shape

/-! Options that all sessions of a peer share. -/
namespace PeerLink

structure Config where
  /-- How many envelopes may wait for the transport. -/
  channelCapacity : Nat := 16
  /-- How long a call waits for its response, in milliseconds; for ever if there is none. -/
  callTimeout : Option Nat := none
  /-- The websocket text that tells that the remote peer is alive. -/
  pingMessage : String := "__ping__"
  deriving DecidableEq, Repr

namespace Config

/-- The largest number of milliseconds of a timeout, and the largest capacity. -/
def maxNumber : Nat := 0xFFFFFFFFFFFFFFFF

def capacityKind : Json.IntKind :=
  ⟨"usize", 0, maxNumber⟩

def timeoutKind : Json.IntKind :=
  ⟨"u64", 0, maxNumber⟩

/-- Every field may be left out. -/
def kind : Json.RecordKind :=
  { name := "Config"
    fields :=
      [⟨"channelCapacity", ⟨.int capacityKind, false⟩, some (.int 16)⟩,
        ⟨"callTimeout", ⟨.int timeoutKind, true⟩, some .absent⟩,
        ⟨"pingMessage", ⟨.text, false⟩, some (.text "__ping__")⟩] }

/-- The number of an optional integer. -/
def natOf? : Json.Scalar → Option Nat
  | .int n => some n.toNat
  | _ => none

def ofJson (text : String) : Except Json.Error Config := do
  match ← Json.read (.record kind) (Text.Utf8.encode text) with
  | .record [.int capacity, timeout, .text ping] =>
    return { channelCapacity := capacity.toNat, callTimeout := natOf? timeout, pingMessage := ping }
  | _ => throw ⟨.expectedValue, none⟩

def withChannelCapacity (c : Config) (capacity : Nat) : Config :=
  { c with channelCapacity := capacity }

/-- A timeout is cut to whole milliseconds, and to the largest number of them. -/
def withCallTimeout (c : Config) (timeout : Option Duration) : Config :=
  { c with callTimeout := timeout.map fun d => min d.millis maxNumber }

def withPingMessage (c : Config) (ping : String) : Config :=
  { c with pingMessage := ping }

def callDuration (c : Config) : Option Duration :=
  c.callTimeout.map .ofMillis

def debug (c : Config) : String :=
  let timeout := match c.callTimeout with
    | some n => Text.tuple "Some" [toString n]
    | none => "None"
  Text.record "Config"
    [("channel_capacity", toString c.channelCapacity), ("call_timeout", timeout),
      ("ping_message", Text.quoted c.pingMessage)]

end Config

end PeerLink
