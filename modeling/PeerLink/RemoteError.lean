import PeerLink.Json.Shape

/-! Errors that one peer reports to another: a name, by which programs tell them apart, and a message
for people. Errors made by `RemoteError.new` have neither field empty. -/
namespace PeerLink

structure RemoteError where
  name : String
  message : String
  deriving DecidableEq, Repr

namespace RemoteError

/-- The names of the errors that a session reports on its own account. -/
def methodNotFoundName : String := "MethodNotFound"
def streamNotFoundName : String := "StreamNotFound"
def handlerFailedName : String := "HandlerFailed"
def responseEncodingName : String := "ResponseMarshallingFailed"

/-- An error with these fields; an empty one is filled in. -/
def new (name message : String) : RemoteError :=
  { name := if name.isEmpty then handlerFailedName else name
    message := if message.isEmpty then "unknown error" else message }

/-- Fill in empty fields. -/
def normalized (e : RemoteError) : RemoteError :=
  new e.name e.message

def methodNotFound (method : String) : RemoteError :=
  new methodNotFoundName ("no method found for \"" ++ method ++ "\"")

def streamNotFound (method : String) : RemoteError :=
  new streamNotFoundName ("no stream found for \"" ++ method ++ "\"")

/-- The error has this name. -/
def is (e : RemoteError) (name : String) : Bool :=
  e.name == name

/-- The error for people. -/
def display (e : RemoteError) : String :=
  e.name ++ ": " ++ e.message

def debug (e : RemoteError) : String :=
  Text.record "Error" [("name", Text.quoted e.name), ("message", Text.quoted e.message)]

/-- An error is an object with the two fields. -/
def kind : Json.RecordKind :=
  { name := "Error"
    fields := [⟨"name", ⟨.text, false⟩, none⟩, ⟨"message", ⟨.text, false⟩, none⟩] }

def toJson (e : RemoteError) : String :=
  "\x7b\"name\":" ++ Json.quote e.name ++ ",\"message\":" ++ Json.quote e.message ++ "\x7d"

/-- Read an error; empty fields stay empty. -/
def ofJson (text : Bytes) : Except Json.Error RemoteError := do
  match ← Json.read (.record kind) text with
  | .record [.text name, .text message] => return ⟨name, message⟩
  | _ => throw ⟨.expectedValue, none⟩

theorem new_name_ne (name message : String) : (new name message).name ≠ "" := by
  change (if name.isEmpty then handlerFailedName else name) ≠ ""
  split <;> simp_all [handlerFailedName]

theorem new_message_ne (name message : String) : (new name message).message ≠ "" := by
  change (if message.isEmpty then "unknown error" else message) ≠ ""
  split <;> simp_all

end RemoteError

end PeerLink
