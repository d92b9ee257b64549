import PeerLink.Handler.Script

/-! A handler's script at work on a call. -/
namespace PeerLink

/-- How far the handler of a call has got. -/
inductive CallProgress where
  | fresh
  /-- The actions that are left, and the message of the request if it was decoded. -/
  | acting (left : List CallAction) (request : Option Message)
  /-- Asleep until `wakeAt`. -/
  | asleep (wakeAt : Nat) (left : List CallAction) (request : Option Message)
  | returned

/-- The handler of a run. -/
structure CallTask where
  run : RunId
  progress : CallProgress
  /-- How many watchers of the call's lifetime have not been woken. -/
  watchers : Nat

namespace CallTask

def new (run : RunId) : CallTask :=
  ⟨run, .fresh, 0⟩

/-- The state of a call in words. -/
def describe (m : Station) (run : Run CallScript) : String :=
  Text.record "CallContext"
    [("id", toString run.id.toInt), ("method", Text.quoted run.method),
      ("lifetime", m.lifetimes.debug run.lifetime)]

/-- What the handler returns after its last action. -/
def result (run : Run CallScript) (request : Option Message) : Except HandlerError Payload :=
  match run.handler.reply, request with
  | .fixed p, _ => .ok p
  | .echo, _ => .ok run.payload
  | .typed _, some message => message.encode.mapError .responseEncoding
  | .typed _, none => .ok run.payload

/-- Return from the handler. -/
def finish (t : CallTask) (m : Station) (result : Except HandlerError Payload) :
    CallTask × Station :=
  ({ t with progress := .returned }, m.finishRun t.run result)

/-- Decode the request, if the handler is typed. -/
def start (t : CallTask) (m : Station) (run : Run CallScript) : CallTask × Station :=
  match run.handler.reply with
  | .typed type =>
    match Message.decode type run.payload with
    | .ok message => ({ t with progress := .acting run.handler.actions (some message) }, m)
    | .error e =>
      t.finish (m.log .requestNotDecoded)
        (.error (.failed ((Failure.ofRoot (.codec e)).note (.text "Failed to decode request"))))
  | _ => ({ t with progress := .acting run.handler.actions none }, m)

/-- Carry out the first action, if nothing keeps it waiting. -/
def act? (t : CallTask) (m : Station) (stage : Stage) (run : Run CallScript)
    (action : CallAction) (left : List CallAction) (request : Option Message) :
    Option (CallTask × Station × Stage) :=
  let next : CallTask := { t with progress := .acting left request }
  match action with
  | .log =>
    some (next, m,
      stage.note run.method run.id (.call (m.isCancelled run.lifetime) (describe m run)))
  | .gate key => if stage.isOpen key then some (next, m, stage) else none
  | .sleep d => some ({ t with progress := .asleep (m.now + d.nanos) left request }, m, stage)
  | .wait => if m.isCancelled run.lifetime then some (next, m, stage) else none
  | .watch => some ({ next with watchers := t.watchers + 1 }, m, stage)
  | .cancel => some (next, m.cancel run.lifetime, stage)
  | .fail failure =>
    let (t, m) := t.finish m (.error (.failed failure))
    some (t, m, stage)
  | .badReply =>
    let (t, m) := t.finish m (.error (.responseEncoding .keyNotText))
    some (t, m, stage)

/-- The handler moves on, if it can. -/
def step? (t : CallTask) (m : Station) (stage : Stage) : Option (CallTask × Station × Stage) :=
  match m.session.runs[t.run]? with
  | none => none
  | some run =>
    match t.progress with
    | .fresh =>
      let (t, m) := t.start m run
      some (t, m, stage)
    | .acting [] request =>
      let (t, m) := t.finish m (result run request)
      some (t, m, stage)
    | .acting (action :: left) request => t.act? m stage run action left request
    | .asleep wakeAt left request =>
      if wakeAt ≤ m.now then some ({ t with progress := .acting left request }, m, stage)
      else none
    | .returned => none

/-- A watcher notes that the call's lifetime is cancelled, once it is. -/
def watch? (t : CallTask) (m : Station) (stage : Stage) : Option (CallTask × Stage) :=
  match m.session.runs[t.run]? with
  | none => none
  | some run =>
    if t.watchers ≠ 0 ∧ m.isCancelled run.lifetime then
      some ({ t with watchers := t.watchers - 1 }, stage.note run.method run.id .lifetimeCancelled)
    else none

/-- When the handler wakes up, if it is asleep. -/
def wakeAt? (t : CallTask) : Option Nat :=
  match t.progress with
  | .asleep wakeAt _ _ => some wakeAt
  | _ => none

end CallTask

end PeerLink
