import Mathlib.Algebra.Order.Group.Multiset
import Mathlib.Logic.Function.Basic
import PeerLink.Proofs.Session.Apart

/-! A session without numbers. Streams, runs and lifetimes are numbered in the order in which they are
started, so two orders of the same envelopes end in different states. Here open streams are looked up by
id, and what is not found by an id is counted. In these terms an envelope reads and writes one id and
adds to what is counted, which is why the order of two envelopes with different ids does not matter. -/
namespace PeerLink

variable {M S : Type}

/-- A stream that is served, without its number and that of its lifetime. -/
@[ext] structure ServedView (S : Type) where
  id : Int32
  method : String
  handler : S
  inbox : List Payload
  inboxClosed : Bool
  closeSent : Bool
  result : Option (Except Failure Unit)
  cancelled : Bool

/-- A run, without the number of its lifetime. -/
@[ext] structure RunView (M : Type) where
  id : Int32
  method : String
  handler : M
  payload : Payload
  result : Option (Except HandlerError Payload)
  cancelled : Bool

/-- A session without the numbers of what the remote peer has started. -/
@[ext] structure Unnumbered (M S : Type) where
  registry : Registry M S
  ended : Bool
  pending : IdTable Slot
  calls : List Call
  clientStreams : List ClientStream
  /-- The stream that is open with an id. -/
  streams : Int32 → Option (ServedView S)
  /-- The streams that were open once. -/
  left : Multiset (ServedView S)
  runs : Multiset (RunView M)
  refusals : Multiset Refusal
  journal : Multiset LogEvent

/-- What becomes of the stream that is open with an id, and what is added to the rest. -/
structure Effect (M S : Type) where
  entry : Option (ServedView S)
  left : Multiset (ServedView S) := 0
  runs : Multiset (RunView M) := 0
  refusals : Multiset Refusal := 0
  journal : Multiset LogEvent := 0

/-- The effect of an envelope, given what is served, whether the session has ended, and the stream that
is open with the id. -/
abbrev Reaction (M S : Type) :=
  Registry M S → Bool → Option (ServedView S) → Effect M S

namespace Reaction

def refuse (entry : Option (ServedView S)) (event : LogEvent) (id : Int32) (error : RemoteError) :
    Effect M S where
  entry := entry
  refusals := {⟨⟨id, .error error⟩, false⟩}
  journal := {event}

def call (r : Request) : Reaction M S := fun registry ended entry =>
  match registry.method? r.method with
  | none => refuse entry .methodNotFound r.id (.methodNotFound r.method)
  | some method =>
    { entry, runs := {⟨r.id, r.method, method.handler, r.payload, none, ended⟩} }

def stream (r : Request) : Reaction M S := fun registry ended entry =>
  match entry with
  | some x => { entry := some { x with inbox := x.inbox ++ [r.payload] } }
  | none =>
    match registry.stream? r.method with
    | none => refuse none .streamNotFound r.id (.streamNotFound r.method)
    | some method =>
      { entry := some ⟨r.id, r.method, method.handler, [r.payload], false, false, none, ended⟩ }

def close : Reaction M S := fun _ _ entry =>
  match entry with
  | some x => { entry := none, left := {{ x with inboxClosed := true, cancelled := true }} }
  | none => { entry := none, journal := {.unknownStreamClosed} }

end Reaction

namespace Unnumbered

/-- The stream with the id changes, and the rest gets what comes in addition. -/
def apply (u : Unnumbered M S) (id : Int32) (x : Effect M S) : Unnumbered M S :=
  { u with
    streams := Function.update u.streams id x.entry
    left := u.left + x.left
    runs := u.runs + x.runs
    refusals := u.refusals + x.refusals
    journal := u.journal + x.journal }

/-- What happens depends on the stream with the id and on no other. -/
def act (u : Unnumbered M S) (id : Int32) (f : Reaction M S) : Unnumbered M S :=
  u.apply id (f u.registry u.ended (u.streams id))

/-- Who takes a response with the id. -/
def taker? (u : Unnumbered M S) (id : Int32) : Option Owner :=
  match u.pending.get? id with
  | some (.call c true) => some (.call c)
  | some (.stream c) => some (.stream c)
  | _ => none

def deliver (u : Unnumbered M S) (r : Response) : Unnumbered M S :=
  match u.taker? r.id with
  | some (.call c) =>
    { u with
      pending := u.pending.modify r.id fun _ => .call c false
      calls := u.calls.modify c fun x => { x with response := some r.content } }
  | some (.stream c) =>
    { u with clientStreams := u.clientStreams.modify c fun x =>
        { x with responses := x.responses ++ [r.content] } }
  | none => { u with journal := u.journal + {.unknownRequestAnswered} }

/-- What an envelope does that is not a bye. A bye is about all ids. -/
def handle (u : Unnumbered M S) : Envelope → Unnumbered M S
  | .response r => u.deliver r
  | .request r => u.act r.id (if r.isStream then .stream r else .call r)
  | .streamClose id => u.act id .close
  | .bye => u
  | .opening _ => u
  | .openingAck _ => u

/-! ### Orders -/

theorem act_comm (u : Unnumbered M S) {i j : Int32} (hne : i ≠ j) (f g : Reaction M S) :
    (u.act i f).act j g = (u.act j g).act i f := by
  have hApply : ∀ x y, (u.apply i x).apply j y = (u.apply j y).apply i x := by
    intro x y
    simp only [apply, Function.update_comm hne]
    simp only [add_right_comm]
  have hFirst : (u.act j g).streams i = u.streams i := Function.update_of_ne hne _ _
  have hSecond : (u.act i f).streams j = u.streams j := Function.update_of_ne (Ne.symm hne) _ _
  rw [act.eq_def (u.act i f), act.eq_def (u.act j g), hFirst, hSecond]
  exact hApply _ _

theorem deliver_act (u : Unnumbered M S) (r : Response) (i : Int32) (f : Reaction M S) :
    (u.deliver r).act i f = (u.act i f).deliver r := by
  have hTaker : (u.act i f).taker? r.id = u.taker? r.id := rfl
  unfold deliver
  rw [hTaker]
  split
  · rfl
  · rfl
  · simp only [act, apply, add_right_comm]

/-- A response leaves the entries for other ids as they are. -/
theorem taker?_deliver (u : Unnumbered M S) (r : Response) {j : Int32} (hne : j ≠ r.id) :
    (u.deliver r).taker? j = u.taker? j := by
  have hGet : (u.deliver r).pending.get? j = u.pending.get? j := by
    unfold deliver
    split
    · simp [hne]
    · rfl
    · rfl
  rw [taker?, taker?, hGet]

theorem modify_pending_comm (t : IdTable Slot) {i j : Int32} (hne : i ≠ j) (f g : Slot → Slot) :
    (t.modify i f).modify j g = (t.modify j g).modify i f := by
  simp only [IdTable.modify, List.map_map, IdTable.mk.injEq, List.map_inj_left, Function.comp]
  intro e _
  by_cases hi : e.1 = i
  · simp [hi, hne]
  · by_cases hj : e.1 = j
    · simp [hj, Ne.symm hne]
    · simp [hi, hj]

/-- Two responses go to different calls or streams, so it does not matter which comes first. -/
theorem deliver_comm (u : Unnumbered M S) {r r' : Response} (hne : r.id ≠ r'.id)
    (hTakers : ∀ o, u.taker? r.id = some o → u.taker? r'.id ≠ some o) :
    (u.deliver r).deliver r' = (u.deliver r').deliver r := by
  rw [deliver.eq_def (u.deliver r), deliver.eq_def (u.deliver r'),
    u.taker?_deliver r (Ne.symm hne), u.taker?_deliver r' hne]
  cases hTaker : u.taker? r.id with
  | none =>
      cases hTaker' : u.taker? r'.id with
      | none => simp [deliver, hTaker, hTaker']
      | some o' => cases o' <;> simp [deliver, hTaker, hTaker']
  | some o =>
      cases hTaker' : u.taker? r'.id with
      | none => cases o <;> simp [deliver, hTaker, hTaker']
      | some o' =>
          have hOther : o ≠ o' := fun hSame => hTakers o hTaker (hSame ▸ hTaker')
          cases o with
          | call c =>
              cases o' with
              | call c' =>
                  have hc : c ≠ c' := fun hSame => hOther (congrArg Owner.call hSame)
                  simp only [deliver, hTaker, hTaker', modify_pending_comm u.pending hne,
                    List.modify_modify_ne _ _ _ hc]
              | stream c' => simp [deliver, hTaker, hTaker']
          | stream c =>
              cases o' with
              | call c' => simp [deliver, hTaker, hTaker']
              | stream c' =>
                  have hc : c ≠ c' := fun hSame => hOther (congrArg Owner.stream hSame)
                  simp only [deliver, hTaker, hTaker', List.modify_modify_ne _ _ _ hc]

/-- Two envelopes with different ids can be handled in either order. -/
theorem handle_comm (u : Unnumbered M S) {e e' : Envelope}
    (hIds : ∀ id, e.id? = some id → e'.id? ≠ some id)
    (hTakers : ∀ i j o, i ≠ j → u.taker? i = some o → u.taker? j ≠ some o) :
    (u.handle e).handle e' = (u.handle e').handle e := by
  have hne : ∀ {i j}, e.id? = some i → e'.id? = some j → i ≠ j := fun hi hj hSame =>
    hIds _ hi (hSame ▸ hj)
  cases e with
  | response r =>
      cases e' with
      | response r' =>
          have hOther := hne rfl rfl
          exact u.deliver_comm hOther fun o => hTakers r.id r'.id o hOther
      | request r' => exact u.deliver_act r r'.id _
      | streamClose j => exact u.deliver_act r j _
      | bye | opening _ | openingAck _ => rfl
  | request r =>
      cases e' with
      | response r' => exact (u.deliver_act r' r.id _).symm
      | request r' => exact u.act_comm (hne rfl rfl) _ _
      | streamClose j => exact u.act_comm (hne rfl rfl) _ _
      | bye | opening _ | openingAck _ => rfl
  | streamClose i =>
      cases e' with
      | response r' => exact (u.deliver_act r' i _).symm
      | request r' => exact u.act_comm (hne rfl rfl) _ _
      | streamClose j => exact u.act_comm (hne rfl rfl) _ _
      | bye | opening _ | openingAck _ => rfl
  | bye | opening _ | openingAck _ => rfl

end Unnumbered

end PeerLink
