import Mathlib.Data.List.Basic
import PeerLink.Echo.Server
import PeerLink.Proofs.Message
import PeerLink.Proofs.Wire.RoundTrip

/-! What clients ask of the echo server, and what it should answer. Every id is used for one call or for one
stream. A call is answered by the message itself; a stream is answered by a mark of readiness, then by its
messages, and when the client has closed it by a close. -/
namespace PeerLink.EchoServer

/-- A payload that can be read as an echo message. -/
structure EchoMessage where
  payload : Payload
  text : String
  reads : Message.decode .echo payload = .ok (.echo text)

namespace EchoMessage

/-- The message in compact form. -/
def reply (m : EchoMessage) : Payload :=
  .ofValue (Text.Utf8.encode ("\x7b\"data\":" ++ Json.quote m.text ++ "\x7d"))

theorem encode_text (m : EchoMessage) : Message.encode (.echo m.text) = .ok m.reply := rfl

/-- The message with this text, in compact form. -/
def ofText (text : String) : EchoMessage where
  payload := .ofValue (Text.Utf8.encode ("\x7b\"data\":" ++ Json.quote text ++ "\x7d"))
  text := text
  reads := Message.decode_encode_echo text rfl

end EchoMessage

/-- What a client can ask for with an id. -/
inductive Ask where
  | call (m : EchoMessage)
  /-- A message on a stream; the first one opens the stream. -/
  | message (m : EchoMessage)
  /-- No more messages will come on the stream. -/
  | close

namespace Ask

def envelope (id : Int32) : Ask → Envelope
  | .call m => .request { id, method := "Echo.Call", payload := m.payload, isStream := false }
  | .message m => .request { id, method := "Echo.Stream", payload := m.payload, isStream := true }
  | .close => .streamClose id

/-- The message that is sent on a stream. -/
def message? : Ask → Option EchoMessage
  | .message m => some m
  | _ => none

def reply : Ask → Content
  | .call m => .payload m.reply
  | .message m => .payload m.reply
  | .close => .close true

end Ask

/-- An ask with its id, in the form in which it is sent. -/
def envelopeOf (r : Int32 × Ask) : Envelope :=
  r.2.envelope r.1

/-- What was asked for with an id, in order. -/
def asksOf (requests : List (Int32 × Ask)) (id : Int32) : List Ask :=
  requests.filterMap fun r => if r.1 = id then some r.2 else none

/-- What the server should answer with an id. -/
def replies : List Ask → List Content
  | .message m :: rest => .ready true :: (Ask.message m :: rest).map Ask.reply
  | asks => asks.map Ask.reply

/-- The messages of a stream, and a close behind them if the stream was closed. -/
def streamAsks (messages : List EchoMessage) (closed : Bool) : List Ask :=
  messages.map .message ++ if closed then [.close] else []

/-- How an id may be used: for one call, or for one stream that has at least one message. Nothing comes
after the close of a stream. -/
inductive Proper : List Ask → Prop where
  | unused : Proper []
  | call (m : EchoMessage) : Proper [.call m]
  | stream (messages : List EchoMessage) (closed : Bool) (some : messages ≠ []) :
      Proper (streamAsks messages closed)

/-- Every id is used for one call or for one stream. -/
def Disciplined (requests : List (Int32 × Ask)) : Prop :=
  ∀ id, Proper (asksOf requests id)

variable {requests : List (Int32 × Ask)} {id : Int32} {ask : Ask} {asks : List Ask}

/-! ### Asks one after another -/

theorem asksOf_append (requests more : List (Int32 × Ask)) (id : Int32) :
    asksOf (requests ++ more) id = asksOf requests id ++ asksOf more id :=
  List.filterMap_append

theorem asksOf_concat_self : asksOf (requests ++ [(id, ask)]) id = asksOf requests id ++ [ask] := by
  rw [asksOf_append]
  simp [asksOf]

theorem asksOf_concat_other {other : Int32} (h : other ≠ id) :
    asksOf (requests ++ [(id, ask)]) other = asksOf requests other := by
  rw [asksOf_append]
  simp [asksOf, Ne.symm h]

theorem streamAsks_concat (messages : List EchoMessage) (m : EchoMessage) :
    streamAsks (messages ++ [m]) false = streamAsks messages false ++ [.message m] := by
  simp [streamAsks]

theorem streamAsks_close (messages : List EchoMessage) :
    streamAsks messages true = streamAsks messages false ++ [.close] := by
  simp [streamAsks]

theorem replies_streamAsks {messages : List EchoMessage} (h : messages ≠ []) (closed : Bool) :
    replies (streamAsks messages closed) =
      .ready true :: messages.map (fun m => .payload m.reply) ++ if closed then [.close true] else [] := by
  obtain ⟨m, more, rfl⟩ := List.exists_cons_of_ne_nil h
  cases closed with
  | false => simp [streamAsks, replies, Ask.reply]
  | true => simp [streamAsks, replies, Ask.reply]

theorem call_notMem_streamAsks (m : EchoMessage) (messages : List EchoMessage) (closed : Bool) :
    Ask.call m ∉ streamAsks messages closed := by
  cases closed with
  | false => simp [streamAsks]
  | true => simp [streamAsks]

/-- The asks of a stream tell its messages, and whether it was closed. -/
theorem streamAsks_inj {messages messages' : List EchoMessage} {closed closed' : Bool}
    (h : streamAsks messages closed = streamAsks messages' closed') :
    messages = messages' ∧ closed = closed' := by
  have hMessages : messages = messages' := by
    have hRead : ∀ (messages : List EchoMessage) (closed : Bool),
        (streamAsks messages closed).filterMap Ask.message? = messages := by
      intro messages closed
      have hMap : (messages.map Ask.message).filterMap Ask.message? = messages := by
        rw [List.filterMap_map]
        exact List.filterMap_some
      rw [streamAsks, List.filterMap_append, hMap]
      cases closed <;> exact List.append_nil messages
    rw [← hRead messages closed, h, hRead messages' closed']
  have hClosed : ∀ (messages : List EchoMessage) (closed : Bool),
      (Ask.close ∈ streamAsks messages closed ↔ closed = true) := by
    intro messages closed
    cases closed <;> simp [streamAsks]
  refine ⟨hMessages, Bool.eq_iff_iff.mpr ?_⟩
  rw [← hClosed messages closed, h, hClosed messages' closed']

/-- Whoever asks for more gets more, and what was answered stays. -/
theorem replies_mono {asks asks' : List Ask} (h : asks <+: asks') : replies asks <+: replies asks' := by
  obtain ⟨rest, rfl⟩ := h
  cases asks with
  | nil => exact List.nil_prefix
  | cons ask more =>
      have hMap : (ask :: more).map Ask.reply <+: (ask :: more ++ rest).map Ask.reply := by
        rw [List.map_append]
        exact List.prefix_append _ _
      cases ask with
      | call _ => exact hMap
      | message _ => exact (List.prefix_cons_inj _).mpr hMap
      | close => exact hMap

/-- One more ask with an id is the only call, or it belongs to a stream that goes on. -/
theorem proper_concat (h : Proper (asks ++ [ask])) :
    (asks = [] ∧ ∃ m, ask = .call m) ∨ ∃ messages, asks = streamAsks messages false ∧
      ((∃ m, ask = .message m) ∨ messages ≠ [] ∧ ask = .close) := by
  generalize hAll : asks ++ [ask] = all at h
  cases h with
  | unused => simp at hAll
  | call m =>
      obtain ⟨rfl, hLast⟩ := List.append_inj' (hAll.trans (List.nil_append _).symm) rfl
      exact .inl ⟨rfl, m, List.singleton_inj.mp hLast⟩
  | stream messages closed hSome =>
      cases closed with
      | true =>
          rw [streamAsks_close] at hAll
          obtain ⟨rfl, hLast⟩ := List.append_inj' hAll rfl
          exact .inr ⟨messages, rfl, .inr ⟨hSome, List.singleton_inj.mp hLast⟩⟩
      | false =>
          obtain ⟨first, m, rfl⟩ := (List.eq_nil_or_concat messages).resolve_left hSome
          rw [List.concat_eq_append, streamAsks_concat] at hAll
          obtain ⟨rfl, hLast⟩ := List.append_inj' hAll rfl
          exact .inr ⟨first, rfl, .inl ⟨m, List.singleton_inj.mp hLast⟩⟩

theorem Proper.before (h : Proper (asks ++ [ask])) : Proper asks := by
  obtain ⟨rfl, _⟩ | ⟨messages, rfl, _⟩ := proper_concat h
  · exact .unused
  · by_cases hSome : messages = []
    · rw [hSome]
      exact .unused
    · exact .stream messages false hSome

/-- Whoever asks for less keeps the discipline. -/
theorem Disciplined.before {more : List (Int32 × Ask)} (h : Disciplined (requests ++ more)) :
    Disciplined requests := by
  have hPrefix : ∀ (asks rest : List Ask), Proper (asks ++ rest) → Proper asks := by
    intro asks rest hProper
    induction rest using List.reverseRecOn with
    | nil => rwa [List.append_nil] at hProper
    | append_singleton rest ask ih =>
        rw [← List.append_assoc] at hProper
        exact ih hProper.before
  intro id
  have hProper := h id
  rw [asksOf_append] at hProper
  exact hPrefix _ _ hProper

end PeerLink.EchoServer
