import PeerLink.HandlerError
import PeerLink.Proofs.RemoteError

/-! What the remote peer gets to see of a failure. A failure is a root with notes around it; the peer sees
the outermost error among them, and if there is none, everything that was said. Whatever it sees has a
name and a message. -/
namespace PeerLink

/-- The error has a name and a message. -/
def RemoteError.IsComplete (e : RemoteError) : Prop :=
  e.name ≠ "" ∧ e.message ≠ ""

theorem RemoteError.new_isComplete (name message : String) : (new name message).IsComplete :=
  ⟨new_name_ne name message, new_message_ne name message⟩

namespace Failure

/-- The failure that starts from a root and gets one note after the other. -/
def build (root : Root) (notes : List Note) : Failure :=
  notes.foldl note (.ofRoot root)

theorem build_eq (root : Root) (notes : List Note) : build root notes = ⟨root, notes⟩ := by
  have hFold : ∀ f : Failure, notes.foldl note f = ⟨f.root, f.notes ++ notes⟩ := by
    intro f
    induction notes generalizing f with
    | nil => simp
    | cons n rest ih => simp [ih, note]
  exact hFold (.ofRoot root)

/-- An error among the notes is seen if only texts stand around it. -/
theorem error?_of_note (root : Root) (inner : List Note) (e : RemoteError) {outer : List Note}
    (hOuter : ∀ n ∈ outer, n.error? = none) :
    (⟨root, inner ++ .error e :: outer⟩ : Failure).error? = some e := by
  have hFirst : outer.reverse.findSome? Note.error? = none := by
    simpa [List.findSome?_eq_none_iff] using hOuter
  have hFound : (inner ++ .error e :: outer).reverse.findSome? Note.error? = some e := by
    rw [List.reverse_append, List.reverse_cons, List.append_assoc, List.findSome?_append, hFirst]
    rfl
  rw [error?, hFound]

/-- Behind texts, the root decides. -/
theorem error?_of_texts (root : Root) {notes : List Note} (hNotes : ∀ n ∈ notes, n.error? = none) :
    (⟨root, notes⟩ : Failure).error? = root.error? := by
  have hNone : notes.reverse.findSome? Note.error? = none := by
    simpa [List.findSome?_eq_none_iff] using hNotes
  simp [error?, hNone]

theorem toRemote_isComplete (f : Failure) : f.toRemote.IsComplete := by
  unfold toRemote
  split
  · exact RemoteError.new_isComplete _ _
  · exact RemoteError.new_isComplete _ _

theorem error?_of_text {notes : List Note} (h : ∀ n ∈ notes, ∃ s, n = Note.text s) :
    ∀ n ∈ notes, n.error? = none := by
  intro n hn
  obtain ⟨s, rfl⟩ := h n hn
  rfl

/-- What is seen of a failure, told by the way in which it came about. -/
structure Seen (root : Root) (notes : List Note) (seen : RemoteError) : Prop where
  /-- The outermost error among the notes counts, whatever stands inside of it. -/
  fromNote : ∀ inner e outer, notes = inner ++ .error e :: outer →
    (∀ n ∈ outer, ∃ s, n = .text s) → seen = .new e.name e.message
  /-- Behind texts, the root counts if it is an error itself. -/
  fromRoot : ∀ e, root = .error e → (∀ n ∈ notes, ∃ s, n = .text s) →
    seen = .new e.name e.message
  /-- If nothing is an error, all messages count, outermost first. -/
  fromTexts : ∀ text, text = ": ".intercalate (notes.reverse.map Note.message ++ root.messages) →
    (∀ e, root ≠ .error e) → (∀ n ∈ notes, ∃ s, n = .text s) →
      seen = ⟨"HandlerFailed", if text = "" then "unknown error" else text⟩

theorem seen_toRemote (root : Root) (notes : List Note) :
    Seen root notes (build root notes).toRemote where
  fromNote inner e outer hNotes hOuter := by
    rw [build_eq, hNotes, toRemote, error?_of_note root inner e (error?_of_text hOuter)]
    rfl
  fromRoot e hRoot hNotes := by
    rw [build_eq, toRemote, error?_of_texts root (error?_of_text hNotes), hRoot]
    rfl
  fromTexts text hText hRoot hNotes := by
    have hNone : root.error? = none := by
      cases root with
      | error e => exact absurd rfl (hRoot e)
      | _ => rfl
    have hChain : (⟨root, notes⟩ : Failure).chain =
        notes.reverse.map Note.message ++ root.messages := rfl
    rw [build_eq, toRemote, error?_of_texts root (error?_of_text hNotes), hNone, hChain, ← hText]
    simp [RemoteError.new, RemoteError.handlerFailedName]

/-- An error inside a stream error is not seen as such. -/
example : (build (.stream (.remote ⟨"Lost", "gone"⟩)) [.text "outside"]).toRemote =
    ⟨"HandlerFailed", "outside: Remote peer returned error Lost: gone"⟩ := by
  decide

end Failure

theorem HandlerError.toRemote_isComplete (e : HandlerError) : e.toRemote.IsComplete := by
  cases e with
  | failed f => exact f.toRemote_isComplete
  | responseEncoding cause => exact RemoteError.new_isComplete _ _

/-- A response that cannot be encoded is seen under a name of its own. -/
theorem HandlerError.toRemote_responseEncoding (cause : CodecError) :
    (HandlerError.responseEncoding cause).toRemote = ⟨"ResponseMarshallingFailed",
      if cause.message = "" then "unknown error" else cause.message⟩ := by
  simp [toRemote, RemoteError.new, RemoteError.responseEncodingName]

end PeerLink
