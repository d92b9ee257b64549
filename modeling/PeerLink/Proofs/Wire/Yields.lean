import PeerLink.Proofs.Wire.Chunking

/-! What is read from a source, event by event. `yields` has no reader in it: it says which items the bytes
complete, and where the failures of the source stand among them. One step of a reader takes the first of
these items away or leaves them all. -/
namespace PeerLink.Wire

/-- What is read in the end from some events of a source, by a stream that has these bytes of a packet. -/
def yields : Bytes → List SourceEvent → List Item
  | _, [] => []
  | held, .chunk data :: events =>
    (splitItems (held ++ data)).1 ++ yields (splitItems (held ++ data)).2 events
  | held, .failure message :: events => .error (.source message) :: yields held events
  | held, .notReady :: events => yields held events

section Yields

variable {held : Bytes} {events : List SourceEvent}

theorem yields_chunk (held data : Bytes) (events : List SourceEvent) :
    yields held (.chunk data :: events) =
      (splitItems (held ++ data)).1 ++ yields (splitItems (held ++ data)).2 events := rfl

/-- An empty chunk has no effect. -/
theorem yields_empty (h : firstItem? held = none) :
    yields held (.chunk [] :: events) = yields held events := by
  rw [yields_chunk, List.append_nil, splitItems_of_none h, List.nil_append]

/-- What is read stays when more arrives. -/
theorem yields_append (held : Bytes) (events more : List SourceEvent) :
    yields held events <+: yields held (events ++ more) := by
  induction events generalizing held with
  | nil => exact List.nil_prefix
  | cons event events ih =>
      cases event with
      | chunk data => exact (List.prefix_append_right_inj _).mpr (ih _)
      | failure message => exact List.cons_prefix_cons.mpr ⟨rfl, ih held⟩
      | notReady => exact ih held

/-- Apart from the failures of the source, its bytes decide what is read. -/
theorem withoutFailures_yields (h : firstItem? held = none) (events : List SourceEvent) :
    withoutFailures (yields held events) = (splitItems (held ++ sourceBytes events)).1 := by
  induction events generalizing held with
  | nil =>
      rw [sourceBytes, List.flatMap_nil, List.append_nil, splitItems_of_none h]
      rfl
  | cons event events ih =>
      have hBytes : held ++ sourceBytes (event :: events) =
          (held ++ event.bytes) ++ sourceBytes events := by
        rw [sourceBytes, List.flatMap_cons, List.append_assoc]
        rfl
      rw [hBytes]
      cases event with
      | chunk data =>
          have hClean := withoutFailures_completed (held ++ data)
          rw [completed] at hClean
          rw [yields_chunk, withoutFailures_append, hClean, ih (firstItem?_splitItems _)]
          exact (congrArg Prod.fst (splitItems_append (held ++ data) (sourceBytes events))).symm
      | failure message =>
          simp only [SourceEvent.bytes, List.append_nil]
          exact ih h
      | notReady =>
          simp only [SourceEvent.bytes, List.append_nil]
          exact ih h

theorem failures_yields (held : Bytes) (events : List SourceEvent) :
    (yields held events).filterMap sourceFailure? = events.filterMap SourceEvent.failure? := by
  induction events generalizing held with
  | nil => rfl
  | cons event events ih =>
      cases event with
      | chunk data =>
          have hClean := sourceFailures_completed (held ++ data)
          rw [completed] at hClean
          rw [yields_chunk, List.filterMap_append, hClean, ih]
          rfl
      | failure message => exact congrArg (message :: ·) (ih held)
      | notReady => exact ih held

/-- From a source that does not fail its bytes are read. -/
theorem yields_of_quiet (hQuiet : events.filterMap SourceEvent.failure? = []) :
    yields [] events = completed (sourceBytes events) := by
  have hClean := withoutFailures_of_none ((failures_yields [] events).trans hQuiet)
  rw [← hClean, withoutFailures_yields rfl]
  rfl

end Yields

/-- A stream of packets yields just that. -/
theorem PacketStream.run_yields {r : PacketReader} {held : Bytes} (holds : r.Holds held)
    (events : List SourceEvent) : (run ⟨r, []⟩ events).2 = yields held events := by
  induction events generalizing r held with
  | nil => rfl
  | cons event events ih =>
      obtain ⟨r', out, hStep, hHolds, hItems, hFailures⟩ := step_of_holds holds event
      have hRun : (run ⟨r, []⟩ (event :: events)).2 =
          out ++ yields (splitItems (held ++ event.bytes)).2 events := by
        rw [run, hStep, ← ih hHolds]
      have hHeld : (splitItems (held ++ [])).2 = held := by
        rw [List.append_nil, splitItems_of_none holds.firstItem?]
      rw [hRun]
      cases event with
      | chunk data => rw [← withoutFailures_of_none hFailures, hItems, yields_chunk, SourceEvent.bytes]
      | failure message =>
          cases hStep
          simp only [SourceEvent.bytes, hHeld]
          rfl
      | notReady =>
          cases hStep
          simp only [SourceEvent.bytes, hHeld]
          rfl

/-- The reader is fed some bytes. An item that it completes comes first of all that is left to read. -/
theorem PacketStream.feed_yields {s s' : PacketStream} {held data : Bytes} {item? : Option Item}
    (holds : s.reader.Holds held) (h : s.feed data = (s', item?)) :
    ∃ held', s'.reader.Holds held' ∧ ∀ events, yields held (.chunk data :: events) =
      item?.toList ++ yields held' (.chunk s'.buffer :: events) := by
  have hPut := holds.put data
  unfold PacketStream.feed at h
  generalize s.reader.put data = result at hPut h
  cases hPut with
  | @more r first hHolds =>
      cases h
      refine ⟨held ++ data, hHolds, fun events => ?_⟩
      rw [yields_empty first, yields_chunk, splitItems_of_none first]
      rfl
  | @complete item rest first =>
      cases h
      refine ⟨[], PacketReader.holds_new, fun events => ?_⟩
      rw [yields_chunk, splitItems_of_some first, yields_chunk]
      rfl

/-- A stream that is fed some bytes takes at least one of them. -/
theorem PacketStream.feed_shorter {s s' : PacketStream} {held data : Bytes} {item? : Option Item}
    (holds : s.reader.Holds held) (h : s.feed data = (s', item?)) :
    s'.buffer.length ≤ data.length - 1 := by
  have hShorter := holds.put_shorter data
  cases h
  exact hShorter

end PeerLink.Wire
