import Mathlib.Data.List.TakeWhile
import PeerLink.Proofs.Wire.Chunking
import PeerLink.Wire.ByteReader

/-! What becomes of the bytes of a reader. However much it returns at a time, its bytes up to the first empty
read come out in chunks that are neither empty nor longer than the buffer, and its failures stand where they
were (`chunks_eq`). The buffer is filled again and again, in its front only, and nothing of an earlier read
gets into a later chunk (`chunksThrough_eq`). -/
namespace PeerLink.Wire

/-- A read of no bytes, which ends the source. -/
def SourceEvent.isEmptyRead : SourceEvent → Bool
  | .chunk data => data.isEmpty
  | _ => false

/-- What happens before the first empty read. -/
def beforeEnd (events : List SourceEvent) : List SourceEvent :=
  events.takeWhile fun event => !event.isEmptyRead

/-- Some bytes in pieces of the size of the buffer, and a last one for the rest. -/
def cut (data : Bytes) : List Bytes :=
  if _h : data = [] then [] else data.take readSize :: cut (data.drop readSize)
termination_by data.length
decreasing_by
  have := List.length_pos_iff.mpr _h
  simp only [List.length_drop, readSize]
  omega

/-- What comes of one event of the reader. -/
def SourceEvent.reads : SourceEvent → List (Except String Bytes)
  | .chunk data => (cut data).map .ok
  | .failure message => [.error message]
  | .notReady => []

/-- What a stream of packets gets to see of a chunk or a failure. -/
def SourceEvent.ofRead : Except String Bytes → SourceEvent
  | .ok data => .chunk data
  | .error message => .failure message

theorem cut_nil : cut [] = [] := by
  rw [cut, dif_pos rfl]

theorem cut_of_ne {data : Bytes} (h : data ≠ []) :
    cut data = data.take readSize :: cut (data.drop readSize) := by
  rw [cut, dif_neg h]

theorem flatten_cut (data : Bytes) : (cut data).flatten = data := by
  induction data using cut.induct with
  | case1 => rw [cut_nil, List.flatten_nil]
  | case2 data h ih => rw [cut_of_ne h, List.flatten_cons, ih, List.take_append_drop]

theorem length_of_mem_cut {data piece : Bytes} (h : piece ∈ cut data) :
    piece ≠ [] ∧ piece.length ≤ readSize := by
  induction data using cut.induct with
  | case1 =>
      rw [cut_nil] at h
      cases h
  | case2 data hSome ih =>
      rw [cut_of_ne hSome] at h
      rcases List.mem_cons.mp h with rfl | h
      · refine ⟨?_, List.length_take_le _ _⟩
        rw [ne_eq, List.take_eq_nil_iff, not_or]
        exact ⟨by decide, hSome⟩
      · exact ih h

/-! ### Chunks -/

section Chunks

variable {events : List SourceEvent}

theorem beforeEnd_cons {event : SourceEvent} (h : event.isEmptyRead = false)
    (events : List SourceEvent) : beforeEnd (event :: events) = event :: beforeEnd events :=
  List.takeWhile_cons_of_pos (by rw [h]; rfl)

theorem isEmptyRead_chunk {data : Bytes} (h : data ≠ []) :
    (SourceEvent.chunk data).isEmptyRead = false :=
  List.isEmpty_eq_false_iff.mpr h

theorem chunksFrom_eq {fuel : Nat} (h : readsNeeded events ≤ fuel) :
    chunksFrom fuel events = (beforeEnd events).flatMap SourceEvent.reads := by
  induction fuel generalizing events with
  | zero =>
      cases events with
      | nil => rfl
      | cons event events => cases event <;> simp only [readsNeeded] at h <;> omega
  | succ fuel ih =>
      match events with
      | [] => rfl
      | .notReady :: events =>
          rw [beforeEnd_cons rfl, List.flatMap_cons, ← ih (by simp only [readsNeeded] at h; omega)]
          rfl
      | .failure message :: events =>
          rw [beforeEnd_cons rfl, List.flatMap_cons, ← ih (by simp only [readsNeeded] at h; omega)]
          rfl
      | .chunk data :: events =>
          rw [chunksFrom]
          by_cases hEmpty : data = []
          · rw [hEmpty]
            rfl
          · have hLength := List.length_pos_iff.mpr hEmpty
            simp only [readsNeeded] at h
            rw [if_neg (by simpa using hEmpty), beforeEnd_cons (isEmptyRead_chunk hEmpty),
              List.flatMap_cons, SourceEvent.reads, cut_of_ne hEmpty, List.map_cons, List.cons_append]
            refine congrArg _ ?_
            by_cases hRest : data.drop readSize = []
            · rw [hRest, cut_nil, List.map_nil, List.nil_append]
              exact ih (show readsNeeded events ≤ fuel by omega)
            · -- The rest of the event is there for the next read.
              have hNeeded : readsNeeded (.chunk (data.drop readSize) :: events) ≤ fuel := by
                simp only [readsNeeded, List.length_drop, readSize]
                omega
              rw [if_neg (by simpa using hRest), ih hNeeded, beforeEnd_cons (isEmptyRead_chunk hRest),
                List.flatMap_cons, SourceEvent.reads]

/-- The chunks and failures, event by event. -/
theorem chunks_eq (events : List SourceEvent) :
    chunks events = (beforeEnd events).flatMap SourceEvent.reads :=
  chunksFrom_eq (Nat.le_refl _)

theorem beforeEnd_of_append {before after : List SourceEvent} (h : beforeEnd events = before ++ after) :
    beforeEnd before = before ∧ beforeEnd after = after := by
  have hLive : ∀ event ∈ before ++ after, (!event.isEmptyRead) = true := by
    rw [← h]
    exact fun _ => List.mem_takeWhile_imp (p := fun event : SourceEvent => !event.isEmptyRead)
  exact ⟨List.takeWhile_eq_self_iff.mpr fun event hEvent => hLive event (List.mem_append_left _ hEvent),
    List.takeWhile_eq_self_iff.mpr fun event hEvent => hLive event (List.mem_append_right _ hEvent)⟩

/-- A failure stands where it was, and reading goes on behind it. -/
theorem chunks_of_failure {before after : List SourceEvent} {message : String}
    (h : beforeEnd events = before ++ .failure message :: after) :
    chunks events = chunks before ++ .error message :: chunks after := by
  obtain ⟨hBefore, hAfter⟩ := beforeEnd_of_append h
  rw [beforeEnd_cons rfl] at hAfter
  rw [chunks_eq, h, chunks_eq, hBefore, chunks_eq, List.tail_eq_of_cons_eq hAfter,
    List.flatMap_append, List.flatMap_cons]
  rfl

theorem bytes_reads (event : SourceEvent) :
    sourceBytes (event.reads.map SourceEvent.ofRead) = event.bytes := by
  cases event with
  | chunk data =>
      rw [SourceEvent.reads, List.map_map, sourceBytes, List.flatMap_map]
      exact List.flatMap_id.trans (flatten_cut data)
  | failure message => rfl
  | notReady => rfl

theorem failures_reads (event : SourceEvent) :
    (event.reads.map SourceEvent.ofRead).filterMap SourceEvent.failure? = event.failure?.toList := by
  cases event with
  | chunk data =>
      refine List.filterMap_eq_nil_iff.mpr fun event hEvent => ?_
      simp only [SourceEvent.reads, List.map_map, List.mem_map, Function.comp_apply] at hEvent
      obtain ⟨piece, -, rfl⟩ := hEvent
      rfl
  | failure message => rfl
  | notReady => rfl

/-- The chunks are the bytes before the end, in order. -/
theorem sourceBytes_chunks_ofRead (events : List SourceEvent) :
    sourceBytes ((chunks events).map SourceEvent.ofRead) = sourceBytes (beforeEnd events) := by
  rw [chunks_eq]
  generalize beforeEnd events = live
  induction live with
  | nil => rfl
  | cons event live ih =>
      have hFirst := bytes_reads event
      simp only [sourceBytes, List.flatMap_cons, List.map_append, List.flatMap_append] at hFirst ih ⊢
      rw [hFirst, ih]

theorem failures_chunks_ofRead (events : List SourceEvent) :
    ((chunks events).map SourceEvent.ofRead).filterMap SourceEvent.failure? =
      (beforeEnd events).filterMap SourceEvent.failure? := by
  rw [chunks_eq]
  generalize beforeEnd events = live
  induction live with
  | nil => rfl
  | cons event live ih =>
      rw [List.flatMap_cons, List.map_append, List.filterMap_append, failures_reads, ih]
      cases hFailure : event.failure? <;> simp [hFailure]

end Chunks

/-! ### One buffer for all reads -/

/-- The buffer after a read: its front is overwritten, the rest stays as it was. -/
def overwrite (buffer data : Bytes) : Bytes :=
  data ++ buffer.drop data.length

/-- As `chunksFrom`, with the buffer that all reads share. A read gets as many bytes as there are and as the
buffer has room for, and what is then in that part of the buffer is the chunk. -/
def chunksThrough (fuel : Nat) (buffer : Bytes) (events : List SourceEvent) :
    List (Except String Bytes) :=
  match fuel, events with
  | 0, _ => []
  | _, [] => []
  | fuel + 1, .notReady :: events => chunksThrough fuel buffer events
  | fuel + 1, .failure message :: events => .error message :: chunksThrough fuel buffer events
  | fuel + 1, .chunk data :: events =>
    let size := min data.length buffer.length
    let buffer := overwrite buffer (data.take size)
    if size = 0 then []
    else
      let rest := data.drop size
      .ok (buffer.take size) ::
        chunksThrough fuel buffer (if rest.isEmpty then events else .chunk rest :: events)

theorem length_overwrite {buffer data : Bytes} (h : data.length ≤ buffer.length) :
    (overwrite buffer data).length = buffer.length := by
  rw [overwrite, List.length_append, List.length_drop]
  omega

/-- Of the bytes that were in the buffer before, none gets into a chunk. -/
theorem chunksThrough_eq {fuel : Nat} {buffer : Bytes} (h : buffer.length = readSize)
    (events : List SourceEvent) : chunksThrough fuel buffer events = chunksFrom fuel events := by
  induction fuel generalizing buffer events with
  | zero => cases events <;> rfl
  | succ fuel ih =>
      match events with
      | [] => rfl
      | .notReady :: events => exact ih h events
      | .failure message :: events => exact congrArg (.error message :: ·) (ih h events)
      | .chunk data :: events =>
          have hTake : data.take (min data.length buffer.length) = data.take readSize := by
            rw [h, Nat.min_comm, ← List.take_eq_take_min]
          have hDrop : data.drop (min data.length buffer.length) = data.drop readSize := by
            rw [h, Nat.min_comm, ← List.drop_eq_drop_min]
          have hSize : (data.take readSize).length = min data.length buffer.length := by
            rw [List.length_take, h, Nat.min_comm]
          have hFront : (overwrite buffer (data.take readSize)).take (min data.length buffer.length) =
              data.take readSize := by
            rw [overwrite, ← hSize, List.take_left]
          have hBuffer : (overwrite buffer (data.take readSize)).length = readSize := by
            rw [length_overwrite (by rw [hSize]; exact Nat.min_le_right _ _), h]
          rw [chunksThrough, chunksFrom]
          simp only [hTake, hDrop, hFront, ih hBuffer]
          refine if_congr ?_ rfl rfl
          rw [← hSize, List.length_eq_zero_iff, List.take_eq_nil_iff, List.isEmpty_iff]
          exact or_iff_right (by decide)

/-! ### Packets from a reader -/

/-- The events of a source without the times at which it was not ready. -/
def ready (events : List SourceEvent) : List SourceEvent :=
  events.filter (· ≠ .notReady)

theorem sourceBytes_ready (events : List SourceEvent) :
    sourceBytes (ready events) = sourceBytes events := by
  induction events with
  | nil => rfl
  | cons event events ih =>
      cases event with
      | notReady => exact ih
      | chunk data => exact congrArg (data ++ ·) ih
      | failure message => exact ih

theorem failures_ready (events : List SourceEvent) :
    (ready events).filterMap SourceEvent.failure? = events.filterMap SourceEvent.failure? := by
  induction events with
  | nil => rfl
  | cons event events ih =>
      cases event with
      | notReady => exact ih
      | chunk data => exact ih
      | failure message => exact congrArg (message :: ·) ih

theorem split_of_ready {events before after : List SourceEvent} {message : String}
    (h : ready events = before ++ .failure message :: after) :
    ∃ before' after', events = before' ++ .failure message :: after' ∧ ready before' = before := by
  obtain ⟨first, last, rfl, hFirst, hLast⟩ := List.filter_eq_append_iff.mp h
  obtain ⟨between, after', rfl, hBetween, -, -⟩ := List.filter_eq_cons_iff.mp hLast
  refine ⟨first ++ between, after', (List.append_assoc ..).symm, ?_⟩
  rw [ready, List.filter_append, hFirst, List.filter_eq_nil_iff.mpr hBetween, List.append_nil]

/-- A reader, whatever it returns and when. Its chunks are not empty and have at most `readSize` bytes; together
they are the bytes read before the first empty read. Each failure comes once, between the chunks of the bytes
before it and those of the bytes behind it. One buffer for all reads yields the same. A stream of packets over
these chunks, with a source that is not ready at any times, yields the items of all these bytes in one chunk,
and each failure once, behind the items that the bytes before it complete. -/
theorem reads_in_any_pieces (events : List SourceEvent) :
    (∀ data, .ok data ∈ chunks events → data ≠ [] ∧ data.length ≤ readSize) ∧
    sourceBytes ((chunks events).map .ofRead) = sourceBytes (beforeEnd events) ∧
    ((chunks events).map .ofRead).filterMap SourceEvent.failure? =
      (beforeEnd events).filterMap SourceEvent.failure? ∧
    (∀ before after message, beforeEnd events = before ++ .failure message :: after →
      chunks events = chunks before ++ .error message :: chunks after ∧
        sourceBytes ((chunks before).map .ofRead) = sourceBytes before) ∧
    chunksThrough (readsNeeded events) (List.replicate readSize 0) events = chunks events ∧
    ∀ polled : List SourceEvent, ready polled = (chunks events).map .ofRead →
      withoutFailures (PacketStream.new.items polled) =
        PacketStream.new.items [.chunk (sourceBytes (beforeEnd events))] ∧
      (PacketStream.new.items polled).filterMap sourceFailure? =
        (beforeEnd events).filterMap SourceEvent.failure? ∧
      ∀ before after message, beforeEnd events = before ++ .failure message :: after →
        ∃ out rest, PacketStream.new.items polled = out ++ .error (.source message) :: rest ∧
          withoutFailures out = completed (sourceBytes before) ∧
          out.filterMap sourceFailure? = before.filterMap SourceEvent.failure? := by
  have hBytes := sourceBytes_chunks_ofRead events
  have hFailures := failures_chunks_ofRead events
  refine ⟨fun data hData => ?_, hBytes, hFailures, fun before after message hSplit => ?_,
    chunksThrough_eq List.length_replicate events, fun polled hPolled => ?_⟩
  · rw [chunks_eq, List.mem_flatMap] at hData
    obtain ⟨event, -, hData⟩ := hData
    cases event with
    | chunk read =>
        obtain ⟨piece, hPiece, hSame⟩ := List.mem_map.mp hData
        cases hSame
        exact length_of_mem_cut hPiece
    | failure message => cases List.mem_singleton.mp hData
    | notReady => cases hData
  · refine ⟨chunks_of_failure hSplit, ?_⟩
    rw [sourceBytes_chunks_ofRead, (beforeEnd_of_append hSplit).1]
  · obtain ⟨hItems, hSources, hPlaces⟩ := PacketStream.items_of_chunks
    have hPolledBytes := (sourceBytes_ready polled).symm.trans (hPolled ▸ hBytes)
    have hPolledFailures := (failures_ready polled).symm.trans (hPolled ▸ hFailures)
    refine ⟨?_, (hSources polled).trans hPolledFailures, fun before after message hSplit => ?_⟩
    · rw [hItems polled, hPolledBytes, PacketStream.items_of_quiet rfl]
      simp [sourceBytes, SourceEvent.bytes]
    · rw [chunks_of_failure hSplit, List.map_append, List.map_cons] at hPolled
      obtain ⟨before', after', rfl, hBefore⟩ := split_of_ready hPolled
      obtain ⟨out, rest, hOut, hCompleted, hEarlier⟩ := hPlaces before' after' message
      have hFront := (beforeEnd_of_append hSplit).1
      refine ⟨out, rest, hOut, ?_, ?_⟩
      · rw [hCompleted, ← sourceBytes_ready, hBefore, sourceBytes_chunks_ofRead, hFront]
      · rw [hEarlier, ← failures_ready, hBefore, failures_chunks_ofRead, hFront]

/-- A failure inside of a packet, and bytes that are never read. -/
theorem reads_of_broken_bye :
    let events : List SourceEvent :=
      [.chunk [7, 0, 0, 0], .notReady, .failure "lost", .chunk [0, 0, 0, 0, 0, 7], .chunk [], .chunk [1]]
    let polled : List SourceEvent :=
      [.notReady, .chunk [7, 0, 0, 0], .failure "lost", .notReady, .chunk [0, 0, 0, 0, 0, 7]]
    beforeEnd events = [.chunk [7, 0, 0, 0], .notReady] ++ .failure "lost" :: [.chunk [0, 0, 0, 0, 0, 7]] ∧
      chunks events = chunks [.chunk [7, 0, 0, 0], .notReady] ++
        .error "lost" :: chunks [.chunk [0, 0, 0, 0, 0, 7]] ∧
      ready polled = (chunks events).map .ofRead ∧
      PacketStream.new.items polled =
        [.error (.source "lost"), .ok .bye, .error .unexpectedEnd] ∧
      withoutFailures (PacketStream.new.items polled) =
        PacketStream.new.items [.chunk [7, 0, 0, 0, 0, 0, 0, 0, 0, 7]] := by
  intro events polled
  have hSplit : beforeEnd events =
      [.chunk [7, 0, 0, 0], .notReady] ++ .failure "lost" :: [.chunk [0, 0, 0, 0, 0, 7]] := by decide
  have hReady : ready polled = (chunks events).map .ofRead := by decide
  obtain ⟨-, -, -, hPlaces, -, hItems⟩ := reads_in_any_pieces events
  exact ⟨hSplit, (hPlaces _ _ _ hSplit).1, hReady, by decide +kernel, (hItems polled hReady).1⟩

end PeerLink.Wire
