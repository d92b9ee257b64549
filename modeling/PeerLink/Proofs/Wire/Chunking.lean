import PeerLink.Proofs.Wire.Decoding

/-! Packets from bytes that arrive in pieces. Between two events of the source a stream holds exactly the
bytes that complete no item yet, be they part of a header or of a body. How the bytes were cut, where the
source failed and when it was not ready leaves no trace in that, so it leaves none in the items. -/
namespace PeerLink.Wire

namespace ReadBuffer

/-- The buffer wants `size` bytes and has got the first of them, but not all. -/
structure Holds (b : ReadBuffer) (size : Nat) (held : Bytes) : Prop where
  wants : b.size = size
  bytes : b.bytes = held
  count : b.count = held.length
  short : held.length < size

theorem holds_new {size : Nat} (h : 0 < size) : (ReadBuffer.new size).Holds size [] :=
  ⟨rfl, rfl, rfl, h⟩

variable {b : ReadBuffer} {size : Nat} {held : Bytes}

/-- Too few bytes are all taken in. -/
theorem Holds.put_short (h : b.Holds size held) {data : Bytes}
    (hShort : (held ++ data).length < size) :
    ∃ b', b.put data = (b', [], none) ∧ b'.Holds size (held ++ data) := by
  obtain ⟨rfl, rfl, hCount, hHeld⟩ := h
  rw [List.length_append] at hShort
  have hTake : data.take b.need = data :=
    List.take_of_length_le (by unfold need; omega)
  have hDrop : data.drop b.need = [] :=
    List.drop_eq_nil_of_le (by unfold need; omega)
  refine ⟨⟨b.size, b.count + data.length, data.reverseAux b.reversed⟩, ?_, rfl, ?_, ?_, ?_⟩
  · unfold put
    rw [hTake, hDrop]
    exact if_neg (by simp only; omega)
  · simp [ReadBuffer.bytes, List.reverseAux_eq]
  · rw [List.length_append, hCount]
  · rw [List.length_append]
    exact hShort

/-- Enough bytes fill the buffer, which takes just what it wants. -/
theorem Holds.put_full (h : b.Holds size held) {data : Bytes}
    (hFull : size ≤ (held ++ data).length) :
    b.put data = (.new 0, (held ++ data).drop size, some ((held ++ data).take size)) := by
  obtain ⟨rfl, rfl, hCount, hHeld⟩ := h
  rw [List.length_append] at hFull
  have hNeed : b.need = b.size - b.bytes.length := by rw [need, hCount]
  have hRest : (b.bytes ++ data).drop b.size = data.drop b.need := by
    rw [List.drop_append, List.drop_eq_nil_of_le (Nat.le_of_lt hHeld), List.nil_append, hNeed]
  have hTaken : (b.bytes ++ data).take b.size = b.bytes ++ data.take b.need := by
    rw [List.take_append, List.take_of_length_le (Nat.le_of_lt hHeld), hNeed]
  have hLength : b.count + (data.take b.need).length = b.size := by
    rw [List.length_take, hNeed]
    omega
  unfold put
  rw [hRest, hTaken]
  exact (if_pos hLength).trans (by simp [ReadBuffer.bytes, List.reverseAux_eq])

theorem put_rest (b : ReadBuffer) (data : Bytes) : (b.put data).2.1 = data.drop b.need := by
  unfold put
  dsimp only
  split <;> rfl

theorem Holds.need_pos (h : b.Holds size held) : 0 < b.need := by
  rw [need, h.wants, h.count]
  exact Nat.sub_pos_of_lt h.short

end ReadBuffer

namespace PacketReader

/-- The reader holds exactly these bytes of the packet that comes next: a part of the header, or the
header and a part of the body. -/
inductive Holds : PacketReader → Bytes → Prop where
  | header {buffer : ReadBuffer} {held : Bytes} (holds : buffer.Holds Header.size held) :
      Holds (.header buffer) held
  | body {h : Header} {buffer : ReadBuffer} {front held : Bytes}
      (length : front.length = Header.size) (parsed : Header.parse front = .ok h)
      (small : ¬ h.bodyLength.toNat > maxStreamBody)
      (holds : buffer.Holds h.bodyLength.toNat held) :
      Holds (.body h buffer) (front ++ held)

theorem holds_new : new.Holds [] :=
  .header (ReadBuffer.holds_new (by decide))

variable {r : PacketReader} {held data rest front : Bytes} {item : Item}

theorem firstItem?_error {cause : HeaderError} (length : front.length = Header.size)
    (parsed : Header.parse front = .error cause) (data : Bytes) :
    firstItem? (front ++ data) = some (.error (.invalidHeader cause), data) := by
  have hDrop : (front ++ data).drop Header.size = data := by
    rw [← length, List.drop_left]
  have hTake : (front ++ data).take Header.size = front := by
    rw [← length, List.take_left]
  rw [firstItem?, if_neg (by rw [List.length_append]; omega), hTake, hDrop, parsed]

/-- What comes first behind a header that can be read. -/
theorem firstItem?_ok {h : Header} (length : front.length = Header.size)
    (parsed : Header.parse front = .ok h) (data : Bytes) : firstItem? (front ++ data) =
      if h.bodyLength.toNat > maxStreamBody then some (.error (.bodyTooLarge h.bodyLength), data)
      else if data.length < h.bodyLength.toNat then none
      else some (PacketReader.item h (data.take h.bodyLength.toNat), data.drop h.bodyLength.toNat) := by
  have hDrop : (front ++ data).drop Header.size = data := by
    rw [← length, List.drop_left]
  have hTake : (front ++ data).take Header.size = front := by
    rw [← length, List.take_left]
  rw [firstItem?, if_neg (by rw [List.length_append]; omega), hTake, hDrop, parsed]
  rfl

/-- What a reader makes of the bytes that it held and those that it is given, all taken together: it
holds them all, or it completes the first item and leaves the rest. -/
inductive Put (all : Bytes) : PacketReader × Bytes × Option Item → Prop where
  | more {r : PacketReader} (first : firstItem? all = none) (holds : r.Holds all) :
      Put all (r, [], none)
  | complete {item : Item} {rest : Bytes} (first : firstItem? all = some (item, rest)) :
      Put all (.new, rest, some item)

theorem put_putBody {h : Header} {buffer : ReadBuffer} (length : front.length = Header.size)
    (parsed : Header.parse front = .ok h) (small : ¬ h.bodyLength.toNat > maxStreamBody)
    (holds : buffer.Holds h.bodyLength.toNat held) (data : Bytes) :
    Put (front ++ held ++ data) (putBody h buffer data) := by
  have hFirst := firstItem?_ok length parsed (held ++ data)
  rw [if_neg small, ← List.append_assoc] at hFirst
  unfold putBody
  by_cases hShort : (held ++ data).length < h.bodyLength.toNat
  · rw [if_pos hShort] at hFirst
    obtain ⟨buffer', hPut, hHolds⟩ := holds.put_short hShort
    rw [hPut]
    refine .more hFirst ?_
    rw [List.append_assoc]
    exact .body length parsed small hHolds
  · rw [if_neg hShort] at hFirst
    rw [holds.put_full (Nat.le_of_not_lt hShort)]
    exact .complete hFirst

theorem put_putHeader (length : front.length = Header.size) (data : Bytes) :
    Put (front ++ data) (putHeader front data) := by
  unfold putHeader
  cases hParse : Header.parse front with
  | error cause => exact .complete (firstItem?_error length hParse data)
  | ok h =>
      have hFirst := firstItem?_ok length hParse data
      dsimp only
      split
      · next hLarge =>
          rw [if_pos hLarge] at hFirst
          exact .complete hFirst
      · next hSmall =>
          rw [if_neg hSmall] at hFirst
          split
          · next hEmpty =>
              rw [hEmpty] at hFirst
              exact .complete hFirst
          · next hSome =>
              have hPositive : 0 < h.bodyLength.toNat :=
                Nat.pos_of_ne_zero fun hZero => hSome (UInt32.toNat_inj.mp hZero)
              have hPut := put_putBody length hParse hSmall (ReadBuffer.holds_new hPositive) data
              rwa [List.append_nil] at hPut

theorem Holds.put (h : r.Holds held) (data : Bytes) : Put (held ++ data) (r.put data) := by
  cases h with
  | body length parsed small holds => exact put_putBody length parsed small holds data
  | @header buffer held holds =>
      unfold PacketReader.put
      dsimp only
      by_cases hShort : (held ++ data).length < Header.size
      · obtain ⟨buffer', hPut, hHolds⟩ := holds.put_short hShort
        rw [hPut]
        exact .more (by rw [firstItem?, if_pos hShort]) (.header hHolds)
      · have hLong := Nat.le_of_not_lt hShort
        have hLength : ((held ++ data).take Header.size).length = Header.size := by
          rw [List.length_take]
          omega
        rw [holds.put_full hLong]
        have hPut := put_putHeader hLength ((held ++ data).drop Header.size)
        rwa [List.take_append_drop] at hPut

theorem putBody_rest (h : Header) (buffer : ReadBuffer) (data : Bytes) :
    (putBody h buffer data).2.1 = data.drop buffer.need := by
  rw [← buffer.put_rest, putBody]
  obtain ⟨_, rest, _ | bytes⟩ := buffer.put data <;> rfl

theorem putHeader_rest (bytes data : Bytes) : (putHeader bytes data).2.1.length ≤ data.length := by
  unfold putHeader
  split
  · exact Nat.le_refl _
  · next h _ =>
      split
      · exact Nat.le_refl _
      · split
        · exact Nat.le_refl _
        · rw [putBody_rest, List.length_drop]
          exact Nat.sub_le _ _

/-- A reader that is given bytes takes at least one of them. -/
theorem Holds.put_shorter (h : r.Holds held) (data : Bytes) :
    (r.put data).2.1.length ≤ data.length - 1 := by
  have hDrop : ∀ {n}, 0 < n → (data.drop n).length ≤ data.length - 1 := fun hn => by
    rw [List.length_drop]
    exact Nat.sub_le_sub_left hn _
  cases h with
  | body length parsed small holds =>
      rw [PacketReader.put, putBody_rest]
      exact hDrop holds.need_pos
  | @header buffer held holds =>
      have hRest := hDrop holds.need_pos
      rw [← buffer.put_rest] at hRest
      rw [PacketReader.put]
      generalize buffer.put data = result at hRest ⊢
      obtain ⟨_, rest, _ | bytes⟩ := result
      · exact hRest
      · exact Nat.le_trans (putHeader_rest bytes rest) hRest

/-- A reader is empty exactly if it holds nothing. -/
theorem Holds.isEmpty (h : r.Holds held) : r.isEmpty = held.isEmpty := by
  cases h with
  | header holds =>
      rw [PacketReader.isEmpty, ReadBuffer.isEmpty, holds.count]
      cases held <;> rfl
  | @body _ _ front held length _ _ _ =>
      cases front with
      | nil => cases length
      | cons b rest => rfl

/-- What a reader holds completes nothing. -/
theorem Holds.firstItem? (h : r.Holds held) : firstItem? held = none := by
  cases h with
  | header holds => rw [Wire.firstItem?, if_pos holds.short]
  | body length parsed small holds =>
      rw [firstItem?_ok length parsed, if_neg small, if_pos holds.short]

end PacketReader

/-! ### Streams -/

namespace SourceEvent

/-- The bytes that come with an event. -/
def bytes : SourceEvent → Bytes
  | .chunk data => data
  | _ => []

/-- The message of a failure, if the event is one. -/
def failure? : SourceEvent → Option String
  | .failure message => some message
  | _ => none

end SourceEvent

/-- All bytes of a source, however they are cut. -/
def sourceBytes (events : List SourceEvent) : Bytes :=
  events.flatMap SourceEvent.bytes

/-- The items that are none of the source's own failures. -/
def withoutFailures (items : List Item) : List Item :=
  items.filter fun item => (sourceFailure? item).isNone

theorem withoutFailures_of_none {items : List Item} (h : items.filterMap sourceFailure? = []) :
    withoutFailures items = items := by
  refine List.filter_eq_self.mpr fun item hItem => ?_
  rw [List.filterMap_eq_nil_iff.mp h item hItem, Option.isNone_none]

theorem withoutFailures_append (items more : List Item) :
    withoutFailures (items ++ more) = withoutFailures items ++ withoutFailures more :=
  List.filter_append ..

theorem withoutFailures_completed (data : Bytes) :
    withoutFailures (completed data) = completed data :=
  List.filter_eq_self.mpr fun item h => by rw [sourceFailure?_of_mem_completed h]; rfl

theorem sourceFailures_completed (data : Bytes) :
    (completed data).filterMap sourceFailure? = [] :=
  List.filterMap_eq_nil_iff.mpr fun _ => sourceFailure?_of_mem_completed

namespace PacketStream

theorem drain_nil (fuel : Nat) (r : PacketReader) : drain fuel ⟨r, []⟩ = (⟨r, []⟩, []) := by
  cases fuel <;> rfl

/-- A chunk that is left over yields all items that it completes. -/
theorem drain_new {fuel : Nat} {data : Bytes} (h : data.length ≤ fuel) :
    ∃ r : PacketReader, drain fuel ⟨.new, data⟩ = (⟨r, []⟩, (splitItems data).1) ∧
      r.Holds (splitItems data).2 := by
  induction fuel generalizing data with
  | zero =>
      rw [List.eq_nil_of_length_eq_zero (Nat.le_zero.mp h), splitItems_nil]
      exact ⟨.new, rfl, PacketReader.holds_new⟩
  | succ fuel ih =>
      cases data with
      | nil =>
          rw [splitItems_nil]
          exact ⟨.new, rfl, PacketReader.holds_new⟩
      | cons b rest =>
          have hPut := PacketReader.holds_new.put (b :: rest)
          rw [List.nil_append] at hPut
          simp only [drain, feed, List.isEmpty_cons, Bool.false_eq_true, if_false]
          generalize PacketReader.put .new (b :: rest) = result at hPut
          cases hPut with
          | @more r first holds =>
              rw [splitItems_of_none first]
              exact ⟨r, drain_nil fuel r, holds⟩
          | @complete item behind first =>
              have hShorter : behind.length ≤ fuel :=
                Nat.le_of_lt_succ (Nat.lt_of_lt_of_le (firstItem?_eq_some first).1 h)
              obtain ⟨r, hDrain, hHolds⟩ := ih hShorter
              rw [splitItems_of_some first]
              refine ⟨r, ?_, hHolds⟩
              dsimp only
              rw [hDrain]

/-- One event yields the items that its bytes complete, or itself if it is a failure. The stream goes on
to hold what is left over. -/
theorem step_of_holds {r : PacketReader} {held : Bytes} (h : r.Holds held) (event : SourceEvent) :
    ∃ (r' : PacketReader) (out : List Item), step ⟨r, []⟩ event = (⟨r', []⟩, out) ∧
      r'.Holds (splitItems (held ++ event.bytes)).2 ∧
      withoutFailures out = (splitItems (held ++ event.bytes)).1 ∧
      out.filterMap sourceFailure? = event.failure?.toList := by
  cases event with
  | notReady =>
      simp only [SourceEvent.bytes, List.append_nil, splitItems_of_none h.firstItem?]
      exact ⟨r, [], rfl, h, rfl, rfl⟩
  | failure message =>
      simp only [SourceEvent.bytes, List.append_nil, splitItems_of_none h.firstItem?]
      exact ⟨r, [.error (.source message)], rfl, h, rfl, rfl⟩
  | chunk data =>
      have hPut := h.put data
      simp only [step, accept, feed, SourceEvent.bytes]
      generalize r.put data = result at hPut
      cases hPut with
      | @more r' first holds =>
          rw [splitItems_of_none first]
          exact ⟨r', [], rfl, holds, rfl, rfl⟩
      | @complete item rest first =>
          obtain ⟨r', hDrain, hHolds⟩ := drain_new (Nat.le_refl rest.length)
          have hSplit := splitItems_of_some first
          refine ⟨r', item :: (splitItems rest).1, by dsimp only; rw [hDrain]; rfl, ?_, ?_, ?_⟩
          · rw [hSplit]
            exact hHolds
          · rw [hSplit]
            have hClean := withoutFailures_completed (held ++ data)
            rwa [completed, hSplit] at hClean
          · have hClean := sourceFailures_completed (held ++ data)
            rwa [completed, hSplit] at hClean

/-- The stream after these events, and the items that it has yielded. -/
def run (s : PacketStream) : List SourceEvent → PacketStream × List Item
  | [] => (s, [])
  | event :: events =>
    let (s, out) := s.step event
    let (s, more) := run s events
    (s, out ++ more)

theorem items_append (s : PacketStream) (before after : List SourceEvent) :
    s.items (before ++ after) = (s.run before).2 ++ (s.run before).1.items after := by
  induction before generalizing s with
  | nil => rfl
  | cons event before ih => simp only [List.cons_append, items, run, ih, List.append_assoc]

theorem items_eq_run (s : PacketStream) (events : List SourceEvent) :
    s.items events = (s.run events).2 ++ (s.run events).1.atEnd.toList := by
  have hAppend := items_append s events []
  rwa [List.append_nil] at hAppend

/-- Any events yield the items that all their bytes complete, with their failures in between. -/
theorem run_of_holds {r : PacketReader} {held : Bytes} (h : r.Holds held)
    (events : List SourceEvent) :
    ∃ (r' : PacketReader) (out : List Item), run ⟨r, []⟩ events = (⟨r', []⟩, out) ∧
      r'.Holds (splitItems (held ++ sourceBytes events)).2 ∧
      withoutFailures out = (splitItems (held ++ sourceBytes events)).1 ∧
      out.filterMap sourceFailure? = events.filterMap SourceEvent.failure? := by
  induction events generalizing r held with
  | nil =>
      rw [sourceBytes, List.flatMap_nil, List.append_nil, splitItems_of_none h.firstItem?]
      exact ⟨r, [], rfl, h, rfl, rfl⟩
  | cons event events ih =>
      obtain ⟨r₁, out, hStep, hHolds₁, hItems, hFailures⟩ := step_of_holds h event
      obtain ⟨r₂, more, hRun, hHolds₂, hMore, hLater⟩ := ih hHolds₁
      have hBytes : held ++ sourceBytes (event :: events) =
          (held ++ event.bytes) ++ sourceBytes events := by
        rw [sourceBytes, List.flatMap_cons, List.append_assoc]
        rfl
      rw [hBytes, splitItems_append]
      refine ⟨r₂, out ++ more, by rw [run, hStep]; dsimp only; rw [hRun], hHolds₂, ?_, ?_⟩
      · rw [withoutFailures_append, hItems, hMore]
      · rw [List.filterMap_append, hFailures, hLater]
        cases hFailure : event.failure? <;> simp [hFailure]

/-- A fresh stream, after any events. -/
theorem run_new (events : List SourceEvent) :
    ∃ (r : PacketReader) (out : List Item), run new events = (⟨r, []⟩, out) ∧
      r.Holds (splitItems (sourceBytes events)).2 ∧
      withoutFailures out = completed (sourceBytes events) ∧
      out.filterMap sourceFailure? = events.filterMap SourceEvent.failure? := by
  have hRun := run_of_holds PacketReader.holds_new events
  rwa [List.nil_append] at hRun

/-- A source that never fails yields the items of its bytes and nothing else. -/
theorem items_of_quiet {events : List SourceEvent}
    (hQuiet : events.filterMap SourceEvent.failure? = []) :
    new.items events = decodeAll (sourceBytes events) := by
  obtain ⟨r, out, hRun, hHolds, hItems, hFailures⟩ := run_new events
  have hClean := withoutFailures_of_none (hFailures.trans hQuiet)
  rw [items_eq_run, hRun, atEnd, hHolds.isEmpty, decodeAll_eq, ← hItems, hClean]
  split <;> rfl

/-- How bytes are cut does not show in the items. Apart from the failures of the source they are those of
the whole byte string read at once, and every failure is yielded once, in order, right behind the items
that the bytes before it complete. A source that is not ready yields nothing. -/
theorem items_of_chunks :
    (∀ events : List SourceEvent,
      withoutFailures (new.items events) = decodeAll (sourceBytes events)) ∧
    (∀ events : List SourceEvent,
      (new.items events).filterMap sourceFailure? = events.filterMap SourceEvent.failure?) ∧
    ∀ (before after : List SourceEvent) (message : String), ∃ out rest : List Item,
      new.items (before ++ .failure message :: after) = out ++ .error (.source message) :: rest ∧
      withoutFailures out = completed (sourceBytes before) ∧
      out.filterMap sourceFailure? = before.filterMap SourceEvent.failure? := by
  refine ⟨fun events => ?_, fun events => ?_, fun before after message => ?_⟩
  · obtain ⟨r, out, hRun, hHolds, hItems, -⟩ := run_new events
    rw [items_eq_run, hRun, atEnd, hHolds.isEmpty, decodeAll_eq, withoutFailures_append, hItems]
    split <;> rfl
  · obtain ⟨r, out, hRun, -, -, hFailures⟩ := run_new events
    rw [items_eq_run, hRun, atEnd, List.filterMap_append, hFailures]
    split <;> exact List.append_nil _
  · obtain ⟨r, out, hBefore, -, hItems, hFailures⟩ := run_new before
    refine ⟨out, items ⟨r, []⟩ after, ?_, hItems, hFailures⟩
    rw [items_append, hBefore]
    rfl

end PacketStream

end PeerLink.Wire
