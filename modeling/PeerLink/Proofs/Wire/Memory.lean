import PeerLink.Proofs.Wire.Chunking

/-! A packet reader as it lies in memory. The buffer is a block of cells of fixed length, of which some are
filled; what stands in the others has no meaning. Here a subtraction can go below zero, a range can lie
outside of a block, and a copy can be of another length than its place: each of these is a trap. A reader
that was started empty never meets one, needs two rounds of its loop at most, and does what `PacketReader`
does (`Reading.Shows.loop`). -/
namespace PeerLink.Wire

inductive Trap where
  /-- A difference below zero. -/
  | difference
  /-- A range of cells that the block does not have. -/
  | range
  /-- Another number of bytes than there are cells for them. -/
  | copy
  deriving DecidableEq, Repr

/-- The difference of two lengths. -/
def difference (m n : Nat) : Except Trap Nat :=
  if n ≤ m then .ok (m - n) else .error .difference

/-- Fill the cells from `start` up to `stop` from the front of `data`. Returns all cells and the rest of
`data`. -/
def fillRange (cells : Bytes) (start stop : Nat) (data : Bytes) : Except Trap (Bytes × Bytes) :=
  if start ≤ stop ∧ stop ≤ cells.length then
    if stop - start ≤ data.length then
      .ok (cells.take start ++ data.take (stop - start) ++ cells.drop stop, data.drop (stop - start))
    else .error .copy
  else .error .range

/-- A copy of some bytes in a block of `length` cells. -/
def copyOf (length : Nat) (data : Bytes) : Except Trap Bytes :=
  if data.length = length then .ok data else .error .copy

structure Block where
  cells : Bytes
  filled : Nat
  deriving DecidableEq, Repr

namespace Block

def new (size : Nat) : Block :=
  ⟨List.replicate size 0, 0⟩

/-- Fill the block from the front of `data`. A block that is full is taken away, which leaves one without
cells. -/
def put (c : Block) (data : Bytes) : Except Trap (Block × Bytes × Option Bytes) := do
  let need ← difference c.cells.length c.filled
  let count := min data.length need
  let (cells, rest) ← fillRange c.cells c.filled (c.filled + count) data
  if c.filled + count = cells.length then return (new 0, rest, some cells)
  else return (⟨cells, c.filled + count⟩, rest, none)

/-- The block lies where the buffer is. -/
structure Shows (c : Block) (b : ReadBuffer) : Prop where
  length : c.cells.length = b.size
  filled : c.filled = b.count
  bytes : c.cells.take c.filled = b.bytes

theorem shows_new (size : Nat) : (new size).Shows (.new size) :=
  ⟨List.length_replicate, rfl, rfl⟩

variable {c : Block} {b : ReadBuffer} {size : Nat} {held : Bytes}

/-- Bytes put behind those that the block holds, as many as it has cells for. -/
theorem fillRange_held {cells data : Bytes} (hBytes : cells.take held.length = held) {count : Nat}
    (hCells : held.length + count ≤ cells.length) (hData : count ≤ data.length) :
    fillRange cells held.length (held.length + count) data =
      .ok (held ++ data.take count ++ cells.drop (held.length + count), data.drop count) := by
  rw [fillRange, if_pos ⟨Nat.le_add_right _ _, hCells⟩, Nat.add_sub_cancel_left, if_pos hData, hBytes]

/-- What a block shows of the bytes that its buffer holds. -/
theorem Shows.contents (h : c.Shows b) (holds : b.Holds size held) :
    c.cells.length = size ∧ c.filled = held.length ∧ c.cells.take held.length = held := by
  have hFilled := h.filled.trans holds.count
  exact ⟨h.length.trans holds.wants, hFilled, hFilled ▸ h.bytes.trans holds.bytes⟩

/-- Enough bytes fill the block. -/
theorem Shows.put_full (h : c.Shows b) (holds : b.Holds size held) {data : Bytes}
    (hFull : size ≤ (held ++ data).length) :
    c.put data = .ok (new 0, (held ++ data).drop size, some ((held ++ data).take size)) := by
  obtain ⟨hLength, hFilled, hBytes⟩ := h.contents holds
  have hShort := holds.short
  have hNeed : difference c.cells.length held.length = .ok (size - held.length) := by
    rw [difference, if_pos (by omega), hLength]
  have hLong := hFull
  rw [List.length_append] at hLong
  have hCount : min data.length (size - held.length) = size - held.length := by omega
  have hEnd : held.length + (size - held.length) = c.cells.length := by omega
  have hRange := fillRange_held hBytes (Nat.le_of_eq hEnd) (show size - held.length ≤ data.length by omega)
  have hAll : held ++ data.take (size - held.length) = (held ++ data).take size := by
    rw [List.take_append, List.take_of_length_le (Nat.le_of_lt hShort)]
  have hRest : data.drop (size - held.length) = (held ++ data).drop size := by
    rw [List.drop_append, List.drop_eq_nil_of_le (Nat.le_of_lt hShort), List.nil_append]
  rw [hEnd, List.drop_length, List.append_nil, hAll, hRest] at hRange
  have hTaken : c.cells.length = ((held ++ data).take size).length := by
    rw [List.length_take, hLength]
    omega
  simp only [Block.put, hFilled, hNeed, hCount, hEnd, hRange, bind, Except.bind, if_pos hTaken]
  rfl

/-- Too few bytes are all taken in. -/
theorem Shows.put_short (h : c.Shows b) (holds : b.Holds size held) {data : Bytes}
    (hShort : (held ++ data).length < size) :
    ∃ c', c.put data = .ok (c', [], none) ∧ c'.Shows (b.put data).1 := by
  obtain ⟨hLength, hFilled, hBytes⟩ := h.contents holds
  obtain ⟨b', hPut, hHolds⟩ := holds.put_short hShort
  rw [List.length_append] at hShort
  have hNeed : difference c.cells.length held.length = .ok (size - held.length) := by
    rw [difference, if_pos (by omega), hLength]
  have hCount : min data.length (size - held.length) = data.length := by omega
  have hRange := fillRange_held hBytes (by omega) (Nat.le_refl data.length)
  rw [List.take_length, List.drop_length] at hRange
  generalize hCells : held ++ data ++ c.cells.drop (held.length + data.length) = cells at hRange
  have hSize : cells.length = size := by
    rw [← hCells, List.length_append, List.length_append, List.length_drop]
    omega
  have hEnd : ¬ held.length + data.length = cells.length := by omega
  refine ⟨⟨cells, held.length + data.length⟩, ?_, ?_⟩
  · simp only [Block.put, hFilled, hNeed, hCount, hRange, bind, Except.bind, if_neg hEnd]
    rfl
  · rw [hPut]
    refine ⟨hSize.trans hHolds.wants.symm, ?_, ?_⟩
    · rw [hHolds.count, List.length_append]
    · rw [hHolds.bytes, ← hCells, ← List.length_append, List.take_left]

/-- A block takes what the buffer takes, and all lengths fit. -/
theorem Shows.put (h : c.Shows b) (holds : b.Holds size held) (data : Bytes) :
    ∃ c', c.put data = .ok (c', (b.put data).2) ∧ c'.Shows (b.put data).1 := by
  by_cases hFull : size ≤ (held ++ data).length
  · rw [holds.put_full hFull]
    exact ⟨new 0, h.put_full holds hFull, shows_new 0⟩
  · have hShort := Nat.lt_of_not_le hFull
    obtain ⟨c', hPut, hShows⟩ := h.put_short holds hShort
    obtain ⟨b', hResult, -⟩ := holds.put_short hShort
    rw [hResult] at hShows ⊢
    exact ⟨c', hPut, hShows⟩

end Block

/-- A packet reader, with its buffer in memory. -/
inductive Reading where
  | header (block : Block)
  | body (header : Header) (block : Block)
  deriving DecidableEq, Repr

namespace Reading

def new : Reading :=
  .header (.new Header.size)

/-- What a round of the loop in a put comes to. -/
inductive Round where
  /-- The loop goes on, with the rest of the data. -/
  | again (r : Reading) (rest : Bytes)
  /-- The put returns, with an item if one is complete. -/
  | done (r : Reading) (rest : Bytes) (item? : Option Item)

/-- What the bytes of a header say about the next round. -/
def behindHeader (front rest : Bytes) : Round :=
  match Header.parse front with
  | .error cause => .done new rest (some (.error (.invalidHeader cause)))
  | .ok h =>
    if h.bodyLength.toNat > maxStreamBody then
      .done new rest (some (.error (.bodyTooLarge h.bodyLength)))
    else if h.bodyLength = 0 then .done new rest (some (PacketReader.item h []))
    else .again (.body h (.new h.bodyLength.toNat)) rest

def round (r : Reading) (data : Bytes) : Except Trap Round :=
  match r with
  | .header block => do
    match ← block.put data with
    | (block, rest, none) => return .done (.header block) rest none
    | (_, rest, some bytes) => return behindHeader (← copyOf Header.size bytes) rest
  | .body h block => do
    match ← block.put data with
    | (block, rest, none) => return .done (.body h block) rest none
    | (_, rest, some bytes) => return .done new rest (some (PacketReader.item h bytes))

/-- A put that may take so many rounds. There is no result if it does not return in them. -/
def loop : (rounds : Nat) → Reading → Bytes → Except Trap (Option (Reading × Bytes × Option Item))
  | 0, _, _ => .ok none
  | rounds + 1, r, data => do
    match ← r.round data with
    | .done r rest item? => return some (r, rest, item?)
    | .again r rest => loop rounds r rest

/-- The reading lies where the reader is. -/
inductive Shows : Reading → PacketReader → Prop where
  | header {c : Block} {b : ReadBuffer} (block : c.Shows b) : Shows (.header c) (.header b)
  | body {h : Header} {c : Block} {b : ReadBuffer} (block : c.Shows b) :
      Shows (.body h c) (.body h b)

theorem shows_new : new.Shows .new :=
  .header (Block.shows_new Header.size)

/-- A body is read in one round. -/
theorem loop_body {h : Header} {c : Block} {b : ReadBuffer} {held : Bytes} (block : c.Shows b)
    (holds : b.Holds h.bodyLength.toNat held) (data : Bytes) (rounds : Nat) :
    ∃ m, loop (rounds + 1) (.body h c) data = .ok (some (m, (PacketReader.putBody h b data).2)) ∧
      m.Shows (PacketReader.putBody h b data).1 := by
  obtain ⟨c', hPut, hShows⟩ := block.put holds data
  generalize hResult : b.put data = result at hPut hShows
  obtain ⟨b', rest, _ | bytes⟩ := result
  · refine ⟨.body h c', ?_, ?_⟩
    · simp only [loop, round, hPut, PacketReader.putBody, hResult, bind, Except.bind]
      rfl
    · simp only [PacketReader.putBody, hResult]
      exact .body hShows
  · refine ⟨new, ?_, ?_⟩
    · simp only [loop, round, hPut, PacketReader.putBody, hResult, bind, Except.bind]
      rfl
    · simp only [PacketReader.putBody, hResult]
      exact shows_new

/-- A round that has read a header returns, or a second one reads the body. -/
theorem loop_behindHeader (front rest : Bytes) :
    (∃ m, behindHeader front rest =
        .done m (PacketReader.putHeader front rest).2.1 (PacketReader.putHeader front rest).2.2 ∧
          m.Shows (PacketReader.putHeader front rest).1) ∨
      ∃ m m', behindHeader front rest = .again m rest ∧
        loop 1 m rest = .ok (some (m', (PacketReader.putHeader front rest).2)) ∧
          m'.Shows (PacketReader.putHeader front rest).1 := by
  unfold behindHeader PacketReader.putHeader
  cases Header.parse front with
  | error cause => exact .inl ⟨new, rfl, shows_new⟩
  | ok h =>
      dsimp only
      split
      · exact .inl ⟨new, rfl, shows_new⟩
      · split
        · exact .inl ⟨new, rfl, shows_new⟩
        · next hSome =>
            have hPositive : 0 < h.bodyLength.toNat :=
              Nat.pos_of_ne_zero fun hZero => hSome (UInt32.toNat_inj.mp hZero)
            obtain ⟨m', hLoop, hShows⟩ := loop_body (Block.shows_new h.bodyLength.toNat)
              (ReadBuffer.holds_new hPositive) rest 0
            exact .inr ⟨_, m', rfl, hLoop, hShows⟩

/-- A put meets no trap, returns within two rounds, and does what it does to the reader. -/
theorem Shows.loop {m : Reading} {r : PacketReader} {held : Bytes} (h : m.Shows r)
    (holds : r.Holds held) (data : Bytes) :
    ∃ m', m.loop 2 data = .ok (some (m', (r.put data).2)) ∧ m'.Shows (r.put data).1 := by
  cases h with
  | @body header c b block =>
      cases holds with
      | body length parsed small hBuffer => exact loop_body block hBuffer data 1
  | @header c b block =>
      cases holds with
      | header hBuffer =>
          obtain ⟨c', hPut, hShows⟩ := block.put hBuffer data
          unfold PacketReader.put
          dsimp only
          by_cases hShort : (held ++ data).length < Header.size
          · obtain ⟨b', hResult, -⟩ := hBuffer.put_short hShort
            rw [hResult] at hPut hShows ⊢
            refine ⟨.header c', ?_, .header hShows⟩
            simp only [Reading.loop, round, hPut, bind, Except.bind]
            rfl
          · have hFull := Nat.le_of_not_lt hShort
            have hCopy : copyOf Header.size ((held ++ data).take Header.size) =
                .ok ((held ++ data).take Header.size) := by
              rw [copyOf, if_pos (by rw [List.length_take]; omega)]
            rw [hBuffer.put_full hFull] at hPut hShows ⊢
            dsimp only at hPut ⊢
            obtain ⟨m, hDone, hEnd⟩ | ⟨m, m', hAgain, hLoop, hEnd⟩ :=
              loop_behindHeader ((held ++ data).take Header.size) ((held ++ data).drop Header.size)
            · refine ⟨m, ?_, hEnd⟩
              simp only [Reading.loop, round, hPut, hCopy, hDone, bind, Except.bind]
              rfl
            · refine ⟨m', ?_, hEnd⟩
              simp only [Reading.loop, round, hPut, hCopy, hAgain, bind, Except.bind] at hLoop ⊢
              exact hLoop

end Reading

end PeerLink.Wire
