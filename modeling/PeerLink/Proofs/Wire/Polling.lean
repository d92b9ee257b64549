import Mathlib.Data.List.Induction
import PeerLink.Proofs.Wire.Memory
import PeerLink.Proofs.Wire.Yields

/-! What a packet reader can be in after any puts, and what a poll of a stream of packets does. Every put
leaves the reader waiting for a part of a header or for a part of a body that it accepts. A put without an
item has taken everything, so a poll asks its source in every round but its first. All polls together return
the items of the stream (`polls_items`). -/
namespace PeerLink.Wire

namespace PacketReader

/-- The reader after these puts. What a put leaves over may be put again, or not. -/
def after (r : PacketReader) (pieces : List Bytes) : PacketReader :=
  pieces.foldl (fun r data => (r.put data).1) r

/-- A buffer for a header or for a body of the announced and accepted length, with room in it. -/
def InBounds : PacketReader → Prop
  | .header buffer => buffer.size = Header.size ∧ buffer.count < Header.size
  | .body h buffer =>
    buffer.size = h.bodyLength.toNat ∧ 1 ≤ h.bodyLength.toNat ∧
      h.bodyLength.toNat ≤ maxStreamBody ∧ buffer.count < h.bodyLength.toNat

theorem after_concat (r : PacketReader) (pieces : List Bytes) (data : Bytes) :
    r.after (pieces ++ [data]) = ((r.after pieces).put data).1 := by
  rw [after, List.foldl_append]
  rfl

variable {r : PacketReader} {held : Bytes}

theorem Holds.inBounds (h : r.Holds held) : r.InBounds := by
  cases h with
  | header holds => exact ⟨holds.wants, holds.count ▸ holds.short⟩
  | body length parsed small holds =>
      have hShort := holds.short
      exact ⟨holds.wants, by omega, Nat.le_of_not_lt small, holds.count ▸ hShort⟩

/-- A put keeps the rest only with an item, and then the next packet has not been started. -/
theorem Holds.put_cases (h : r.Holds held) (data : Bytes) :
    ∃ r' rest item?, r.put data = (r', rest, item?) ∧ (∃ held', r'.Holds held') ∧
      (item? = none ∧ rest = [] ∨ item?.isSome ∧ r' = new) := by
  have hPut := h.put data
  generalize r.put data = result at hPut
  cases hPut with
  | more first holds => exact ⟨_, _, _, rfl, ⟨_, holds⟩, .inl ⟨rfl, rfl⟩⟩
  | complete first => exact ⟨_, _, _, rfl, ⟨_, holds_new⟩, .inr ⟨rfl, rfl⟩⟩

theorem holds_after (pieces : List Bytes) : ∃ held, (new.after pieces).Holds held := by
  induction pieces using List.reverseRecOn with
  | nil => exact ⟨[], holds_new⟩
  | append_singleton pieces data ih =>
      obtain ⟨held, hHolds⟩ := ih
      obtain ⟨r', rest, item?, hPut, hNext, -⟩ := hHolds.put_cases data
      rw [after_concat, hPut]
      exact hNext

end PacketReader

namespace Reading

/-- The reading after these puts, if each returns within two rounds. -/
def after (m : Reading) : List Bytes → Except Trap (Option Reading)
  | [] => .ok (some m)
  | data :: pieces => do
    match ← m.loop 2 data with
    | none => return none
    | some (m, _) => after m pieces

/-- Puts meet no trap. -/
theorem Shows.after {m : Reading} {r : PacketReader} {held : Bytes} (h : m.Shows r)
    (holds : r.Holds held) (pieces : List Bytes) :
    ∃ m', m.after pieces = .ok (some m') ∧ m'.Shows (r.after pieces) := by
  induction pieces generalizing m r held with
  | nil => exact ⟨m, rfl, h⟩
  | cons data pieces ih =>
      obtain ⟨m', hLoop, hShows⟩ := h.loop holds data
      obtain ⟨r', rest, item?, hPut, ⟨held', hHolds⟩, -⟩ := holds.put_cases data
      rw [hPut] at hLoop hShows
      obtain ⟨m'', hAfter, hEnd⟩ := ih hShows hHolds
      refine ⟨m'', ?_, ?_⟩
      · simp only [Reading.after, hLoop, bind, Except.bind]
        exact hAfter
      · simp only [PacketReader.after, List.foldl_cons, hPut] at hEnd ⊢
        exact hEnd

end Reading

/-- What a poll of a stream comes to. -/
inductive Poll where
  /-- An item, or the end of the stream. -/
  | ready (item? : Option Item)
  | pending
  /-- It asks the source for more than is known of it. -/
  | starved

namespace PacketStream

/-- What comes of feeding the reader: the poll returns an item, or it goes on. -/
def turn (result : PacketStream × Option Item) (answers : List (Option SourceEvent)) :
    PacketStream × List (Option SourceEvent) × Option Poll :=
  (result.1, answers, result.2.map fun item => .ready (some item))

/-- One round of a poll, given what the source answers from now on; `none` is its end. Returns what the poll
comes to, if it ends with this round. -/
def pollRound (s : PacketStream) (answers : List (Option SourceEvent)) :
    PacketStream × List (Option SourceEvent) × Option Poll :=
  if !s.buffer.isEmpty then turn (s.feed s.buffer) answers
  else match answers with
    | [] => (s, [], some .starved)
    | none :: answers => (s, answers, some (.ready s.atEnd))
    | some .notReady :: answers => (s, answers, some .pending)
    | some event :: answers => turn (s.accept event) answers

/-- A poll that may take so many rounds. -/
def poll : (rounds : Nat) → PacketStream → List (Option SourceEvent) →
    Option (PacketStream × List (Option SourceEvent) × Poll)
  | 0, _, _ => none
  | rounds + 1, s, answers =>
    match s.pollRound answers with
    | (s, answers, some result) => some (s, answers, result)
    | (s, answers, none) => poll rounds s answers

/-- What a round can do. -/
inductive Rounds (s : PacketStream) (answers : List (Option SourceEvent)) :
    PacketStream → List (Option SourceEvent) → Option Poll → Prop where
  /-- It feeds what was left over. -/
  | feeds {s' : PacketStream} {item? : Option Item} (left : s.buffer ≠ [])
      (fed : s.feed s.buffer = (s', item?)) :
      Rounds s answers s' answers (item?.map fun item => .ready (some item))
  /-- It asks the source and feeds its chunk. -/
  | asks {data : Bytes} {later : List (Option SourceEvent)} {s' : PacketStream}
      {item? : Option Item} (left : s.buffer = []) (asked : answers = some (.chunk data) :: later)
      (fed : s.feed data = (s', item?)) :
      Rounds s answers s' later (item?.map fun item => .ready (some item))
  /-- It asks the source, and the poll returns. -/
  | returns {answer : Option SourceEvent} {later : List (Option SourceEvent)} {result : Poll}
      (left : s.buffer = []) (asked : answers = answer :: later) :
      Rounds s answers s later (some result)
  /-- It asks the source for more than is known. -/
  | starves (left : s.buffer = []) (asked : answers = []) : Rounds s answers s [] (some .starved)

theorem rounds_pollRound (s : PacketStream) (answers : List (Option SourceEvent)) :
    ∃ s' answers' poll?, s.pollRound answers = (s', answers', poll?) ∧
      s.Rounds answers s' answers' poll? := by
  unfold pollRound
  split
  · next hSome => exact ⟨_, _, _, rfl, .feeds (by simpa using hSome) rfl⟩
  · next hEmpty =>
      have hLeft : s.buffer = [] := by simpa using hEmpty
      match answers with
      | [] => exact ⟨_, _, _, rfl, .starves hLeft rfl⟩
      | none :: later => exact ⟨_, _, _, rfl, .returns hLeft rfl⟩
      | some .notReady :: later => exact ⟨_, _, _, rfl, .returns hLeft rfl⟩
      | some (.failure message) :: later => exact ⟨_, _, _, rfl, .returns hLeft rfl⟩
      | some (.chunk data) :: later => exact ⟨_, _, _, rfl, .asks hLeft rfl rfl⟩

/-- The rounds that a poll can take at most. -/
def roundsLeft (s : PacketStream) (answers : List (Option SourceEvent)) : Nat :=
  answers.length + if s.buffer = [] then 1 else 2

variable {s s' : PacketStream} {held : Bytes} {pieces : List Bytes}
  {answers answers' : List (Option SourceEvent)} {poll? : Option Poll}

/-- What is fed without completing an item has been taken. -/
theorem buffer_of_feed {data : Bytes} {item? : Option Item} (holds : s.reader.Holds held)
    (h : s.feed data = (s', item?)) (hNone : item? = none) : s'.buffer = [] := by
  obtain ⟨r', rest, item?, hPut, -, hRest⟩ := holds.put_cases data
  simp only [feed, hPut] at h
  cases h
  subst hNone
  obtain ⟨-, hTaken⟩ | ⟨hItem, -⟩ := hRest
  · exact hTaken
  · cases hItem

/-- After a round with which a poll goes on, it has fewer rounds left. -/
theorem Rounds.fewer (h : s.Rounds answers s' answers' poll?) (holds : s.reader.Holds held)
    (hNone : poll? = none) : s'.roundsLeft answers' < s.roundsLeft answers := by
  cases h with
  | feeds left fed =>
      have hBuffer := buffer_of_feed holds fed (Option.map_eq_none_iff.mp hNone)
      rw [roundsLeft, roundsLeft, if_pos hBuffer, if_neg left]
      exact Nat.lt_succ_self _
  | asks left asked fed =>
      have hBuffer := buffer_of_feed holds fed (Option.map_eq_none_iff.mp hNone)
      rw [roundsLeft, roundsLeft, if_pos hBuffer, if_pos left, asked, List.length_cons]
      exact Nat.lt_succ_self _
  | returns => cases hNone
  | starves => cases hNone

theorem after_feed {data : Bytes} {item? : Option Item}
    (hAfter : s.reader = PacketReader.new.after pieces) (fed : s.feed data = (s', item?)) :
    s'.reader = PacketReader.new.after (pieces ++ [data]) := by
  cases fed
  rw [PacketReader.after_concat, ← hAfter]
  rfl

/-- A round is a put of some bytes, or leaves the reader as it is. -/
theorem Rounds.after (h : s.Rounds answers s' answers' poll?)
    (hAfter : s.reader = PacketReader.new.after pieces) :
    ∃ pieces', s'.reader = PacketReader.new.after pieces' := by
  cases h with
  | feeds left fed => exact ⟨_, after_feed hAfter fed⟩
  | asks left asked fed => exact ⟨_, after_feed hAfter fed⟩
  | returns left asked => exact ⟨pieces, hAfter⟩
  | starves left asked => exact ⟨pieces, hAfter⟩

/-- A round takes a byte of what was left over, or it asks the source. -/
theorem Rounds.advances (h : s.Rounds answers s' answers' poll?) (holds : s.reader.Holds held) :
    s.buffer ≠ [] ∧ s'.buffer.length < s.buffer.length ∧ answers' = answers ∨
      s.buffer = [] ∧ ((∃ answer, answers = answer :: answers') ∨
        answers = [] ∧ answers' = [] ∧ poll? = some .starved) := by
  cases h with
  | feeds left fed =>
      have hShorter := feed_shorter holds fed
      have hLength := List.length_pos_iff.mpr left
      exact .inl ⟨left, by omega, rfl⟩
  | asks left asked fed => exact .inr ⟨left, .inl ⟨_, asked⟩⟩
  | returns left asked => exact .inr ⟨left, .inl ⟨_, asked⟩⟩
  | starves left asked => exact .inr ⟨left, .inr ⟨asked, rfl, rfl⟩⟩

/-- A poll returns within the rounds that it has left. -/
theorem poll_returns {rounds : Nat} (hAfter : s.reader = PacketReader.new.after pieces)
    (hRounds : s.roundsLeft answers ≤ rounds) :
    ∃ s' answers' result, poll rounds s answers = some (s', answers', result) ∧
      ∃ pieces', s'.reader = PacketReader.new.after pieces' := by
  induction rounds generalizing s pieces answers with
  | zero =>
      unfold roundsLeft at hRounds
      split at hRounds <;> omega
  | succ rounds ih =>
      obtain ⟨held, holds⟩ := PacketReader.holds_after pieces
      rw [← hAfter] at holds
      obtain ⟨s', answers', poll?, hRound, hDone⟩ := rounds_pollRound s answers
      obtain ⟨pieces', hNext⟩ := hDone.after hAfter
      rw [poll, hRound]
      cases poll? with
      | some result => exact ⟨s', answers', result, rfl, pieces', hNext⟩
      | none =>
          have hFewer := hDone.fewer holds rfl
          exact ih hNext (by omega)

/-- More rounds than are needed change nothing. -/
theorem poll_add {rounds : Nat} {result : PacketStream × List (Option SourceEvent) × Poll}
    (h : poll rounds s answers = some result) (extra : Nat) :
    poll (rounds + extra) s answers = some result := by
  induction rounds generalizing s answers with
  | zero => cases h
  | succ rounds ih =>
      rw [Nat.add_right_comm, poll]
      rw [poll] at h
      split at h
      · exact h
      · exact ih h

/-- A round with which a poll goes on leaves the rest of the poll. -/
theorem poll_of_round (hAfter : s.reader = PacketReader.new.after pieces)
    (hRound : s.pollRound answers = (s', answers', none)) :
    s.poll (answers.length + 2) answers = s'.poll (answers'.length + 2) answers' := by
  obtain ⟨held, holds⟩ := PacketReader.holds_after pieces
  rw [← hAfter] at holds
  obtain ⟨s₁, answers₁, poll?, hSame, hDone⟩ := rounds_pollRound s answers
  rw [hRound] at hSame
  cases hSame
  obtain ⟨pieces', hNext⟩ := hDone.after hAfter
  have hFewer := hDone.fewer holds rfl
  have hLeft (s : PacketStream) (answers : List (Option SourceEvent)) :
      s.roundsLeft answers ≤ answers.length + 2 := by
    unfold roundsLeft
    split <;> omega
  have hEnough : s'.roundsLeft answers' ≤ answers.length + 1 := by
    have hStart := hLeft s answers
    omega
  obtain ⟨s₂, answers₂, result, hPoll, -⟩ := poll_returns hNext hEnough
  obtain ⟨s₃, answers₃, result', hPoll', -⟩ := poll_returns hNext (hLeft s' answers')
  have hLong := poll_add hPoll (answers'.length + 2)
  have hLong' := poll_add hPoll' (answers.length + 1)
  rw [Nat.add_comm, hLong'] at hLong
  rw [poll, hRound, hPoll', hLong]
  exact hPoll

/-- With nothing left over, a round asks the source. -/
theorem pollRound_of_empty (h : s.buffer = []) : s.pollRound answers =
    match answers with
    | [] => (s, [], some .starved)
    | none :: answers => (s, answers, some (.ready s.atEnd))
    | some .notReady :: answers => (s, answers, some .pending)
    | some event :: answers => turn (s.accept event) answers := by
  rw [pollRound.eq_def, h]
  rfl

/-- The items of all polls up to the one that asks for more than is known. -/
inductive Polls : PacketStream → List (Option SourceEvent) → List Item → Prop where
  | starved {s s' : PacketStream} {answers answers' : List (Option SourceEvent)}
      (h : s.poll (answers.length + 2) answers = some (s', answers', .starved)) :
      Polls s answers []
  | pending {s s' : PacketStream} {answers answers' : List (Option SourceEvent)} {out : List Item}
      (h : s.poll (answers.length + 2) answers = some (s', answers', .pending))
      (later : Polls s' answers' out) : Polls s answers out
  | ready {s s' : PacketStream} {answers answers' : List (Option SourceEvent)} {out : List Item}
      {item? : Option Item}
      (h : s.poll (answers.length + 2) answers = some (s', answers', .ready item?))
      (later : Polls s' answers' out) : Polls s answers (item?.toList ++ out)

section Polls

variable {out : List Item}

theorem Polls.of_round (hAfter : s.reader = PacketReader.new.after pieces)
    (hRound : s.pollRound answers = (s', answers', none)) (later : Polls s' answers' out) :
    Polls s answers out := by
  have hPoll := poll_of_round hAfter hRound
  cases later with
  | starved h => exact .starved (hPoll.trans h)
  | pending h later => exact .pending (hPoll.trans h) later
  | ready h later => exact .ready (hPoll.trans h) later

theorem poll_of_result {result : Poll}
    (hRound : s.pollRound answers = (s', answers', some result)) (rounds : Nat) :
    poll (rounds + 1) s answers = some (s', answers', result) := by
  rw [poll, hRound]

/-- A round in which the reader is fed, with the item that it completes. -/
theorem Polls.of_feed {item? : Option Item} (hAfter : s.reader = PacketReader.new.after pieces)
    (hRound : s.pollRound answers = turn (s', item?) answers') (later : Polls s' answers' out) :
    Polls s answers (item?.toList ++ out) := by
  cases item? with
  | none => exact .of_round hAfter hRound later
  | some item => exact .ready (poll_of_result hRound _) later

/-- The polls that take what is left over return what is drained. -/
theorem Polls.of_drain {fuel : Nat} (hFuel : s.buffer.length ≤ fuel)
    (hAfter : s.reader = PacketReader.new.after pieces)
    (later : ∀ pieces', (drain fuel s).1.reader = PacketReader.new.after pieces' →
      Polls (drain fuel s).1 answers out) : Polls s answers ((drain fuel s).2 ++ out) := by
  induction fuel generalizing s pieces with
  | zero => exact later pieces hAfter
  | succ fuel ih =>
      by_cases hEmpty : s.buffer.isEmpty
      · rw [drain, if_pos hEmpty] at later ⊢
        exact later pieces hAfter
      · obtain ⟨held, holds⟩ := PacketReader.holds_after pieces
        rw [← hAfter] at holds
        generalize hFeed : s.feed s.buffer = result
        obtain ⟨s', item?⟩ := result
        have hRound : s.pollRound answers = turn (s', item?) answers := by
          rw [pollRound.eq_def, if_pos (by simpa using hEmpty), hFeed]
        have hDrain : drain (fuel + 1) s = ((drain fuel s').1, item?.toList ++ (drain fuel s').2) := by
          rw [drain, if_neg hEmpty, hFeed]
          cases item? <;> rfl
        have hShorter := feed_shorter holds hFeed
        rw [hDrain] at later ⊢
        rw [List.append_assoc]
        exact .of_feed hAfter hRound (ih (by omega) (after_feed hAfter hFeed) later)

/-- The polls that take in one event return the items of its step. -/
theorem Polls.of_step (hBuffer : s.buffer = []) (hAfter : s.reader = PacketReader.new.after pieces)
    (event : SourceEvent)
    (later : ∀ pieces', (s.step event).1.reader = PacketReader.new.after pieces' →
      Polls (s.step event).1 answers out) :
    Polls s (some event :: answers) ((s.step event).2 ++ out) := by
  have hIdle : drain s.buffer.length s = (s, []) := by
    rw [hBuffer]
    rfl
  cases event with
  | notReady =>
      simp only [step, accept, hIdle] at later ⊢
      exact .pending (poll_of_result (pollRound_of_empty hBuffer) _) (later pieces hAfter)
  | failure message =>
      have hRound : s.pollRound (some (.failure message) :: answers) =
          turn (s, some (.error (.source message))) answers := pollRound_of_empty hBuffer
      simp only [step, accept, hIdle] at later ⊢
      exact .of_feed hAfter hRound (later pieces hAfter)
  | chunk data =>
      generalize hFeed : s.feed data = result
      obtain ⟨s', item?⟩ := result
      have hRound : s.pollRound (some (.chunk data) :: answers) = turn (s', item?) answers := by
        rw [pollRound_of_empty hBuffer, ← hFeed]
        rfl
      simp only [step, accept, hFeed, List.append_assoc] at later ⊢
      exact .of_feed hAfter hRound (.of_drain (Nat.le_refl _) (after_feed hAfter hFeed) later)

/-- Polled until its source has ended, a stream returns all its items and no others. -/
theorem polls_items (hBuffer : s.buffer = []) (hAfter : s.reader = PacketReader.new.after pieces)
    (events : List SourceEvent) : Polls s (events.map some ++ [none]) (s.items events) := by
  induction events generalizing s pieces with
  | nil =>
      have hStarved : Polls s [] [] := .starved (poll_of_result (pollRound_of_empty hBuffer) _)
      have hLast : Polls s [none] (s.atEnd.toList ++ []) :=
        .ready (poll_of_result (pollRound_of_empty hBuffer) _) hStarved
      rwa [List.append_nil] at hLast
  | cons event events ih =>
      obtain ⟨held, holds⟩ := PacketReader.holds_after pieces
      rw [← hAfter] at holds
      obtain ⟨r', out, hStep, -⟩ := step_of_holds holds event
      have hTaken : (s.step event).1.buffer = [] := by
        obtain ⟨r, buffer⟩ := s
        subst hBuffer
        rw [hStep]
      exact .of_step hBuffer hAfter event fun pieces' hNext => ih hTaken hNext

end Polls

end PacketStream

/-- A packet reader after any puts waits for a header in nine bytes, fewer than nine of them filled, or for a
body of at least one and at most `maxStreamBody` bytes in a buffer of just this length, not all of it filled. So
in memory no difference falls below zero and all copied lengths agree, and two rounds of its loop are enough
for a put. A put without an item has taken all of its data; one with an item leaves the reader as it was at
first. Every round of a poll takes a byte that was left over or asks the source, and a poll returns or asks for
more within two more rounds than it is given answers of the source. -/
theorem reader_in_bounds :
    (∀ pieces : List Bytes, ∃ r m, PacketReader.new.after pieces = r ∧ r.InBounds ∧
      Reading.new.after pieces = .ok (some m) ∧ m.Shows r ∧
      ∀ data, ∃ r' m' rest item?, r.put data = (r', rest, item?) ∧
        m.loop 2 data = .ok (some (m', rest, item?)) ∧ m'.Shows r' ∧
        (item? = none ∧ rest = [] ∨ item?.isSome ∧ r' = .new)) ∧
    ∀ (pieces : List Bytes) (buffer : Bytes) (answers : List (Option SourceEvent)),
      ∃ s : PacketStream, s = ⟨PacketReader.new.after pieces, buffer⟩ ∧
        (∃ s' answers' poll?, s.pollRound answers = (s', answers', poll?) ∧
          (buffer ≠ [] ∧ s'.buffer.length < buffer.length ∧ answers' = answers ∨
            buffer = [] ∧ ((∃ answer, answers = answer :: answers') ∨
              answers = [] ∧ answers' = [] ∧ poll? = some .starved))) ∧
        ∃ s' answers' result, s.poll (answers.length + 2) answers = some (s', answers', result) ∧
          ∃ pieces', s'.reader = PacketReader.new.after pieces' := by
  refine ⟨fun pieces => ?_, fun pieces buffer answers => ?_⟩
  · obtain ⟨held, holds⟩ := PacketReader.holds_after pieces
    obtain ⟨m, hAfter, hShows⟩ := Reading.shows_new.after PacketReader.holds_new pieces
    refine ⟨_, m, rfl, holds.inBounds, hAfter, hShows, fun data => ?_⟩
    obtain ⟨r', rest, item?, hPut, -, hRest⟩ := holds.put_cases data
    obtain ⟨m', hLoop, hEnd⟩ := hShows.loop holds data
    rw [hPut] at hLoop hEnd
    exact ⟨r', m', rest, item?, hPut, hLoop, hEnd, hRest⟩
  · obtain ⟨held, holds⟩ := PacketReader.holds_after pieces
    refine ⟨⟨_, buffer⟩, rfl, ?_, PacketStream.poll_returns rfl ?_⟩
    · obtain ⟨s', answers', poll?, hRound, hDone⟩ :=
        PacketStream.rounds_pollRound ⟨PacketReader.new.after pieces, buffer⟩ answers
      exact ⟨s', answers', poll?, hRound, hDone.advances holds⟩
    · unfold PacketStream.roundsLeft
      split <;> omega

end PeerLink.Wire
