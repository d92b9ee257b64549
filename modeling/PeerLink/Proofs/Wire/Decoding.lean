import PeerLink.Wire.PacketStream

/-! A whole byte string read as packets. `decodeAll` needs all bytes at once and has no state, so it says
what a stream of packets must yield however its bytes arrive. Reading is from the front: the items that
some bytes complete stay the same when more bytes follow (`splitItems_append`). -/
namespace PeerLink.Wire

/-- The first item that the bytes complete, and the bytes behind it. A header that cannot be used is an
item of its own, and reading goes on with the next byte. -/
def firstItem? (data : Bytes) : Option (Item × Bytes) :=
  if data.length < Header.size then none
  else
    let rest := data.drop Header.size
    match Header.parse (data.take Header.size) with
    | .error cause => some (.error (.invalidHeader cause), rest)
    | .ok h =>
      if h.bodyLength.toNat > maxStreamBody then some (.error (.bodyTooLarge h.bodyLength), rest)
      else if rest.length < h.bodyLength.toNat then none
      else
        some ((parse h (rest.take h.bodyLength.toNat)).mapError .packet,
          rest.drop h.bodyLength.toNat)

/-- What can come first: nothing that is complete, a header that cannot be used, or a packet. -/
theorem firstItem?_cases (data : Bytes) :
    firstItem? data = none ∨
    Header.size ≤ data.length ∧
      ((∃ e : StreamReadError, (∀ message, e ≠ .source message) ∧
          ∀ more, firstItem? (data ++ more) = some (.error e, data.drop Header.size ++ more)) ∨
        ∃ h : Header, h.bodyLength.toNat ≤ (data.drop Header.size).length ∧
          ∀ more, firstItem? (data ++ more) =
            some ((parse h ((data.drop Header.size).take h.bodyLength.toNat)).mapError .packet,
              (data.drop Header.size).drop h.bodyLength.toNat ++ more)) := by
  by_cases hShort : data.length < Header.size
  · exact .inl (by rw [firstItem?, if_pos hShort])
  have hLong : Header.size ≤ data.length := Nat.le_of_not_lt hShort
  have hMore : ∀ more : Bytes, ¬ (data ++ more).length < Header.size := fun more => by
    rw [List.length_append]
    omega
  cases hParse : Header.parse (data.take Header.size) with
  | error cause =>
      refine .inr ⟨hLong, .inl ⟨.invalidHeader cause, nofun, fun more => ?_⟩⟩
      rw [firstItem?, if_neg (hMore more), List.take_append_of_le_length hLong,
        List.drop_append_of_le_length hLong, hParse]
  | ok h =>
      by_cases hLarge : h.bodyLength.toNat > maxStreamBody
      · refine .inr ⟨hLong, .inl ⟨.bodyTooLarge h.bodyLength, nofun, fun more => ?_⟩⟩
        rw [firstItem?, if_neg (hMore more), List.take_append_of_le_length hLong,
          List.drop_append_of_le_length hLong, hParse]
        exact if_pos hLarge
      · by_cases hBody : (data.drop Header.size).length < h.bodyLength.toNat
        · left
          rw [firstItem?, if_neg hShort, hParse]
          exact (if_neg hLarge).trans (if_pos hBody)
        · have hFits := Nat.le_of_not_lt hBody
          refine .inr ⟨hLong, .inr ⟨h, hFits, fun more => ?_⟩⟩
          rw [firstItem?, if_neg (hMore more), List.take_append_of_le_length hLong,
            List.drop_append_of_le_length hLong, hParse]
          dsimp only
          rw [if_neg hLarge, if_neg (by rw [List.length_append]; omega),
            List.take_append_of_le_length hFits, List.drop_append_of_le_length hFits]

/-- The first item takes bytes away and is none of the source's. It stays when more bytes follow. -/
theorem firstItem?_eq_some {data rest : Bytes} {item : Item}
    (h : firstItem? data = some (item, rest)) :
    rest.length < data.length ∧ (∀ message, item ≠ .error (.source message)) ∧
      ∀ more, firstItem? (data ++ more) = some (item, rest ++ more) := by
  obtain hNone | ⟨hLong, ⟨e, hSource, hFirst⟩ | ⟨header, hFits, hFirst⟩⟩ := firstItem?_cases data
  · rw [hNone] at h
    cases h
  · have hSame := hFirst []
    rw [List.append_nil, h] at hSame
    cases hSame
    simp only [List.append_nil, List.length_drop, Header.size] at hLong hFirst ⊢
    exact ⟨by omega, fun message he => hSource message (Except.error.inj he), hFirst⟩
  · have hSame := hFirst []
    rw [List.append_nil, h] at hSame
    cases hSame
    simp only [List.append_nil, List.length_drop, Header.size] at hLong hFirst ⊢
    refine ⟨by omega, fun message he => ?_, hFirst⟩
    cases hPacket : parse header ((data.drop 9).take header.bodyLength.toNat) with
    | ok e => rw [hPacket] at he; cases he
    | error cause => rw [hPacket] at he; cases he

/-- The items of a byte string. Bytes left over at the end are a packet that was cut off. -/
def decodeAll (data : Bytes) : List Item :=
  match _h : firstItem? data with
  | some (item, rest) => item :: decodeAll rest
  | none => if data.isEmpty then [] else [.error .unexpectedEnd]
termination_by data.length
decreasing_by exact (firstItem?_eq_some _h).1

theorem decodeAll_of_some {data rest : Bytes} {item : Item}
    (h : firstItem? data = some (item, rest)) : decodeAll data = item :: decodeAll rest := by
  rw [decodeAll]
  split
  · next hSome =>
      rw [h] at hSome
      cases hSome
      rfl
  · next hNone => rw [h] at hNone; cases hNone

theorem decodeAll_of_none {data : Bytes} (h : firstItem? data = none) :
    decodeAll data = if data.isEmpty then [] else [.error .unexpectedEnd] := by
  rw [decodeAll]
  split
  · next hSome => rw [h] at hSome; cases hSome
  · rfl

/-- The items that a byte string completes, and the bytes behind them. -/
def splitItems (data : Bytes) : List Item × Bytes :=
  match _h : firstItem? data with
  | some (item, rest) =>
    let behind := splitItems rest
    (item :: behind.1, behind.2)
  | none => ([], data)
termination_by data.length
decreasing_by exact (firstItem?_eq_some _h).1

/-- The items that a byte string completes. -/
def completed (data : Bytes) : List Item :=
  (splitItems data).1

theorem splitItems_of_none {data : Bytes} (h : firstItem? data = none) :
    splitItems data = ([], data) := by
  rw [splitItems]
  split
  · next hSome => rw [h] at hSome; cases hSome
  · rfl

theorem splitItems_of_some {data rest : Bytes} {item : Item}
    (h : firstItem? data = some (item, rest)) :
    splitItems data = (item :: (splitItems rest).1, (splitItems rest).2) := by
  rw [splitItems]
  split
  · next hSome =>
      rw [h] at hSome
      cases hSome
      rfl
  · next hNone => rw [h] at hNone; cases hNone

@[simp] theorem splitItems_nil : splitItems [] = ([], []) :=
  splitItems_of_none rfl

/-- What is left over completes nothing. -/
theorem firstItem?_splitItems (data : Bytes) : firstItem? (splitItems data).2 = none := by
  induction data using splitItems.induct with
  | case1 data item rest hFirst ih => rw [splitItems_of_some hFirst]; exact ih
  | case2 data hFirst => rw [splitItems_of_none hFirst, hFirst]

/-- All items are the completed ones, and one more for what is left over. -/
theorem decodeAll_eq (data : Bytes) : decodeAll data =
    completed data ++ if (splitItems data).2.isEmpty then [] else [.error .unexpectedEnd] := by
  unfold completed
  induction data using splitItems.induct with
  | case1 data item rest hFirst ih =>
      rw [decodeAll_of_some hFirst, splitItems_of_some hFirst, ih, List.cons_append]
  | case2 data hFirst =>
      rw [decodeAll_of_none hFirst, splitItems_of_none hFirst, List.nil_append]

/-- Items that are complete stay, and reading goes on with what was left over. -/
theorem splitItems_append (data more : Bytes) : splitItems (data ++ more) =
    ((splitItems data).1 ++ (splitItems ((splitItems data).2 ++ more)).1,
      (splitItems ((splitItems data).2 ++ more)).2) := by
  induction data using splitItems.induct with
  | case1 data item rest hFirst ih =>
      rw [splitItems_of_some hFirst, splitItems_of_some ((firstItem?_eq_some hFirst).2.2 more), ih,
        List.cons_append]
  | case2 data hFirst => rw [splitItems_of_none hFirst, List.nil_append]

/-- The message of a failure of the source, if the item is one. -/
def sourceFailure? : Item → Option String
  | .error (.source message) => some message
  | _ => none

/-- No bytes are read as a failure of the source. -/
theorem sourceFailure?_of_mem_completed {data : Bytes} {item : Item}
    (h : item ∈ completed data) : sourceFailure? item = none := by
  unfold completed at h
  induction data using splitItems.induct with
  | case1 data first rest hFirst ih =>
      rw [splitItems_of_some hFirst] at h
      rcases List.mem_cons.mp h with rfl | h
      · unfold sourceFailure?
        split
        · next message => exact absurd rfl ((firstItem?_eq_some hFirst).2.1 message)
        · rfl
      · exact ih h
  | case2 data hFirst =>
      rw [splitItems_of_none hFirst] at h
      cases h

end PeerLink.Wire
