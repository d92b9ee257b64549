import Mathlib.Data.List.Induction
import Mathlib.Tactic.ByContra
import PeerLink.Proofs.Wire.Chunking

/-! A buffer that is fed one chunk after another. As long as fewer bytes than wanted have come, it holds them
all; from the chunk on that completes them it is the buffer of size zero, which asks for nothing. So a put is
judged by the bytes of all chunks up to it, wherever these are cut (`put_of_chunks`). -/
namespace PeerLink.Wire.ReadBuffer

/-- What comes of putting these chunks one after the other: the bytes that are left of each, and the wanted
bytes if they are handed out. What is left of a chunk is not put again. -/
def puts (b : ReadBuffer) : List Bytes → List (Bytes × Option Bytes)
  | [] => []
  | chunk :: chunks => (b.put chunk).2 :: puts (b.put chunk).1 chunks

/-- The buffer behind these chunks. -/
def after (b : ReadBuffer) (chunks : List Bytes) : ReadBuffer :=
  chunks.foldl (fun b chunk => (b.put chunk).1) b

/-- One of the chunks completed the wanted bytes. -/
def HandedOut (b : ReadBuffer) (chunks : List Bytes) : Prop :=
  ∃ result ∈ b.puts chunks, result.2.isSome

theorem after_concat (b : ReadBuffer) (chunks : List Bytes) (chunk : Bytes) :
    b.after (chunks ++ [chunk]) = ((b.after chunks).put chunk).1 := by
  rw [after, List.foldl_append]
  rfl

theorem puts_concat (b : ReadBuffer) (chunks : List Bytes) (chunk : Bytes) :
    b.puts (chunks ++ [chunk]) = b.puts chunks ++ [((b.after chunks).put chunk).2] := by
  induction chunks generalizing b with
  | nil => rfl
  | cons first chunks ih => exact congrArg ((b.put first).2 :: ·) (ih (b.put first).1)

theorem handedOut_concat {b : ReadBuffer} {chunks : List Bytes} {chunk : Bytes} :
    b.HandedOut (chunks ++ [chunk]) ↔
      b.HandedOut chunks ∨ ((b.after chunks).put chunk).2.2.isSome := by
  simp only [HandedOut, puts_concat, List.mem_append, List.mem_singleton, or_and_right, exists_or,
    exists_eq_left]

/-- A buffer of size zero is always complete, and takes nothing. -/
theorem put_zero (data : Bytes) : (new 0).put data = (new 0, data, some []) := rfl

section Chunks

variable {size : Nat} {chunks : List Bytes}

/-- Too few bytes are all held. -/
theorem after_of_short (h : chunks.flatten.length < size) :
    ((new size).after chunks).Holds size chunks.flatten := by
  induction chunks using List.reverseRecOn with
  | nil => exact holds_new h
  | append_singleton chunks chunk ih =>
      rw [List.flatten_concat] at h ⊢
      have hBefore : chunks.flatten.length < size := by
        rw [List.length_append] at h
        omega
      obtain ⟨b, hPut, hHolds⟩ := (ih hBefore).put_short h
      rw [after_concat, hPut]
      exact hHolds

/-- Once enough bytes have come, nothing is wanted. -/
theorem after_of_full (h : size ≤ chunks.flatten.length) : (new size).after chunks = new 0 := by
  induction chunks using List.reverseRecOn with
  | nil =>
      obtain rfl : size = 0 := Nat.le_zero.mp h
      rfl
  | append_singleton chunks chunk ih =>
      rw [after_concat]
      by_cases hBefore : size ≤ chunks.flatten.length
      · rw [ih hBefore, put_zero]
      · rw [List.flatten_concat] at h
        rw [(after_of_short (Nat.lt_of_not_le hBefore)).put_full h]

/-- A put hands the wanted bytes out exactly if enough have come with it. -/
theorem put_isSome_iff (chunk : Bytes) :
    ((((new size).after chunks).put chunk).2.2.isSome ↔ size ≤ (chunks.flatten ++ chunk).length) := by
  by_cases hBefore : size ≤ chunks.flatten.length
  · rw [after_of_full hBefore, put_zero, List.length_append]
    exact iff_of_true rfl (Nat.le_add_right_of_le hBefore)
  · have hHolds := after_of_short (Nat.lt_of_not_le hBefore)
    by_cases hFull : size ≤ (chunks.flatten ++ chunk).length
    · rw [hHolds.put_full hFull]
      exact iff_of_true rfl hFull
    · obtain ⟨b, hPut, -⟩ := hHolds.put_short (Nat.lt_of_not_le hFull)
      rw [hPut]
      exact iff_of_false Bool.false_ne_true hFull

/-- The bytes are handed out at the first chunk at which enough have come; for none, at the first chunk. -/
theorem handedOut_iff :
    (new size).HandedOut chunks ↔ chunks ≠ [] ∧ size ≤ chunks.flatten.length := by
  induction chunks using List.reverseRecOn with
  | nil => simp [HandedOut, puts]
  | append_singleton chunks chunk ih =>
      rw [handedOut_concat, put_isSome_iff, ih, List.flatten_concat, List.length_append]
      simp only [ne_eq, List.append_eq_nil_iff, List.cons_ne_self, and_false, not_false_eq_true,
        true_and]
      omega

/-- A buffer holds bytes from the first one that is put until they are handed out. -/
theorem bytes_after_eq_nil_iff :
    ((new size).after chunks).bytes = [] ↔ chunks.flatten = [] ∨ (new size).HandedOut chunks := by
  rw [handedOut_iff]
  by_cases hFull : size ≤ chunks.flatten.length
  · rw [after_of_full hFull]
    refine iff_of_true rfl ?_
    by_cases hNone : chunks = []
    · rw [hNone]
      exact .inl rfl
    · exact .inr ⟨hNone, hFull⟩
  · rw [(after_of_short (Nat.lt_of_not_le hFull)).bytes]
    exact (or_iff_left fun h => hFull h.2).symm

theorem isEmpty_after_iff :
    ((new size).after chunks).isEmpty ↔ ((new size).after chunks).bytes = [] := by
  by_cases hFull : size ≤ chunks.flatten.length
  · rw [after_of_full hFull]
    exact iff_of_true rfl rfl
  · have hHolds := after_of_short (Nat.lt_of_not_le hFull)
    rw [isEmpty, hHolds.count, hHolds.bytes, beq_iff_eq, List.length_eq_zero_iff]

end Chunks

/-- Any chunks, put one after another. A put is ready exactly if the chunks up to it have at least `size`
bytes. The first one that is ready hands out the first `size` of all these bytes and leaves what its chunk has
beyond them. Those before it take their chunks completely, and those behind it hand out nothing and take
nothing. The buffer is empty exactly if it holds no byte: none has been put yet, or all were handed out. -/
theorem put_of_chunks (size : Nat) (before : List Bytes) (chunk : Bytes) :
    (∃ b rest ready?, ((new size).after before).put chunk = (b, rest, ready?) ∧
      (ready?.isSome ↔ size ≤ (before.flatten ++ chunk).length) ∧
      (¬ (new size).HandedOut before → ready?.isSome →
        ready? = some ((before.flatten ++ chunk).take size) ∧
          rest = chunk.drop (size - before.flatten.length)) ∧
      (ready? = none → rest = [] ∧ b.bytes = before.flatten ++ chunk) ∧
      ((new size).HandedOut before → ready? = some [] ∧ rest = chunk)) ∧
    (((new size).after before).isEmpty ↔ ((new size).after before).bytes = []) ∧
    (((new size).after before).bytes = [] ↔ before.flatten = [] ∨ (new size).HandedOut before) := by
  refine ⟨?_, isEmpty_after_iff, bytes_after_eq_nil_iff⟩
  by_cases hBefore : size ≤ before.flatten.length
  · -- Nothing is wanted any more, or nothing was wanted from the start.
    have hAll : size ≤ (before.flatten ++ chunk).length := by
      rw [List.length_append]
      omega
    rw [after_of_full hBefore, put_zero]
    refine ⟨_, _, _, rfl, iff_of_true rfl hAll, fun hFirst _ => ?_, nofun, fun _ => ⟨rfl, rfl⟩⟩
    have hNone : before = [] := by
      by_contra hSome
      exact hFirst (handedOut_iff.mpr ⟨hSome, hBefore⟩)
    subst hNone
    obtain rfl : size = 0 := Nat.le_zero.mp hBefore
    exact ⟨rfl, rfl⟩
  · have hNot : ¬ (new size).HandedOut before := fun h => hBefore (handedOut_iff.mp h).2
    have hHolds := after_of_short (Nat.lt_of_not_le hBefore)
    by_cases hFull : size ≤ (before.flatten ++ chunk).length
    · rw [hHolds.put_full hFull]
      refine ⟨_, _, _, rfl, iff_of_true rfl hFull, fun _ _ => ⟨rfl, ?_⟩, nofun,
        fun h => absurd h hNot⟩
      rw [List.drop_append, List.drop_eq_nil_of_le (by omega), List.nil_append]
    · obtain ⟨b, hPut, hHeld⟩ := hHolds.put_short (Nat.lt_of_not_le hFull)
      exact ⟨b, [], none, hPut, iff_of_false Bool.false_ne_true hFull, nofun,
        fun _ => ⟨rfl, hHeld.bytes⟩, fun h => absurd h hNot⟩

/-- Three bytes are wanted. They are complete within the fourth chunk, behind an empty one, and the fifth is
not looked at. -/
theorem put_of_five_chunks :
    (new 3).puts [[1], [], [2], [3, 4, 5], [6]] =
        [([], none), ([], none), ([], none), ([4, 5], some [1, 2, 3]), ([6], some [])] ∧
      ¬ (new 3).HandedOut [[1], [], [2]] ∧ (new 3).HandedOut [[1], [], [2], [3, 4, 5]] ∧
      (((new 3).after [[1], [], [2]]).put [3, 4, 5]).2 = ([4, 5], some [1, 2, 3]) ∧
      (((new 3).after [[1], [], [2], [3, 4, 5]]).put [6]).2 = ([6], some []) ∧
      (((new 3).after [[1]]).put []).2 = ([], none) := by
  have hFirst : ¬ (new 3).HandedOut [[1], [], [2]] := by
    rw [handedOut_iff]
    decide
  have hLater : (new 3).HandedOut [[1], [], [2], [3, 4, 5]] := by
    rw [handedOut_iff]
    decide
  refine ⟨by decide, hFirst, hLater, ?_, ?_, ?_⟩
  · obtain ⟨⟨b, rest, ready?, hPut, hReady, hTake, -⟩, -⟩ := put_of_chunks 3 [[1], [], [2]] [3, 4, 5]
    obtain ⟨rfl, rfl⟩ := hTake hFirst (hReady.mpr (by decide))
    rw [hPut]
    rfl
  · obtain ⟨⟨b, rest, ready?, hPut, -, -, -, hOver⟩, -⟩ :=
      put_of_chunks 3 [[1], [], [2], [3, 4, 5]] [6]
    obtain ⟨rfl, rfl⟩ := hOver hLater
    rw [hPut]
  · obtain ⟨⟨b, rest, ready?, hPut, hReady, -, hWait, -⟩, -⟩ := put_of_chunks 3 [[1]] []
    have hNone : ready? = none := by
      rw [← Option.not_isSome_iff_eq_none, hReady]
      decide
    rw [hPut, (hWait hNone).1, hNone]

end PeerLink.Wire.ReadBuffer
