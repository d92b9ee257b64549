import Mathlib.Order.Bounds.Defs
import PeerLink.Proofs.IdTable
import PeerLink.Session.Basic

/-! How an id is found for a call or a stream. Each round tries the id at which the counter stands and moves
the counter on. An id in use keeps its entry, and the slot goes on to the next round. Nothing in a round
bounds their number. It is bounded because every id that is passed over has an entry of its own, so that the
table would run out of entries before the search runs out of ids. What the search comes to is what `allocate`
gives (`allocate_smallest_free`), also where the counter has to go round first (`search_ends`). -/
namespace PeerLink

namespace IdTable

variable {α : Type}

theorem toInt_add_ofNat {id j : Int32} {k : Nat} (h : id.toInt + k ≤ j.toInt) :
    (id + Int32.ofNat k).toInt = id.toInt + k := by
  have hLow := id.le_toInt
  have hHigh := j.toInt_lt
  rw [← Int32.ofInt_eq_ofNat]
  nth_rewrite 1 [← Int32.ofInt_toInt id]
  rw [← Int32.ofInt_add, Int32.toInt_ofInt_of_le (by omega) (by omega)]

/-- From an id to one that is not below it, it takes fewer steps than there are ids. -/
theorem exists_add_ofNat {id j : Int32} (h : id ≤ j) :
    ∃ d < 2 ^ 32, id + Int32.ofNat d = j ∧ id.toInt + d = j.toInt := by
  have hOrder := Int32.le_iff_toInt_le.mp h
  have hLow := id.le_toInt
  have hHigh := j.toInt_lt
  have hSteps : id.toInt + ((j.toInt - id.toInt).toNat : Int) = j.toInt := by omega
  refine ⟨(j.toInt - id.toInt).toNat, by omega, ?_, hSteps⟩
  rw [← Int32.toInt_inj, toInt_add_ofNat (Int.le_of_eq hSteps), hSteps]

/-- A free id that is reached over ids in use, without going round, is the smallest one. -/
theorem isLeast_of_used {t : IdTable α} {id j : Int32} {k : Nat}
    (hRoom : id.toInt + k ≤ j.toInt) (hFree : id + Int32.ofNat k ∉ t.keys)
    (hUsed : ∀ i < k, id + Int32.ofNat i ∈ t.keys) :
    IsLeast { j | id ≤ j ∧ j ∉ t.keys } (id + Int32.ofNat k) := by
  have hFound := toInt_add_ofNat hRoom
  constructor
  · refine ⟨Int32.le_iff_toInt_le.mpr ?_, hFree⟩
    omega
  · rintro other ⟨hAbove, hOther⟩
    obtain ⟨d, -, rfl, hSteps⟩ := exists_add_ofNat hAbove
    have hNotBefore : k ≤ d := Nat.le_of_not_lt fun hBefore => hOther (hUsed d hBefore)
    apply Int32.le_iff_toInt_le.mpr
    omega

end IdTable

namespace Session

variable {M S : Type} {s : Session M S} {slot : Slot}

/-- An id in use keeps its entry, and the slot is not lost. -/
theorem tryNext_of_used (h : s.nextId ∈ s.pending.keys) :
    s.tryNext slot = (s.nextId, some slot, { s with nextId := s.nextId + 1 }) := by
  rw [tryNext, IdTable.insertIfNew, if_pos ((IdTable.contains_iff _ _).mpr h)]

theorem tryNext_of_free (h : s.nextId ∉ s.pending.keys) :
    s.tryNext slot =
      (s.nextId, none,
        { s with pending := s.pending.insert s.nextId slot, nextId := s.nextId + 1 }) := by
  rw [tryNext, IdTable.insertIfNew, if_neg (mt (IdTable.contains_iff _ _).mp h)]

/-- Behind a row of ids in use, the search ends with the round that tries the first free one. -/
theorem search_of_used {k : Nat} (hUsed : ∀ i < k, s.nextId + Int32.ofNat i ∈ s.pending.keys)
    (hFree : s.nextId + Int32.ofNat k ∉ s.pending.keys) (rounds : Nat) :
    s.search slot rounds =
      if rounds < k + 1 then none
      else some (s.nextId + Int32.ofNat k,
        { s with
          pending := s.pending.insert (s.nextId + Int32.ofNat k) slot
          nextId := s.nextId + Int32.ofNat k + 1 }) := by
  induction k generalizing s rounds with
  | zero =>
      rw [IdTable.add_ofNat_zero] at hFree ⊢
      cases rounds with
      | zero => rfl
      | succ rounds => rw [search, tryNext_of_free hFree, if_neg (by omega)]
  | succ k ih =>
      cases rounds with
      | zero => rfl
      | succ rounds =>
          have hFirst : s.nextId ∈ s.pending.keys := by
            have hStart := hUsed 0 (Nat.succ_pos k)
            rwa [IdTable.add_ofNat_zero] at hStart
          rw [IdTable.add_ofNat_succ] at hFree ⊢
          have hRest : ∀ i < k, s.nextId + 1 + Int32.ofNat i ∈ s.pending.keys := by
            intro i hi
            rw [← IdTable.add_ofNat_succ]
            exact hUsed (i + 1) (Nat.succ_lt_succ hi)
          have hGoesOn := @ih { s with nextId := s.nextId + 1 } hRest hFree rounds
          rw [search, tryNext_of_used hFirst]
          simp only [hGoesOn, Nat.succ_lt_succ_iff]

/-- Wherever a free id lies ahead, also where the counter has to go round to reach it, the search ends with
what `allocate` gives. -/
theorem search_ends {d : Nat} (hd : d < 2 ^ 32)
    (hFree : s.nextId + Int32.ofNat d ∉ s.pending.keys) (slot : Slot) :
    ∃ k ≤ d, k ≤ s.pending.size ∧ s.nextId + Int32.ofNat k ∉ s.pending.keys ∧
      (∀ i < k, s.nextId + Int32.ofNat i ∈ s.pending.keys) ∧
      s.pending.free s.nextId = s.nextId + Int32.ofNat k ∧
      ∀ rounds, s.search slot rounds = if rounds < k + 1 then none else some (s.allocate slot) := by
  obtain ⟨k, hk, hSize, hSearch, hFound, hUsed⟩ := IdTable.free_of_free_ahead hd hFree
  refine ⟨k, hk, hSize, hFound, hUsed, hSearch, fun rounds => ?_⟩
  rw [search_of_used hUsed hFound, allocate, hSearch]

/-- The search for an id ends, whatever the table holds and wherever the counter stands, as long as some id
from the counter up is free, so that the counter does not run over. It takes one round for each id up to the
one that is found, which is at most one more than there are entries, and comes to what `allocate` gives. The
id is the smallest free one from the counter up. The slot is inserted under it behind the entries of the
table, which all stay as they are, the counter goes on to the next id, and nothing else has changed. -/
theorem allocate_smallest_free (s : Session M S) (slot : Slot)
    (hRoom : ∃ j, s.nextId ≤ j ∧ s.pending.get? j = none) :
    ∃ id s', s.allocate slot = (id, s') ∧
      (∃ rounds ≤ s.pending.size + 1, id.toInt + 1 = s.nextId.toInt + rounds ∧
        ∀ limit, s.search slot limit = if limit < rounds then none else some (id, s')) ∧
      IsLeast { j | s.nextId ≤ j ∧ s.pending.get? j = none } id ∧
      s'.pending.entries = s.pending.entries ++ [(id, slot)] ∧
      (∀ j, s'.pending.get? j = if j = id then some slot else s.pending.get? j) ∧
      s' = { s with pending := s'.pending, nextId := id + 1 } := by
  obtain ⟨j, hAbove, hFree⟩ := hRoom
  obtain ⟨d, hd, rfl, hSteps⟩ := IdTable.exists_add_ofNat hAbove
  rw [IdTable.get?_eq_none_iff] at hFree
  obtain ⟨k, hk, hSize, hFound, hUsed, hSearch, hEnds⟩ := search_ends hd hFree slot
  have hAllocate : s.allocate slot = (s.nextId + Int32.ofNat k,
      { s with
        pending := s.pending.insert (s.nextId + Int32.ofNat k) slot
        nextId := s.nextId + Int32.ofNat k + 1 }) := by
    rw [allocate, hSearch]
  rw [hAllocate] at hEnds
  have hBelow : s.nextId.toInt + k ≤ (s.nextId + Int32.ofNat d).toInt := by omega
  refine ⟨_, _, hAllocate, ⟨k + 1, Nat.succ_le_succ hSize, ?_, hEnds⟩, ?_, ?_, ?_, rfl⟩
  · rw [IdTable.toInt_add_ofNat hBelow]
    omega
  · simp only [IdTable.get?_eq_none_iff]
    exact IdTable.isLeast_of_used hBelow hFound hUsed
  · have hNew := IdTable.erase_of_get?_eq_none ((IdTable.get?_eq_none_iff _ _).mpr hFound)
    rw [IdTable.insert, hNew]
  · intro other
    exact IdTable.get?_insert _ _ _ _

/-- The counter stands at an id in use, and the next one is in use as well. The third round finds a free id,
whatever is in use behind it or below the counter, and the entries stay in their places. -/
theorem allocate_smallest_free_over_two : ∃ s s' : Session Unit Unit,
    s.nextId = 5 ∧ s.pending.keys = [8, 6, 2, 5] ∧ (∃ j, s.nextId ≤ j ∧ s.pending.get? j = none) ∧
      s.allocate (.stream 1) = (7, s') ∧ s.search (.stream 1) 2 = none ∧
      s.search (.stream 1) 3 = some (7, s') ∧
      IsLeast { j | s.nextId ≤ j ∧ s.pending.get? j = none } 7 ∧
      s'.pending.entries = s.pending.entries ++ [(7, .stream 1)] ∧ s'.nextId = 8 := by
  let s : Session Unit Unit :=
    { Session.new Registry.empty none 1 0 with
      pending := ⟨[(8, .stream 0), (6, .call 1 true), (2, .call 0 false), (5, .call 2 true)]⟩
      nextId := 5 }
  have hRoom : ∃ j, s.nextId ≤ j ∧ s.pending.get? j = none := ⟨7, by decide, by decide⟩
  obtain ⟨id, s', hAllocate, ⟨rounds, -, hRounds, hSearch⟩, hLeast, hEntries, -, hRest⟩ :=
    allocate_smallest_free s (.stream 1) hRoom
  obtain rfl : id = 7 := (congrArg Prod.fst hAllocate).symm.trans (by decide)
  obtain rfl : rounds = 3 := by
    have hIds : (7 : Int32).toInt + 1 = (5 : Int32).toInt + 3 := by decide
    have hCounter : s.nextId.toInt = (5 : Int32).toInt := rfl
    omega
  exact ⟨s, s', rfl, rfl, hRoom, hAllocate, hSearch 2, hSearch 3, hLeast, hEntries,
    congrArg Session.nextId hRest⟩

end Session

end PeerLink
