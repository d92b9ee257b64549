import Mathlib.Algebra.Group.Nat.Defs
import Mathlib.Data.List.Nodup
import Mathlib.Data.List.Perm.Basic
import PeerLink.IdTable

/-! A table read as a finite map from ids. Every operation is described by what `get?` finds
afterwards. That the ids of the entries are distinct is kept apart, since `get?` alone cannot see an
entry behind another one with the same id. -/
namespace PeerLink.IdTable

variable {α : Type}

/-- The ids that have an entry. -/
def keys (t : IdTable α) : List Int32 :=
  t.entries.map Prod.fst

@[simp] theorem get?_empty (id : Int32) : (empty : IdTable α).get? id = none := rfl

@[simp] theorem keys_empty : (empty : IdTable α).keys = [] := rfl

theorem length_keys (t : IdTable α) : t.keys.length = t.size := by
  simp [keys, size]

theorem get?_eq_none_iff (t : IdTable α) (id : Int32) : t.get? id = none ↔ id ∉ t.keys := by
  simp only [get?, keys, List.lookup_eq_none_iff, List.mem_map, not_exists, not_and]
  constructor
  · intro h e he hid
    have hne := h e he
    simp [hid] at hne
  · intro h e he
    simpa using fun hid => h e he hid.symm

theorem mem_keys_iff (t : IdTable α) (id : Int32) : id ∈ t.keys ↔ ∃ a, t.get? id = some a := by
  rw [← Option.isSome_iff_exists, ← not_iff_not, ← get?_eq_none_iff]
  simp

theorem contains_iff (t : IdTable α) (id : Int32) : t.contains id = true ↔ id ∈ t.keys := by
  rw [mem_keys_iff, contains, Option.isSome_iff_exists]

theorem get?_of_mem {t : IdTable α} (h : t.keys.Nodup) {id : Int32} {a : α}
    (he : (id, a) ∈ t.entries) : t.get? id = some a := by
  obtain ⟨entries⟩ := t
  simp only [keys, get?] at h he ⊢
  induction entries with
  | nil => simp at he
  | cons e rest ih =>
      obtain ⟨j, b⟩ := e
      obtain ⟨hFirst, hRest⟩ := List.nodup_cons.mp h
      rcases List.mem_cons.mp he with he | he
      · obtain ⟨rfl, rfl⟩ := Prod.mk.inj he
        simp
      · have hne : id ≠ j := fun hid =>
          hFirst (List.mem_map.mpr ⟨(id, a), he, hid⟩)
        rw [List.lookup_cons, beq_eq_false_iff_ne.mpr hne]
        exact ih hRest he

theorem mem_of_get? {t : IdTable α} {id : Int32} {a : α} (h : t.get? id = some a) :
    (id, a) ∈ t.entries := by
  obtain ⟨before, after, hs, _⟩ := List.lookup_eq_some_iff.mp h
  rw [hs]
  simp

theorem eq_empty_of_get? {t : IdTable α} (h : ∀ id, t.get? id = none) : t = .empty := by
  obtain ⟨entries⟩ := t
  cases entries with
  | nil => rfl
  | cons e rest => exact absurd (h e.1) (by simp [get?])

@[simp] theorem get?_erase (t : IdTable α) (id j : Int32) :
    (t.erase id).get? j = if j = id then none else t.get? j := by
  obtain ⟨entries⟩ := t
  simp only [get?, erase]
  induction entries with
  | nil => simp
  | cons e rest ih =>
      obtain ⟨k, b⟩ := e
      by_cases hk : k = id
      · subst k
        by_cases hj : j = id
        · simpa [hj] using ih
        · rw [List.lookup_cons, beq_eq_false_iff_ne.mpr hj]
          simpa [hj] using ih
      · simp only [List.filter_cons, ne_eq, hk, not_false_eq_true, decide_true, if_true,
          List.lookup_cons]
        by_cases hj : j = k
        · simp [hj, hk]
        · simpa [beq_eq_false_iff_ne.mpr hj] using ih

theorem erase_of_get?_eq_none {t : IdTable α} {id : Int32} (h : t.get? id = none) :
    t.erase id = t := by
  have hKeys := (get?_eq_none_iff t id).mp h
  obtain ⟨entries⟩ := t
  simp only [erase, IdTable.mk.injEq, List.filter_eq_self]
  intro e he
  simpa using fun hSame => hKeys (List.mem_map.mpr ⟨e, he, hSame⟩)

theorem keys_erase (t : IdTable α) (id : Int32) : (t.erase id).keys = t.keys.filter (· ≠ id) := by
  simp [keys, erase, List.filter_map, Function.comp_def]

theorem nodup_keys_erase {t : IdTable α} (h : t.keys.Nodup) (id : Int32) :
    (t.erase id).keys.Nodup := by
  rw [keys_erase]
  exact h.filter _

@[simp] theorem get?_insert (t : IdTable α) (id j : Int32) (a : α) :
    (t.insert id a).get? j = if j = id then some a else t.get? j := by
  have hErased := get?_erase t id j
  simp only [get?, insert, List.lookup_append] at hErased ⊢
  rw [hErased]
  by_cases hj : j = id
  · simp [hj]
  · simp [hj, beq_eq_false_iff_ne.mpr hj, List.lookup_cons]

theorem keys_insert (t : IdTable α) (id : Int32) (a : α) :
    (t.insert id a).keys = t.keys.filter (· ≠ id) ++ [id] := by
  rw [← keys_erase]
  simp [keys, insert]

theorem nodup_keys_insert {t : IdTable α} (h : t.keys.Nodup) (id : Int32) (a : α) :
    (t.insert id a).keys.Nodup := by
  rw [keys_insert, List.nodup_append]
  refine ⟨h.filter _, List.nodup_singleton id, ?_⟩
  simp

@[simp] theorem keys_modify (t : IdTable α) (id : Int32) (f : α → α) :
    (t.modify id f).keys = t.keys := by
  simp only [keys, modify, List.map_map, List.map_inj_left]
  intro e _
  by_cases he : e.1 = id <;> simp [he]

@[simp] theorem get?_modify (t : IdTable α) (id j : Int32) (f : α → α) :
    (t.modify id f).get? j = if j = id then (t.get? j).map f else t.get? j := by
  obtain ⟨entries⟩ := t
  simp only [get?, modify]
  induction entries with
  | nil => simp
  | cons e rest ih =>
      obtain ⟨k, b⟩ := e
      by_cases hj : j = k
      · by_cases hk : k = id <;> simp [hj, hk]
      · have hne : (j == k) = false := beq_eq_false_iff_ne.mpr hj
        by_cases hk : k = id
        · subst k
          simpa [hj, List.lookup_cons, hne] using ih
        · simpa [hk, List.lookup_cons, hne] using ih

/-- An id without entry is free itself, so the search does not move on. -/
theorem free_of_not_mem {t : IdTable α} {id : Int32} (h : id ∉ t.keys) : t.free id = id := by
  have hFree : t.contains id = false := by
    rw [Bool.eq_false_iff, ne_eq, contains_iff]
    exact h
  unfold free
  cases t.size with
  | zero => rfl
  | succ fuel => simp [freeFrom, hFree]

theorem add_ofNat_zero (id : Int32) : id + Int32.ofNat 0 = id :=
  Int32.add_zero id

theorem ofNat_inj_of_lt {a b : Nat} (ha : a < 2 ^ 32) (hb : b < 2 ^ 32)
    (h : Int32.ofNat a = Int32.ofNat b) : a = b := by
  have hBits := congrArg (fun x : Int32 => x.toBitVec.toNat) h
  simp only [Int32.toBitVec_ofNat', BitVec.toNat_ofNat] at hBits
  omega

/-- An id further on is one less far from the next id. -/
theorem add_ofNat_succ (id : Int32) (k : Nat) :
    id + Int32.ofNat (k + 1) = id + 1 + Int32.ofNat k := by
  rw [Int32.add_assoc, Int32.ofNat_add, Int32.add_comm (Int32.ofNat k)]
  rfl

/-- The search passes over nothing but ids in use, and it only ends at such an id if it may go no
further. -/
theorem freeFrom_cases (t : IdTable α) (fuel : Nat) (id : Int32) :
    ∃ k ≤ fuel, t.freeFrom fuel id = id + Int32.ofNat k ∧
      (∀ i < k, id + Int32.ofNat i ∈ t.keys) ∧ (k = fuel ∨ id + Int32.ofNat k ∉ t.keys) := by
  induction fuel generalizing id with
  | zero => exact ⟨0, Nat.le_refl 0, (add_ofNat_zero id).symm, nofun, .inl rfl⟩
  | succ fuel ih =>
      rw [freeFrom]
      split
      · next hUsed =>
          obtain ⟨k, hk, he, hBefore, hEnd⟩ := ih (id + 1)
          refine ⟨k + 1, Nat.succ_le_succ hk, he.trans (add_ofNat_succ id k).symm, ?_, ?_⟩
          · intro i hi
            cases i with
            | zero =>
                rw [add_ofNat_zero]
                exact (contains_iff t id).mp hUsed
            | succ i =>
                rw [add_ofNat_succ]
                exact hBefore i (Nat.lt_of_succ_lt_succ hi)
          · rw [add_ofNat_succ]
            exact hEnd.imp_left (congrArg Nat.succ)
      · next hFree =>
          refine ⟨0, Nat.zero_le _, (add_ofNat_zero id).symm, nofun, .inr fun hMem => hFree ?_⟩
          rw [add_ofNat_zero] at hMem
          exact (contains_iff t id).mpr hMem

/-- Each id in use in a row has an entry of its own. -/
theorem le_size_of_used {t : IdTable α} {id : Int32} {n : Nat} (hn : n ≤ 2 ^ 32)
    (hUsed : ∀ k < n, id + Int32.ofNat k ∈ t.keys) : n ≤ t.size := by
  have hRow : (List.range n).map (fun k => id + Int32.ofNat k) ⊆ t.keys := by
    intro j hj
    obtain ⟨k, hk, rfl⟩ := List.mem_map.mp hj
    exact hUsed k (List.mem_range.mp hk)
  have hNodup : ((List.range n).map fun k => id + Int32.ofNat k).Nodup := by
    refine List.Nodup.map_on (fun a ha b hb hab => ?_) List.nodup_range
    have hLeft := List.mem_range.mp ha
    have hRight := List.mem_range.mp hb
    exact ofNat_inj_of_lt (by omega) (by omega) ((Int32.add_right_inj id).mp hab)
  have hLength := (List.subperm_of_subset hNodup hRow).length_le
  rwa [List.length_map, List.length_range, length_keys] at hLength

/-- If the id some steps ahead is free, then the search ends at the first free id, there or before. It
passes over no more ids than there are entries. -/
theorem free_of_free_ahead {t : IdTable α} {id : Int32} {d : Nat} (hd : d < 2 ^ 32)
    (hFree : id + Int32.ofNat d ∉ t.keys) :
    ∃ k ≤ d, k ≤ t.size ∧ t.free id = id + Int32.ofNat k ∧ id + Int32.ofNat k ∉ t.keys ∧
      ∀ i < k, id + Int32.ofNat i ∈ t.keys := by
  obtain ⟨k, hk, he, hBefore, hEnd⟩ := freeFrom_cases t t.size id
  have hAhead : k ≤ d := Nat.le_of_not_lt fun hPassed => hFree (hBefore d hPassed)
  refine ⟨k, hAhead, hk, he, ?_, hBefore⟩
  obtain rfl | hEnd := hEnd
  · -- All ids that were tried are one more than there are entries.
    intro hMem
    have hUsed : ∀ i < t.size + 1, id + Int32.ofNat i ∈ t.keys := by
      intro i hi
      obtain hi | rfl := Nat.lt_succ_iff_lt_or_eq.mp hi
      · exact hBefore i hi
      · exact hMem
    exact Nat.not_succ_le_self _ (le_size_of_used (by omega) hUsed)
  · exact hEnd

/-- As long as some id has no entry, the search finds one. -/
theorem free_not_mem {t : IdTable α} (h : t.size < 2 ^ 32) (id : Int32) : t.free id ∉ t.keys := by
  have hAhead : ∃ d < t.size + 1, id + Int32.ofNat d ∉ t.keys := by
    by_contra hUsed
    simp only [not_exists, not_and, not_not] at hUsed
    exact Nat.not_succ_le_self _ (le_size_of_used h hUsed)
  obtain ⟨d, hd, hFree⟩ := hAhead
  obtain ⟨k, -, -, he, hFound, -⟩ := free_of_free_ahead (by omega) hFree
  rwa [he]

end PeerLink.IdTable
