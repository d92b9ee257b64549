import PeerLink.Lifetime

/-! Cancellation in a forest of lifetimes. A lifetime is cancelled when it or one above it carries a
flag. Flags are never taken back and parents never change, so what holds of a lifetime's ancestors is
settled when it is created. -/
namespace PeerLink.Lifetimes

/-- The parent of a lifetime, `none` if there is no such lifetime. -/
def parent? (ls : Lifetimes) (l : LifetimeId) : Option (Option LifetimeId) :=
  ls.nodes[l]?.map LifetimeNode.parent

theorem lt_next_of_parent? {ls : Lifetimes} {l : LifetimeId} {p : Option LifetimeId}
    (h : ls.parent? l = some p) : l < ls.next := by
  simp only [parent?, Option.map_eq_some_iff] at h
  obtain ⟨node, hNode, _⟩ := h
  exact (List.getElem?_eq_some_iff.mp hNode).1

theorem lt_next_of_isFlagged {ls : Lifetimes} {l : LifetimeId} (h : ls.isFlagged l = true) :
    l < ls.next := by
  by_cases hl : l < ls.nodes.length
  · exact hl
  · simp [isFlagged, List.getElem?_eq_none (Nat.le_of_not_lt hl)] at h

@[simp] theorem parent?_cancel (ls : Lifetimes) (l k : LifetimeId) :
    (ls.cancel l).parent? k = ls.parent? k := by
  simp only [parent?, cancel, List.getElem?_modify]
  by_cases hk : l = k
  · simp [hk, Option.map_map, Function.comp_def]
  · simp [hk]

theorem isFlagged_cancel (ls : Lifetimes) (l k : LifetimeId) :
    (ls.cancel l).isFlagged k = true ↔ ls.isFlagged k = true ∨ k = l ∧ l < ls.next := by
  simp only [isFlagged, cancel, List.getElem?_modify, next]
  by_cases hk : l = k
  · subst k
    by_cases hl : l < ls.nodes.length
    · simp [hl]
    · simp [hl]
  · simp [hk, Ne.symm hk]

@[simp] theorem next_cancel (ls : Lifetimes) (l : LifetimeId) : (ls.cancel l).next = ls.next := by
  simp [cancel, next]

@[simp] theorem next_add (ls : Lifetimes) (p : Option LifetimeId) :
    (ls.add p).next = ls.next + 1 := by
  simp [add, next]

theorem parent?_add_next (ls : Lifetimes) (p : Option LifetimeId) :
    (ls.add p).parent? ls.next = some p := by
  simp [parent?, add, next]

theorem parent?_add_of_lt (ls : Lifetimes) (p : Option LifetimeId) {l : LifetimeId}
    (h : l < ls.next) : (ls.add p).parent? l = ls.parent? l := by
  simp only [parent?, add]
  rw [List.getElem?_append_left h]

/-- The new lifetime has the given parent, the others have theirs. -/
theorem parent?_add_iff (ls : Lifetimes) (p r : Option LifetimeId) (l : LifetimeId) :
    (ls.add p).parent? l = some r ↔ ls.parent? l = some r ∨ l = ls.next ∧ p = r := by
  constructor
  · intro h
    rcases Nat.lt_succ_iff_lt_or_eq.mp (ls.next_add p ▸ lt_next_of_parent? h) with hOld | rfl
    · exact .inl (parent?_add_of_lt ls p hOld ▸ h)
    · exact .inr ⟨rfl, Option.some.inj ((parent?_add_next ls p).symm.trans h)⟩
  · rintro (h | ⟨rfl, rfl⟩)
    · rwa [parent?_add_of_lt ls p (lt_next_of_parent? h)]
    · exact parent?_add_next ls p

@[simp] theorem isFlagged_add (ls : Lifetimes) (p : Option LifetimeId) (l : LifetimeId) :
    (ls.add p).isFlagged l = ls.isFlagged l := by
  simp only [isFlagged, add]
  by_cases hl : l < ls.nodes.length
  · rw [List.getElem?_append_left hl]
  · have hle := Nat.le_of_not_lt hl
    rw [List.getElem?_append_right hle, List.getElem?_eq_none hle]
    cases l - ls.nodes.length <;> simp

theorem isCancelled_of_parent?_none {ls : Lifetimes} {l : LifetimeId} (h : ls.parent? l = none) :
    ls.isCancelled l = false := by
  have hNone : ls.nodes[l]? = none := Option.map_eq_none_iff.mp h
  unfold isCancelled ancestry
  simp [hNone]

/-- What is above a lifetime stays when others are created. -/
theorem ancestry_add (ls : Lifetimes) (p : Option LifetimeId) {l : LifetimeId} (h : l < ls.next) :
    (ls.add p).ancestry l = ls.ancestry l := by
  induction l using Nat.strongRecOn with
  | ind l ih =>
      have hNode : (ls.add p).nodes[l]? = ls.nodes[l]? := List.getElem?_append_left h
      rw [ancestry, ancestry, hNode]
      cases ls.nodes[l]? with
      | none => rfl
      | some node =>
          obtain ⟨parent, flag⟩ := node
          cases parent with
          | none => rfl
          | some q =>
              by_cases hq : q < l
              · simp only [hq, ↓reduceDIte, ih q hq (Nat.lt_trans hq h)]
              · simp only [hq, ↓reduceDIte]

theorem isCancelled_add (ls : Lifetimes) (p : Option LifetimeId) {l : LifetimeId} (h : l < ls.next) :
    (ls.add p).isCancelled l = ls.isCancelled l := by
  rw [isCancelled, ancestry_add ls p h, isCancelled]
  exact congrArg _ (funext (isFlagged_add ls p))

/-- A lifetime without parent is cancelled only by its own flag. -/
theorem isCancelled_root {ls : Lifetimes} {l : LifetimeId} (h : ls.parent? l = some none) :
    ls.isCancelled l = ls.isFlagged l := by
  obtain ⟨node, hNode, hParent⟩ := Option.map_eq_some_iff.mp h
  unfold isCancelled ancestry
  simp [hNode, hParent]

/-- A lifetime below `p` is cancelled by its own flag or together with `p`. -/
theorem isCancelled_child {ls : Lifetimes} {l p : LifetimeId} (h : ls.parent? l = some (some p))
    (hp : p < l) : ls.isCancelled l = (ls.isFlagged l || ls.isCancelled p) := by
  obtain ⟨node, hNode, hParent⟩ := Option.map_eq_some_iff.mp h
  rw [isCancelled, ancestry]
  simp [hNode, hParent, hp, isCancelled]

theorem isCancelled_of_isFlagged {ls : Lifetimes} {l : LifetimeId} (h : ls.isFlagged l = true) :
    ls.isCancelled l = true := by
  obtain ⟨node, hNode⟩ : ∃ node, ls.nodes[l]? = some node :=
    ⟨_, List.getElem?_eq_getElem (lt_next_of_isFlagged h)⟩
  rw [isCancelled, ancestry, hNode]
  cases hParent : node.parent with
  | none => simp [hParent, h]
  | some p => by_cases hp : p < l <;> simp [hParent, hp, h]

/-- What becomes of a forest: nothing is forgotten. -/
structure Grows (ls ls' : Lifetimes) : Prop where
  next : ls.next ≤ ls'.next
  parent? : ∀ l p, ls.parent? l = some p → ls'.parent? l = some p
  isFlagged : ∀ l, ls.isFlagged l = true → ls'.isFlagged l = true

namespace Grows

theorem refl (ls : Lifetimes) : ls.Grows ls :=
  ⟨Nat.le_refl _, fun _ _ h => h, fun _ h => h⟩

theorem trans {ls ls' ls'' : Lifetimes} (h : ls.Grows ls') (h' : ls'.Grows ls'') :
    ls.Grows ls'' :=
  ⟨Nat.le_trans h.next h'.next, fun l p hl => h'.parent? l p (h.parent? l p hl),
    fun l hl => h'.isFlagged l (h.isFlagged l hl)⟩

theorem cancel (ls : Lifetimes) (l : LifetimeId) : ls.Grows (ls.cancel l) where
  next := by simp
  parent? k p hk := by simpa using hk
  isFlagged k hk := (isFlagged_cancel ls l k).mpr (.inl hk)

theorem add (ls : Lifetimes) (p : Option LifetimeId) : ls.Grows (ls.add p) where
  next := by simp
  parent? k q hk := by rw [parent?_add_of_lt ls p (lt_next_of_parent? hk), hk]
  isFlagged k hk := by simpa using hk

end Grows

end PeerLink.Lifetimes
