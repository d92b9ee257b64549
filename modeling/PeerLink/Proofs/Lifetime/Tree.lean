import Mathlib.Data.List.Induction
import Mathlib.Logic.Relation
import PeerLink.Lifetime.Watch
import PeerLink.Proofs.Lifetimes

/-! What was cancelled, told from the operations alone. A history is the list of operations so far. It says
which lifetime is a child of which, and on which lifetimes `cancel` was called while they had a handle;
parents and flags hold the same two facts. So a lifetime is cancelled exactly when `cancel` was called on
it or on a lifetime above it, whether handles of those are left or not. -/
namespace PeerLink

namespace Lifetimes

variable {ls : Lifetimes}

/-- A lifetime is cancelled when a flag stands on it or above it. -/
theorem isCancelled_iff_above (hBelow : ∀ l p, ls.parent? l = some (some p) → p < l) (l : LifetimeId) :
    ls.isCancelled l = true ↔
      ∃ a, Relation.ReflTransGen (fun l p => ls.parent? l = some (some p)) l a ∧
        ls.isFlagged a = true := by
  induction l using Nat.strongRecOn with
  | ind l ih =>
      constructor
      · intro h
        cases hFlag : ls.isFlagged l with
        | true => exact ⟨l, .refl, hFlag⟩
        | false =>
            cases hParent : ls.parent? l with
            | none =>
                rw [isCancelled_of_parent?_none hParent] at h
                cases h
            | some parent =>
                cases parent with
                | none =>
                    rw [isCancelled_root hParent, hFlag] at h
                    cases h
                | some p =>
                    have hp := hBelow l p hParent
                    rw [isCancelled_child hParent hp, hFlag, Bool.false_or] at h
                    obtain ⟨a, hAbove, hFlagged⟩ := (ih p hp).mp h
                    exact ⟨a, .head hParent hAbove, hFlagged⟩
      · rintro ⟨a, hAbove, hFlagged⟩
        cases hAbove.cases_head with
        | inl hSame =>
            subst hSame
            exact isCancelled_of_isFlagged hFlagged
        | inr hVia =>
            obtain ⟨p, hParent, hAbove⟩ := hVia
            have hp := hBelow l p hParent
            rw [isCancelled_child hParent hp, (ih p hp).mpr ⟨a, hAbove, hFlagged⟩, Bool.or_true]

/-- Cancelling twice, in either order. -/
theorem cancel_comm (ls : Lifetimes) (l k : LifetimeId) :
    (ls.cancel l).cancel k = (ls.cancel k).cancel l := by
  by_cases h : l = k
  · rw [h]
  · exact congrArg Lifetimes.mk (List.modify_modify_ne _ _ ls.nodes h)

/-- A flag is not set twice. -/
theorem cancel_of_isFlagged {l : LifetimeId} (h : ls.isFlagged l = true) : ls.cancel l = ls := by
  obtain ⟨nodes⟩ := ls
  refine congrArg Lifetimes.mk (List.ext_getElem? fun k => ?_)
  rw [List.getElem?_modify]
  by_cases hk : l = k
  · subst hk
    cases hNode : nodes[l]? with
    | none => rfl
    | some node =>
        have hFlag : node.cancelled = true := by simpa [isFlagged, hNode] using h
        simp [← hFlag]
  · simp [hk]

end Lifetimes

namespace Watch

/-- What a list of operations makes of nothing. -/
def after (ops : List Op) : Watch :=
  ops.foldl step empty

theorem after_append (ops later : List Op) : after (ops ++ later) = later.foldl step (after ops) :=
  List.foldl_append

theorem after_snoc (ops : List Op) (op : Op) : after (ops ++ [op]) = (after ops).step op :=
  after_append ops [op]

theorem lookup_filter (handles : List (String × LifetimeId)) (name other : String) :
    (handles.filter fun h => h.1 ≠ name).lookup other =
      if other = name then none else handles.lookup other := by
  induction handles with
  | nil => simp
  | cons h rest ih =>
      obtain ⟨first, l⟩ := h
      by_cases hFirst : first = name
      · subst hFirst
        rw [List.filter_cons_of_neg (by simp), ih, List.lookup_cons]
        by_cases hOther : other = first
        · rw [if_pos hOther, if_pos hOther]
        · rw [if_neg hOther, if_neg hOther, beq_eq_false_iff_ne.mpr hOther]
      · rw [List.filter_cons_of_pos (by simpa using hFirst), List.lookup_cons, List.lookup_cons, ih]
        by_cases hOther : other = first
        · subst hOther
          simp [hFirst]
        · rw [beq_eq_false_iff_ne.mpr hOther]

theorem handle?_bind (w : Watch) (name other : String) (l : LifetimeId) :
    (w.bind name l).handle? other = if other = name then some l else w.handle? other := by
  rw [handle?, bind, List.lookup_append, lookup_filter, List.lookup_cons]
  by_cases h : other = name
  · rw [if_pos h, if_pos h, beq_iff_eq.mpr h]
    rfl
  · rw [if_neg h, if_neg h, beq_eq_false_iff_ne.mpr h]
    exact Option.or_none

/-- What an operation does to the forest and to the handles. -/
inductive Change (w : Watch) (op : Op) (w' : Watch) : Prop where
  | root (name : String) (isOp : op = .create name)
      (forest : w'.lifetimes = w.lifetimes.add none)
      (handles : w'.handles = (w.bind name w.lifetimes.next).handles)
  | child (parent name : String) (p : LifetimeId) (isOp : op = .child parent name)
      (found : w.handle? parent = some p) (forest : w'.lifetimes = w.lifetimes.add (some p))
      (handles : w'.handles = (w.bind name w.lifetimes.next).handles)
  | cancelled (name : String) (l : LifetimeId) (isOp : op = .cancel name)
      (found : w.handle? name = some l) (forest : w'.lifetimes = w.lifetimes.cancel l)
      (handles : w'.handles = w.handles)
  /-- Handles are copied or dropped at most. -/
  | kept (noChild : ∀ parent name p, op = .child parent name → w.handle? parent ≠ some p)
      (noCancel : ∀ name l, op = .cancel name → w.handle? name ≠ some l)
      (forest : w'.lifetimes = w.lifetimes)
      (fewer : ∀ name l, w'.handle? name = some l → ∃ other, w.handle? other = some l)

theorem lifetimes_cancel (w : Watch) (l : LifetimeId) :
    (w.cancel l).lifetimes = w.lifetimes.cancel l := by
  cases hFlag : w.lifetimes.isFlagged l with
  | true => rw [cancel, if_pos hFlag, Lifetimes.cancel_of_isFlagged hFlag]
  | false => rw [cancel, if_neg (by simp [hFlag])]

theorem handles_cancel (w : Watch) (l : LifetimeId) : (w.cancel l).handles = w.handles := by
  cases hFlag : w.lifetimes.isFlagged l with
  | true => rw [cancel, if_pos hFlag]
  | false => rw [cancel, if_neg (by simp [hFlag])]

/-- An operation that has no effect. -/
theorem Change.of_idle {w w' : Watch} {op : Op} (hForest : w'.lifetimes = w.lifetimes)
    (hHandles : w'.handles = w.handles)
    (noChild : ∀ parent name p, op = .child parent name → w.handle? parent ≠ some p)
    (noCancel : ∀ name l, op = .cancel name → w.handle? name ≠ some l) : Change w op w' :=
  .kept noChild noCancel hForest fun name l h => ⟨name, by rwa [handle?, ← hHandles]⟩

theorem change_apply (w : Watch) (op : Op) : Change w op (w.apply op) := by
  cases op with
  | create name => exact .root name rfl rfl rfl
  | child parent name =>
      cases hFound : w.handle? parent with
      | some p =>
          have hApply : w.apply (.child parent name) = w.create (some p) name := by
            simp only [apply, hFound]
          rw [hApply]
          exact .child parent name p rfl hFound rfl rfl
      | none =>
          have hApply : w.apply (.child parent name) = w := by simp only [apply, hFound]
          rw [hApply]
          refine .of_idle rfl rfl (fun _ _ p h => ?_) (fun _ _ h => by cases h)
          cases h
          simp [hFound]
  | clone source name =>
      refine .kept (fun _ _ _ h => by cases h) (fun _ _ h => by cases h) ?_ fun other l h => ?_
      · cases hFound : w.handle? source with
        | some k => simp only [apply, hFound, bind]
        | none => simp only [apply, hFound]
      · cases hFound : w.handle? source with
        | some k =>
            simp only [apply, hFound, handle?_bind] at h
            split at h
            · exact ⟨source, hFound.trans h⟩
            · exact ⟨other, h⟩
        | none =>
            simp only [apply, hFound] at h
            exact ⟨other, h⟩
  | cancel name =>
      cases hFound : w.handle? name with
      | some l =>
          have hApply : w.apply (.cancel name) = w.cancel l := by simp only [apply, hFound]
          rw [hApply]
          exact .cancelled name l rfl hFound (w.lifetimes_cancel l) (w.handles_cancel l)
      | none =>
          have hApply : w.apply (.cancel name) = w := by simp only [apply, hFound]
          rw [hApply]
          refine .of_idle rfl rfl (fun _ _ _ h => by cases h) (fun _ l h => ?_)
          cases h
          simp [hFound]
  | drop name =>
      refine .kept (fun _ _ _ h => by cases h) (fun _ _ h => by cases h) rfl fun other l h => ?_
      simp only [apply, handle?, lookup_filter] at h
      split at h
      · cases h
      · exact ⟨other, h⟩
  | wait name tag =>
      refine .of_idle ?_ ?_ (fun _ _ _ h => by cases h) (fun _ _ h => by cases h) <;>
        cases hFound : w.handle? name <;> simp only [apply, hFound]

/-- The forest and the handles after an operation; what it does to waiters does not matter here. -/
theorem change_step (w : Watch) (op : Op) : Change w op (w.step op) := by
  cases change_apply w op with
  | root name isOp forest handles => exact .root name isOp forest handles
  | child parent name p isOp found forest handles =>
      exact .child parent name p isOp found forest handles
  | cancelled name l isOp found forest handles => exact .cancelled name l isOp found forest handles
  | kept noChild noCancel forest fewer => exact .kept noChild noCancel forest fewer

section Steps

variable {w w' : Watch} {op : Op}

/-- Handles are of lifetimes that exist, and those are younger than their parents. -/
structure Sound (w : Watch) : Prop where
  exists_of_handle : ∀ name l, w.handle? name = some l → l < w.lifetimes.next
  below : ∀ l p, w.lifetimes.parent? l = some (some p) → p < l

/-- A new lifetime, and a handle of it. -/
theorem handle?_of_new {name : String}
    (hHandles : w'.handles = (w.bind name w.lifetimes.next).handles) (other : String) :
    w'.handle? other = if other = name then some w.lifetimes.next else w.handle? other := by
  rw [← handle?_bind, handle?, hHandles, handle?]

theorem Sound.add (h : w.Sound) {parent : Option LifetimeId} {name : String}
    (hParent : ∀ p, parent = some p → p < w.lifetimes.next)
    (hForest : w'.lifetimes = w.lifetimes.add parent)
    (hHandles : w'.handles = (w.bind name w.lifetimes.next).handles) : w'.Sound where
  exists_of_handle other l hOther := by
    rw [handle?_of_new hHandles] at hOther
    rw [hForest, Lifetimes.next_add]
    split at hOther
    · cases hOther
      exact Nat.lt_succ_self _
    · exact Nat.lt_succ_of_lt (h.exists_of_handle other l hOther)
  below l p hp := by
    rw [hForest] at hp
    rcases (Lifetimes.parent?_add_iff _ _ _ _).mp hp with hOld | ⟨rfl, hNew⟩
    · exact h.below l p hOld
    · exact hParent p hNew

theorem Sound.change (h : w.Sound) (hChange : Change w op w') : w'.Sound := by
  cases hChange with
  | root name isOp forest handles => exact h.add (fun _ hp => by cases hp) forest handles
  | child parent name p isOp found forest handles =>
      refine h.add (fun q hq => ?_) forest handles
      cases hq
      exact h.exists_of_handle parent p found
  | cancelled name l isOp found forest handles =>
      constructor
      · intro other k hOther
        rw [forest, Lifetimes.next_cancel]
        exact h.exists_of_handle other k (by rwa [handle?, handles] at hOther)
      · intro k p hp
        rw [forest, Lifetimes.parent?_cancel] at hp
        exact h.below k p hp
  | kept noChild noCancel forest fewer =>
      constructor
      · intro name l hName
        obtain ⟨other, hOther⟩ := fewer name l hName
        exact forest ▸ h.exists_of_handle other l hOther
      · rw [forest]
        exact h.below

/-- A lifetime gets its flag when `cancel` is called on it, and not otherwise. -/
theorem Change.isFlagged (hChange : Change w op w') (h : w.Sound) (l : LifetimeId) :
    w'.lifetimes.isFlagged l = true ↔
      w.lifetimes.isFlagged l = true ∨ ∃ name, op = .cancel name ∧ w.handle? name = some l := by
  cases hChange with
  | root name isOp forest => simp [forest, isOp]
  | child parent name p isOp found forest => simp [forest, isOp]
  | cancelled name k isOp found forest =>
      rw [forest, Lifetimes.isFlagged_cancel, isOp]
      have hk := h.exists_of_handle name k found
      constructor
      · rintro (hFlag | ⟨rfl, -⟩)
        · exact .inl hFlag
        · exact .inr ⟨name, rfl, found⟩
      · rintro (hFlag | ⟨other, hOther, hFound⟩)
        · exact .inl hFlag
        · cases hOther
          exact .inr ⟨Option.some.inj (hFound.symm.trans found), hk⟩
  | kept noChild noCancel forest =>
      rw [forest]
      exact (or_iff_left fun ⟨name, hOp, hFound⟩ => noCancel name l hOp hFound).symm

/-- A lifetime gets its parent when it is created, and not otherwise. -/
theorem Change.parent? (hChange : Change w op w') (l p : LifetimeId) :
    w'.lifetimes.parent? l = some (some p) ↔ w.lifetimes.parent? l = some (some p) ∨
      ∃ parent name, op = .child parent name ∧ w.handle? parent = some p ∧
        w'.handle? name = some l := by
  cases hChange with
  | root name isOp forest => simp [forest, isOp, Lifetimes.parent?_add_iff]
  | child parent name q isOp found forest handles =>
      rw [forest, Lifetimes.parent?_add_iff, isOp]
      have hNew : w'.handle? name = some w.lifetimes.next := by rw [handle?_of_new handles, if_pos rfl]
      constructor
      · rintro (hOld | ⟨rfl, hq⟩)
        · exact .inl hOld
        · exact .inr ⟨parent, name, rfl, found.trans hq, hNew⟩
      · rintro (hOld | ⟨from', name', hOp, hFound, hName⟩)
        · exact .inl hOld
        · cases hOp
          exact .inr ⟨Option.some.inj (hName.symm.trans hNew), found.symm.trans hFound⟩
  | cancelled name k isOp found forest => simp [forest, isOp]
  | kept noChild noCancel forest =>
      rw [forest]
      exact (or_iff_left fun ⟨parent, name, hOp, hFound, _⟩ => noChild parent name p hOp hFound).symm

end Steps

/-- An operation of the list, with those before it, of which `P` holds. -/
def Happened (ops : List Op) (P : List Op → Op → Prop) : Prop :=
  ∃ before op later, ops = before ++ op :: later ∧ P before op

/-- `cancel` was called on a handle of the lifetime. -/
def CancelCalled (ops : List Op) (l : LifetimeId) : Prop :=
  Happened ops fun before op => ∃ name, op = .cancel name ∧ (after before).handle? name = some l

/-- The lifetime was created as a child of `p`, by a handle of that. -/
def ChildOf (ops : List Op) (l p : LifetimeId) : Prop :=
  Happened ops fun before op => ∃ parent name, op = .child parent name ∧
    (after before).handle? parent = some p ∧ (after (before ++ [op])).handle? name = some l

/-- `a` is the lifetime itself or one above it. -/
def Above (ops : List Op) (a l : LifetimeId) : Prop :=
  Relation.ReflTransGen (ChildOf ops) l a

section History

variable {ops : List Op}

theorem happened_nil (P : List Op → Op → Prop) : ¬ Happened [] P := by
  rintro ⟨before, op, later, hOps, _⟩
  simp at hOps

theorem happened_snoc (op : Op) (P : List Op → Op → Prop) :
    Happened (ops ++ [op]) P ↔ Happened ops P ∨ P ops op := by
  constructor
  · rintro ⟨before, last, later, hOps, hP⟩
    rcases List.eq_nil_or_concat later with rfl | ⟨later, end', rfl⟩
    · obtain ⟨rfl, hLast⟩ := List.append_inj' hOps rfl
      cases hLast
      exact .inr hP
    · rw [List.concat_eq_append, ← List.cons_append, ← List.append_assoc] at hOps
      exact .inl ⟨before, last, later, (List.append_inj' hOps rfl).1, hP⟩
  · rintro (⟨before, last, later, rfl, hP⟩ | hP)
    · exact ⟨before, last, later ++ [op], by simp, hP⟩
    · exact ⟨ops, op, [], rfl, hP⟩

/-- What happened, happened. -/
theorem Happened.append {P : List Op → Op → Prop} (h : Happened ops P) (later : List Op) :
    Happened (ops ++ later) P := by
  obtain ⟨before, op, behind, rfl, hP⟩ := h
  exact ⟨before, op, behind ++ later, by simp, hP⟩

theorem sound_after (ops : List Op) : (after ops).Sound := by
  induction ops using List.reverseRecOn with
  | nil => exact ⟨fun _ _ h => (by cases h), fun _ _ h => (by cases h)⟩
  | append_singleton ops op ih =>
      rw [after_snoc]
      exact ih.change (change_step _ op)

theorem isFlagged_after (ops : List Op) (l : LifetimeId) :
    (after ops).lifetimes.isFlagged l = true ↔ CancelCalled ops l := by
  induction ops using List.reverseRecOn with
  | nil => exact ⟨fun h => (by cases h), fun h => absurd h (happened_nil _)⟩
  | append_singleton ops op ih =>
      rw [CancelCalled, happened_snoc, after_snoc, (change_step _ op).isFlagged (sound_after ops), ih,
        CancelCalled]

theorem parent?_after (ops : List Op) (l p : LifetimeId) :
    (after ops).lifetimes.parent? l = some (some p) ↔ ChildOf ops l p := by
  induction ops using List.reverseRecOn with
  | nil => exact ⟨fun h => (by cases h), fun h => absurd h (happened_nil _)⟩
  | append_singleton ops op ih =>
      rw [ChildOf, happened_snoc, after_snoc, (change_step _ op).parent?, ih, ChildOf]

/-- A lifetime is cancelled when `cancel` was called on it or on one above it. -/
theorem isCancelled_after (ops : List Op) (l : LifetimeId) :
    (after ops).lifetimes.isCancelled l = true ↔ ∃ a, Above ops a l ∧ CancelCalled ops a := by
  have hParent : (fun l p => (after ops).lifetimes.parent? l = some (some p)) = ChildOf ops :=
    funext fun l => funext fun p => propext (parent?_after ops l p)
  rw [Lifetimes.isCancelled_iff_above (sound_after ops).below, hParent]
  simp only [isFlagged_after, Above]

/-- A child begins as what its parent is then. -/
theorem isCancelled_new_child {parent : String} {p : LifetimeId}
    (hFound : (after ops).handle? parent = some p) (name : String) :
    (after (ops ++ [.child parent name])).handle? name = some (after ops).lifetimes.next ∧
      (after (ops ++ [.child parent name])).lifetimes.isCancelled (after ops).lifetimes.next =
        (after ops).lifetimes.isCancelled p := by
  have hp := (sound_after ops).exists_of_handle parent p hFound
  rw [after_snoc]
  cases change_step (after ops) (.child parent name) with
  | child from' name' q isOp found forest handles =>
      cases isOp
      obtain rfl : p = q := Option.some.inj (hFound.symm.trans found)
      have hFlag : (after ops).lifetimes.isFlagged (after ops).lifetimes.next = false :=
        Bool.eq_false_iff.mpr fun h => Nat.lt_irrefl _ (Lifetimes.lt_next_of_isFlagged h)
      rw [handle?_of_new handles, if_pos rfl, forest,
        Lifetimes.isCancelled_child (Lifetimes.parent?_add_next _ _) hp, Lifetimes.isFlagged_add, hFlag,
        Bool.false_or, Lifetimes.isCancelled_add _ _ hp]
      exact ⟨rfl, rfl⟩
  | kept noChild => exact absurd hFound (noChild parent name p rfl)
  | root _ isOp => cases isOp
  | cancelled _ _ isOp => cases isOp

/-- A call of `cancel` cancels a lifetime and what is below it, and nothing else. -/
theorem isCancelled_after_cancel {name : String} {a : LifetimeId}
    (hFound : (after ops).handle? name = some a) (l : LifetimeId) :
    (after (ops ++ [.cancel name])).lifetimes.isCancelled l = true ↔
      (after ops).lifetimes.isCancelled l = true ∨ Above ops a l := by
  have hAbove (b : LifetimeId) : Above (ops ++ [.cancel name]) b l ↔ Above ops b l := by
    have hChild : ChildOf (ops ++ [.cancel name]) = ChildOf ops := by
      funext l p
      rw [ChildOf, happened_snoc, ChildOf]
      simp
    rw [Above, hChild, Above]
  have hCalled (b : LifetimeId) :
      CancelCalled (ops ++ [.cancel name]) b ↔ CancelCalled ops b ∨ a = b := by
    rw [CancelCalled, happened_snoc, CancelCalled]
    simp [hFound]
  rw [isCancelled_after, isCancelled_after]
  simp only [hAbove, hCalled, and_or_left, exists_or, exists_eq_right']

end History

/-- The same lifetimes, with the same handles. -/
structure SameTree (w w' : Watch) : Prop where
  lifetimes : w.lifetimes = w'.lifetimes
  handles : w.handles = w'.handles

section Order

variable {w w' w'' : Watch}

theorem SameTree.refl (w : Watch) : SameTree w w :=
  ⟨rfl, rfl⟩

theorem SameTree.trans (h : SameTree w w') (h' : SameTree w' w'') : SameTree w w'' :=
  ⟨h.lifetimes.trans h'.lifetimes, h.handles.trans h'.handles⟩

theorem SameTree.handle? (h : SameTree w w') (name : String) : w.handle? name = w'.handle? name := by
  rw [Watch.handle?, h.handles, Watch.handle?]

theorem SameTree.bind (h : SameTree w w') (name : String) (l : LifetimeId) :
    SameTree (w.bind name l) (w'.bind name l) :=
  ⟨h.lifetimes, by simp only [Watch.bind, h.handles]⟩

theorem SameTree.create (h : SameTree w w') (parent : Option LifetimeId) (name : String) :
    SameTree (w.create parent name) (w'.create parent name) :=
  ⟨by simp only [Watch.create, Watch.bind, h.lifetimes],
    by simp only [Watch.create, Watch.bind, h.lifetimes, h.handles]⟩

theorem SameTree.cancel (h : SameTree w w') (l : LifetimeId) : SameTree (w.cancel l) (w'.cancel l) :=
  ⟨by rw [lifetimes_cancel, lifetimes_cancel, h.lifetimes],
    by rw [handles_cancel, handles_cancel, h.handles]⟩

theorem SameTree.apply (h : SameTree w w') (op : Op) : SameTree (w.apply op) (w'.apply op) := by
  cases op with
  | create name => exact h.create none name
  | child parent name =>
      simp only [Watch.apply, h.handle?]
      cases w'.handle? parent with
      | some p => exact h.create (some p) name
      | none => exact h
  | clone source name =>
      simp only [Watch.apply, h.handle?]
      cases w'.handle? source with
      | some l => exact h.bind name l
      | none => exact h
  | cancel name =>
      simp only [Watch.apply, h.handle?]
      cases w'.handle? name with
      | some l => exact h.cancel l
      | none => exact h
  | drop name => exact ⟨h.lifetimes, by simp only [Watch.apply, h.handles]⟩
  | wait name tag =>
      simp only [Watch.apply, h.handle?]
      cases w'.handle? name with
      | some l => exact ⟨h.lifetimes, h.handles⟩
      | none => exact h

theorem SameTree.step (h : SameTree w w') (op : Op) : SameTree (w.step op) (w'.step op) :=
  ⟨(h.apply op).lifetimes, (h.apply op).handles⟩

theorem SameTree.run (h : SameTree w w') (ops : List Op) :
    SameTree (ops.foldl Watch.step w) (ops.foldl Watch.step w') := by
  induction ops generalizing w w' with
  | nil => exact h
  | cons op ops ih => exact ih (h.step op)

theorem handles_step_cancel (w : Watch) (name : String) : (w.step (.cancel name)).handles = w.handles := by
  change (w.apply (.cancel name)).handles = _
  rw [Watch.apply]
  cases w.handle? name with
  | some l => exact handles_cancel w l
  | none => rfl

theorem handle?_step_cancel (w : Watch) (name other : String) :
    (w.step (.cancel name)).handle? other = w.handle? other := by
  rw [Watch.handle?, handles_step_cancel, Watch.handle?]

theorem lifetimes_step_cancel (w : Watch) (name : String) :
    (w.step (.cancel name)).lifetimes = (w.handle? name).elim w.lifetimes w.lifetimes.cancel := by
  change (w.apply (.cancel name)).lifetimes = _
  rw [Watch.apply]
  cases w.handle? name with
  | some l => exact lifetimes_cancel w l
  | none => rfl

/-- The second call finds the lifetime that it would have found as the first. -/
theorem step_cancel_comm (w : Watch) (first second : String) :
    SameTree ((w.step (.cancel first)).step (.cancel second))
      ((w.step (.cancel second)).step (.cancel first)) := by
  constructor
  · simp only [lifetimes_step_cancel, handle?_step_cancel]
    cases w.handle? first with
    | none => rfl
    | some l =>
        cases w.handle? second with
        | none => rfl
        | some k => exact Lifetimes.cancel_comm w.lifetimes l k
  · simp only [handles_step_cancel]

theorem sameTree_of_perm {names names' : List String} (hPerm : names.Perm names') (w : Watch) :
    SameTree ((names.map Op.cancel).foldl Watch.step w) ((names'.map Op.cancel).foldl Watch.step w) := by
  induction hPerm generalizing w with
  | nil => exact .refl w
  | cons name _ ih => exact ih _
  | swap first second names => exact (step_cancel_comm w second first).run _
  | trans _ _ ih ih' => exact (ih w).trans (ih' w)

end Order

/-- Whether a lifetime is cancelled is told by the operations alone: `cancel` was called, at some time,
on a handle of it or of one above it. So it is for ever; dropping a handle leaves it as it is; a child is
what its parent is when it is created; a call of `cancel` cancels the lifetime itself and what is below
it, and nothing else; and calls in another order come to the same, whatever follows. -/
theorem cancelled_iff_cancel_called (ops : List Op) :
    (∀ l, (after ops).lifetimes.isCancelled l = true ↔ ∃ a, Above ops a l ∧ CancelCalled ops a) ∧
    (∀ later l, (after ops).lifetimes.isCancelled l = true →
      (after (ops ++ later)).lifetimes.isCancelled l = true) ∧
    (∀ name l, (after (ops ++ [.drop name])).lifetimes.isCancelled l =
      (after ops).lifetimes.isCancelled l) ∧
    (∀ parent name p, (after ops).handle? parent = some p →
      ∃ l, (after (ops ++ [.child parent name])).handle? name = some l ∧
        (∀ other, (after ops).handle? other ≠ some l) ∧
        (after (ops ++ [.child parent name])).lifetimes.isCancelled l =
          (after ops).lifetimes.isCancelled p) ∧
    (∀ name a, (after ops).handle? name = some a →
      ∀ l, (after (ops ++ [.cancel name])).lifetimes.isCancelled l = true ↔
        (after ops).lifetimes.isCancelled l = true ∨ Above ops a l) ∧
    (∀ names names' : List String, names.Perm names' →
      ∀ later, (after (ops ++ names.map .cancel ++ later)).cancelled =
        (after (ops ++ names'.map .cancel ++ later)).cancelled) := by
  refine ⟨isCancelled_after ops, fun later l h => ?_, fun name l => ?_, fun parent name p hFound => ?_,
    fun name a hFound l => isCancelled_after_cancel hFound l, fun names names' hPerm later => ?_⟩
  · obtain ⟨a, hAbove, hCalled⟩ := (isCancelled_after ops l).mp h
    have hStill : Above (ops ++ later) a l :=
      Relation.ReflTransGen.mono (fun _ _ hChild => Happened.append hChild later) _ _ hAbove
    exact (isCancelled_after _ l).mpr ⟨a, hStill, hCalled.append later⟩
  · rw [after_snoc]
    rfl
  · obtain ⟨hNew, hSame⟩ := isCancelled_new_child hFound name
    exact ⟨_, hNew, fun other hOther =>
      Nat.lt_irrefl _ ((sound_after ops).exists_of_handle other _ hOther), hSame⟩
  · rw [after_append, after_append, after_append, after_append]
    have hSame := (sameTree_of_perm hPerm (after ops)).run later
    rw [cancelled, cancelled, hSame.lifetimes, hSame.handles]

/-- The handle of the lifetime between two others is dropped before the upper one is cancelled. That
reaches the lower one, and what is created below it later. -/
theorem cancelled_below_dropped_handle :
    (after [.create "root", .child "root" "middle", .child "middle" "leaf", .drop "middle"]).handle?
        "leaf" = some 2 ∧
      Above [.create "root", .child "root" "middle", .child "middle" "leaf", .drop "middle"] 0 2 ∧
      ∃ l, (after [.create "root", .child "root" "middle", .child "middle" "leaf", .drop "middle",
          .cancel "root", .child "leaf" "late"]).handle? "late" = some l ∧
        (after [.create "root", .child "root" "middle", .child "middle" "leaf", .drop "middle",
          .cancel "root", .child "leaf" "late"]).lifetimes.isCancelled l = true := by
  obtain ⟨-, -, -, -, hCancel, -⟩ := cancelled_iff_cancel_called
    [.create "root", .child "root" "middle", .child "middle" "leaf", .drop "middle"]
  obtain ⟨-, -, -, hChild, -, -⟩ := cancelled_iff_cancel_called
    [.create "root", .child "root" "middle", .child "middle" "leaf", .drop "middle", .cancel "root"]
  refine ⟨by decide +kernel, ?_, ?_⟩
  · have hAfter := (hCancel "root" 0 (by decide +kernel) 2).mp (by decide +kernel)
    exact hAfter.resolve_left (by decide +kernel)
  · obtain ⟨l, hLate, -, hSame⟩ := hChild "leaf" "late" 2 (by decide +kernel)
    exact ⟨l, hLate, hSame.trans (by decide +kernel)⟩

end Watch
end PeerLink
