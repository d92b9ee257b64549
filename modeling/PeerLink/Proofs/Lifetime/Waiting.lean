import PeerLink.Proofs.Lifetime.Tree

/-! Tasks that wait for lifetimes. A waiter hears signals, not flags, and a lifetime gives its signal when
it is cancelled but also when nothing refers to it any more. In a run the operations alternate with what
follows from them, a piece at a time: a lifetime that nothing refers to gives its signal, a waiter that was
woken finishes, a waiter is given up. The invariant is that a lifetime that has given its signal is
flagged or out of reach, and an unfinished waiter keeps within reach all that it listens to. -/
namespace PeerLink

namespace Lifetimes

theorem isCancelled_iff_mem {ls : Lifetimes} {l : LifetimeId} :
    ls.isCancelled l = true ↔ ∃ a ∈ ls.ancestry l, ls.isFlagged a = true :=
  List.any_eq_true

/-- What is above a lifetime stays when one is cancelled. -/
theorem ancestry_cancel (ls : Lifetimes) (k l : LifetimeId) :
    (ls.cancel k).ancestry l = ls.ancestry l := by
  induction l using Nat.strongRecOn with
  | ind l ih =>
      have hParent : ((ls.cancel k).nodes[l]?.map LifetimeNode.parent) =
        ls.nodes[l]?.map LifetimeNode.parent := parent?_cancel ls k l
      rw [ancestry, ancestry]
      cases hOld : ls.nodes[l]? with
      | none =>
          rw [hOld] at hParent
          rw [Option.map_eq_none_iff.mp hParent]
      | some node =>
          rw [hOld] at hParent
          obtain ⟨node', hNew, hSame⟩ := Option.map_eq_some_iff.mp hParent
          simp only [hNew, hSame]
          cases node.parent with
          | none => rfl
          | some p =>
              by_cases hp : p < l
              · simp only [hp, ↓reduceDIte, ih p hp]
              · simp only [hp, ↓reduceDIte]

/-- What is above a new lifetime: itself, and what is above its parent. -/
theorem ancestry_add_next (ls : Lifetimes) (parent : Option LifetimeId)
    (hParent : ∀ p, parent = some p → p < ls.next) :
    (ls.add parent).ancestry ls.next = ls.next :: (parent.map ls.ancestry).getD [] := by
  have hNode : (ls.add parent).nodes[ls.next]? = some ⟨parent, false⟩ := by simp [add, next]
  rw [ancestry, hNode]
  cases parent with
  | none => rfl
  | some p =>
      have hp := hParent p rfl
      simp only [hp, ↓reduceDIte, Option.map_some, Option.getD_some, ancestry_add ls (some p) hp]

theorem lt_next_of_mem_ancestry {ls : Lifetimes} {a l : LifetimeId} (h : a ∈ ls.ancestry l) :
    l < ls.next := by
  by_cases hl : l < ls.nodes.length
  · exact hl
  · rw [ancestry, List.getElem?_eq_none (Nat.le_of_not_lt hl)] at h
    cases h

theorem isCancelled_cancel {ls : Lifetimes} {l : LifetimeId} (h : ls.isCancelled l = true)
    (k : LifetimeId) : (ls.cancel k).isCancelled l = true := by
  obtain ⟨a, ha, hFlag⟩ := isCancelled_iff_mem.mp h
  exact isCancelled_iff_mem.mpr
    ⟨a, (ancestry_cancel ls k l).symm ▸ ha, (isFlagged_cancel ls k a).mpr (.inl hFlag)⟩

end Lifetimes

namespace Watch

/-- A lifetime gives its signal. -/
def signal (w : Watch) (l : LifetimeId) : Watch :=
  { w with signals := w.signals ++ [l] }

/-- The waiter at this place finishes. -/
def wake (w : Watch) (k : Nat) : Watch :=
  { w with waiters := w.waiters.modify k fun t => { t with finished := true } }

/-- The waiter at this place is given up. -/
def leave (w : Watch) (k : Nat) : Watch :=
  { w with waiters := w.waiters.eraseIdx k }

/-- What operations make of nothing, with whatever has followed from them so far. -/
inductive Run : List Op → Watch → Prop where
  | start : Run [] empty
  | op {ops : List Op} {w : Watch} (prior : Run ops w) (op : Op) : Run (ops ++ [op]) (w.apply op)
  /-- A lifetime is lost, and its signal is given all the same. -/
  | lose {ops : List Op} {w : Watch} (prior : Run ops w) (l : LifetimeId)
      (created : l < w.lifetimes.next) (lost : w.isKept l = false) : Run ops (w.signal l)
  | wake {ops : List Op} {w : Watch} (prior : Run ops w) (k : Nat)
      (woken : ∀ t, w.waiters[k]? = some t → w.isWoken t = true) : Run ops (w.wake k)
  | leave {ops : List Op} {w : Watch} (prior : Run ops w) (k : Nat) : Run ops (w.leave k)

/-- No waiter is about to finish. -/
def Settled (w : Watch) : Prop :=
  ∀ t ∈ w.waiters, t.finished = false → w.isWoken t = false

/-- A task was started that waits for the lifetime, from a handle of it. -/
def WaitCalled (ops : List Op) (tag : String) (l : LifetimeId) : Prop :=
  Happened ops fun before op => ∃ name, op = .wait name tag ∧ (after before).handle? name = some l

section Reach

variable {w w' : Watch} {l : LifetimeId} {t : Waiter}

theorem isKept_iff : w.isKept l = true ↔
    (∃ h ∈ w.handles, l ∈ w.lifetimes.ancestry h.2) ∨
      ∃ t ∈ w.waiters, t.finished = false ∧ l ∈ w.lifetimes.ancestry t.lifetime := by
  simp [isKept]

theorem isWoken_iff : w.isWoken t = true ↔
    ∃ a ∈ w.lifetimes.ancestry t.lifetime, a ∈ w.signals := by
  simp [isWoken]

theorem mem_of_handle? {name : String} (h : w.handle? name = some l) : (name, l) ∈ w.handles := by
  obtain ⟨before, after, hHandles, -⟩ := List.lookup_eq_some_iff.mp h
  rw [hHandles]
  exact List.mem_append_right _ List.mem_cons_self

/-- What the signals have to do with the flags. -/
structure Truthful (w : Watch) : Prop where
  handles : ∀ h ∈ w.handles, h.2 < w.lifetimes.next
  waiters : ∀ t ∈ w.waiters, t.lifetime < w.lifetimes.next
  created : ∀ l ∈ w.signals, l < w.lifetimes.next
  flagged : ∀ l, w.lifetimes.isFlagged l = true → l ∈ w.signals
  signals : ∀ l ∈ w.signals, w.isKept l = true → w.lifetimes.isFlagged l = true
  finished : ∀ t ∈ w.waiters, t.finished = true → w.lifetimes.isCancelled t.lifetime = true

/-- A waiter is woken only by a flag: the rest of what it listens to, it keeps. -/
theorem Truthful.isCancelled_of_isWoken (h : w.Truthful) (ht : t ∈ w.waiters)
    (hWoken : w.isWoken t = true) : w.lifetimes.isCancelled t.lifetime = true := by
  cases hFinished : t.finished with
  | true => exact h.finished t ht hFinished
  | false =>
      obtain ⟨a, hAbove, hSignal⟩ := isWoken_iff.mp hWoken
      have hKept : w.isKept a = true := isKept_iff.mpr (.inr ⟨t, ht, hFinished, hAbove⟩)
      exact Lifetimes.isCancelled_iff_mem.mpr ⟨a, hAbove, h.signals a hSignal hKept⟩

theorem Truthful.isWoken_of_isCancelled (h : w.Truthful)
    (hCancelled : w.lifetimes.isCancelled t.lifetime = true) : w.isWoken t = true := by
  obtain ⟨a, hAbove, hFlag⟩ := Lifetimes.isCancelled_iff_mem.mp hCancelled
  exact isWoken_iff.mpr ⟨a, hAbove, h.flagged a hFlag⟩

/-! ### What one piece of a run keeps -/

/-- Handles and waiters go, or come from handles that are there, or waiters finish with good reason. -/
theorem Truthful.of_fewer (h : w.Truthful) (hForest : w'.lifetimes = w.lifetimes)
    (hSignals : w'.signals = w.signals)
    (hHandles : ∀ g ∈ w'.handles, ∃ old ∈ w.handles, old.2 = g.2)
    (hWaiters : ∀ t ∈ w'.waiters, t ∈ w.waiters ∨
      (t.finished = false ∧ ∃ old ∈ w.handles, old.2 = t.lifetime) ∨
      (t.finished = true ∧ w.lifetimes.isCancelled t.lifetime = true)) : w'.Truthful where
  handles g hg := by
    obtain ⟨old, hOld, hSame⟩ := hHandles g hg
    rw [hForest, ← hSame]
    exact h.handles old hOld
  waiters t ht := by
    rw [hForest]
    rcases hWaiters t ht with hOld | ⟨-, old, hOld, hSame⟩ | ⟨-, hCancelled⟩
    · exact h.waiters t hOld
    · exact hSame ▸ h.handles old hOld
    · obtain ⟨a, hAbove, -⟩ := Lifetimes.isCancelled_iff_mem.mp hCancelled
      exact Lifetimes.lt_next_of_mem_ancestry hAbove
  created l hl := by
    rw [hForest]
    exact h.created l (hSignals ▸ hl)
  flagged l hl := by
    rw [hSignals]
    exact h.flagged l (hForest ▸ hl)
  signals l hl hKept := by
    rw [hForest]
    refine h.signals l (hSignals ▸ hl) (isKept_iff.mpr ?_)
    rw [isKept_iff, hForest] at hKept
    rcases hKept with ⟨g, hg, hAbove⟩ | ⟨t, ht, hFinished, hAbove⟩
    · obtain ⟨old, hOld, hSame⟩ := hHandles g hg
      exact .inl ⟨old, hOld, hSame ▸ hAbove⟩
    · rcases hWaiters t ht with hOld | ⟨-, old, hOld, hSame⟩ | ⟨hDone, -⟩
      · exact .inr ⟨t, hOld, hFinished, hAbove⟩
      · exact .inl ⟨old, hOld, hSame ▸ hAbove⟩
      · rw [hFinished] at hDone
        cases hDone
  finished t ht hFinished := by
    rw [hForest]
    rcases hWaiters t ht with hOld | ⟨hNot, -⟩ | ⟨-, hCancelled⟩
    · exact h.finished t hOld hFinished
    · rw [hFinished] at hNot
      cases hNot
    · exact hCancelled

theorem mem_handles_bind {name : String} {g : String × LifetimeId}
    (hg : g ∈ (w.bind name l).handles) : g ∈ w.handles ∨ g = (name, l) := by
  rcases List.mem_append.mp hg with hOld | hNew
  · exact .inl (List.mem_filter.mp hOld).1
  · exact .inr (List.mem_singleton.mp hNew)

/-- A new lifetime is within reach, and so is what is above it; that was so before. -/
theorem Truthful.create (h : w.Truthful) {parent : Option LifetimeId}
    (hParent : ∀ p, parent = some p → ∃ g ∈ w.handles, g.2 = p) (name : String) :
    (w.create parent name).Truthful := by
  have hBelow (p : LifetimeId) (hp : parent = some p) : p < w.lifetimes.next := by
    obtain ⟨g, hg, rfl⟩ := hParent p hp
    exact h.handles g hg
  have hForest : (w.create parent name).lifetimes = w.lifetimes.add parent := rfl
  have hHandle (g : String × LifetimeId) (hg : g ∈ (w.create parent name).handles) :
      g ∈ w.handles ∨ g = (name, w.lifetimes.next) := mem_handles_bind hg
  refine ⟨fun g hg => ?_, fun t ht => ?_, fun l hl => ?_, fun l hl => ?_, fun l hl hKept => ?_,
    fun t ht hFinished => ?_⟩
  · rw [hForest, Lifetimes.next_add]
    rcases hHandle g hg with hOld | rfl
    · exact Nat.lt_succ_of_lt (h.handles g hOld)
    · exact Nat.lt_succ_self _
  · rw [hForest, Lifetimes.next_add]
    exact Nat.lt_succ_of_lt (h.waiters t ht)
  · rw [hForest, Lifetimes.next_add]
    exact Nat.lt_succ_of_lt (h.created l hl)
  · rw [hForest, Lifetimes.isFlagged_add] at hl
    exact h.flagged l hl
  · rw [hForest, Lifetimes.isFlagged_add]
    refine h.signals l hl (isKept_iff.mpr ?_)
    rw [isKept_iff, hForest] at hKept
    rcases hKept with ⟨g, hg, hAbove⟩ | ⟨t, ht, hFinished, hAbove⟩
    · rcases hHandle g hg with hOld | rfl
      · rw [Lifetimes.ancestry_add _ _ (h.handles g hOld)] at hAbove
        exact .inl ⟨g, hOld, hAbove⟩
      · rw [Lifetimes.ancestry_add_next _ _ hBelow, List.mem_cons] at hAbove
        rcases hAbove with rfl | hAbove
        · exact absurd (h.created _ hl) (Nat.lt_irrefl _)
        · cases parent with
          | none => cases hAbove
          | some p =>
              obtain ⟨old, hOld, hSame⟩ := hParent p rfl
              exact .inl ⟨old, hOld, hSame ▸ hAbove⟩
    · rw [Lifetimes.ancestry_add _ _ (h.waiters t ht)] at hAbove
      exact .inr ⟨t, ht, hFinished, hAbove⟩
  · rw [hForest, Lifetimes.isCancelled_add _ _ (h.waiters t ht)]
    exact h.finished t ht hFinished

theorem Truthful.cancel (h : w.Truthful) (hl : l < w.lifetimes.next) : (w.cancel l).Truthful := by
  cases hFlag : w.lifetimes.isFlagged l with
  | true => rwa [Watch.cancel, if_pos hFlag]
  | false =>
      rw [Watch.cancel, if_neg (by simp [hFlag])]
      have hKept (k : LifetimeId) (hk : isKept
          { w with lifetimes := w.lifetimes.cancel l, signals := w.signals ++ [l] } k = true) :
          w.isKept k = true := by
        simp only [isKept_iff, Lifetimes.ancestry_cancel] at hk
        exact isKept_iff.mpr hk
      refine ⟨fun g hg => ?_, fun t ht => ?_, fun k hk => ?_, fun k hk => ?_, fun k hk hk' => ?_,
        fun t ht hFinished => Lifetimes.isCancelled_cancel (h.finished t ht hFinished) l⟩
      · rw [Lifetimes.next_cancel]
        exact h.handles g hg
      · rw [Lifetimes.next_cancel]
        exact h.waiters t ht
      · rw [Lifetimes.next_cancel]
        rcases List.mem_append.mp hk with hk | hk
        · exact h.created k hk
        · exact List.mem_singleton.mp hk ▸ hl
      · rcases (Lifetimes.isFlagged_cancel _ _ _).mp hk with hk | ⟨rfl, -⟩
        · exact List.mem_append_left _ (h.flagged k hk)
        · exact List.mem_append_right _ (List.mem_singleton_self _)
      · rw [Lifetimes.isFlagged_cancel]
        rcases List.mem_append.mp hk with hk | hk
        · exact .inl (h.signals k hk (hKept k hk'))
        · exact .inr ⟨List.mem_singleton.mp hk, hl⟩

theorem Truthful.apply (h : w.Truthful) (op : Op) : (w.apply op).Truthful := by
  cases op with
  | create name => exact h.create (fun p hp => by cases hp) name
  | child parent name =>
      cases hFound : w.handle? parent with
      | none => simpa only [Watch.apply, hFound] using h
      | some p =>
          simp only [Watch.apply, hFound]
          refine h.create (fun q hq => ?_) name
          cases hq
          exact ⟨_, mem_of_handle? hFound, rfl⟩
  | clone source name =>
      cases hFound : w.handle? source with
      | none => simpa only [Watch.apply, hFound] using h
      | some l =>
          simp only [Watch.apply, hFound]
          refine h.of_fewer rfl rfl (fun g hg => ?_) (fun t ht => .inl ht)
          rcases mem_handles_bind hg with hOld | rfl
          · exact ⟨g, hOld, rfl⟩
          · exact ⟨_, mem_of_handle? hFound, rfl⟩
  | cancel name =>
      cases hFound : w.handle? name with
      | none => simpa only [Watch.apply, hFound] using h
      | some l =>
          simp only [Watch.apply, hFound]
          exact h.cancel (h.handles _ (mem_of_handle? hFound))
  | drop name =>
      exact h.of_fewer rfl rfl (fun g hg => ⟨g, (List.mem_filter.mp hg).1, rfl⟩) (fun t ht => .inl ht)
  | wait name tag =>
      cases hFound : w.handle? name with
      | none => simpa only [Watch.apply, hFound] using h
      | some l =>
          simp only [Watch.apply, hFound]
          refine h.of_fewer rfl rfl (fun g hg => ⟨g, hg, rfl⟩) (fun t ht => ?_)
          rcases List.mem_append.mp ht with hOld | hNew
          · exact .inl hOld
          · rw [List.mem_singleton.mp hNew]
            exact .inr (.inl ⟨rfl, _, mem_of_handle? hFound, rfl⟩)

theorem Truthful.signal (h : w.Truthful) (hl : l < w.lifetimes.next) (hLost : w.isKept l = false) :
    (w.signal l).Truthful := by
  refine ⟨h.handles, h.waiters, fun k hk => ?_, fun k hk => List.mem_append_left _ (h.flagged k hk),
    fun k hk hKept => ?_, h.finished⟩
  · rcases List.mem_append.mp hk with hk | hk
    · exact h.created k hk
    · exact List.mem_singleton.mp hk ▸ hl
  · have hKept' : w.isKept k = true := hKept
    rcases List.mem_append.mp hk with hk | hk
    · exact h.signals k hk hKept'
    · rw [List.mem_singleton.mp hk, hLost] at hKept'
      cases hKept'

theorem Truthful.wake (h : w.Truthful) {k : Nat}
    (hWoken : ∀ t, w.waiters[k]? = some t → w.isWoken t = true) : (w.wake k).Truthful := by
  refine h.of_fewer rfl rfl (fun g hg => ⟨g, hg, rfl⟩) (fun t ht => ?_)
  obtain ⟨i, hi⟩ := List.mem_iff_getElem?.mp ht
  rw [Watch.wake, List.getElem?_modify] at hi
  obtain ⟨old, hOld, rfl⟩ := Option.map_eq_some_iff.mp hi
  by_cases hk : k = i
  · subst hk
    have hCancelled := h.isCancelled_of_isWoken (List.mem_of_getElem? hOld) (hWoken old hOld)
    rw [if_pos rfl]
    exact .inr (.inr ⟨rfl, hCancelled⟩)
  · rw [if_neg hk]
    exact .inl (List.mem_of_getElem? hOld)

theorem Truthful.leave (h : w.Truthful) (k : Nat) : (w.leave k).Truthful :=
  h.of_fewer rfl rfl (fun g hg => ⟨g, hg, rfl⟩) (fun _ ht => .inl (List.mem_of_mem_eraseIdx ht))

end Reach

/-! ### Runs -/

section Runs

variable {ops : List Op} {w : Watch}

theorem Run.truthful (run : Run ops w) : w.Truthful := by
  induction run with
  | start => exact ⟨nofun, nofun, nofun, nofun, nofun, nofun⟩
  | op _ op ih => exact ih.apply op
  | lose _ l created lost ih => exact ih.signal created lost
  | wake _ k woken ih => exact ih.wake woken
  | leave _ k ih => exact ih.leave k

/-- Signals and waiters have no part in what becomes of the lifetimes and their handles. -/
theorem Run.sameTree (run : Run ops w) : SameTree (after ops) w := by
  induction run with
  | start => exact .refl _
  | op _ op ih =>
      rw [after_snoc]
      exact ⟨(ih.apply op).lifetimes, (ih.apply op).handles⟩
  | lose _ _ _ _ ih => exact ⟨ih.lifetimes, ih.handles⟩
  | wake _ _ _ ih => exact ⟨ih.lifetimes, ih.handles⟩
  | leave _ _ ih => exact ⟨ih.lifetimes, ih.handles⟩

theorem waiters_apply (w : Watch) (op : Op) :
    ((w.apply op).waiters = w.waiters ∧ ∀ name tag l, op = .wait name tag → w.handle? name ≠ some l) ∨
      ∃ name tag l, op = .wait name tag ∧ w.handle? name = some l ∧
        (w.apply op).waiters = w.waiters ++ [⟨tag, l, false⟩] := by
  cases op with
  | create name => exact .inl ⟨rfl, by simp⟩
  | drop name => exact .inl ⟨rfl, by simp⟩
  | child parent name =>
      refine .inl ⟨?_, by simp⟩
      cases hFound : w.handle? parent <;> simp only [apply, hFound, create, bind]
  | clone source name =>
      refine .inl ⟨?_, by simp⟩
      cases hFound : w.handle? source <;> simp only [apply, hFound, bind]
  | cancel name =>
      refine .inl ⟨?_, by simp⟩
      cases hFound : w.handle? name with
      | none => simp only [apply, hFound]
      | some l =>
          simp only [apply, hFound, cancel]
          split <;> rfl
  | wait name tag =>
      cases hFound : w.handle? name with
      | none =>
          refine .inl ⟨by simp only [apply, hFound], fun other _ l h => ?_⟩
          cases h
          simp [hFound]
      | some l => exact .inr ⟨name, tag, l, rfl, hFound, by simp only [apply, hFound]⟩

theorem Run.called (run : Run ops w) {t : Waiter} (ht : t ∈ w.waiters) :
    WaitCalled ops t.tag t.lifetime := by
  induction run generalizing t with
  | start => cases ht
  | @op ops w prior op ih =>
      rw [WaitCalled, happened_snoc]
      rcases waiters_apply w op with ⟨hSame, -⟩ | ⟨name, tag, l, hOp, hFound, hNew⟩
      · exact .inl (ih (hSame ▸ ht))
      · rw [hNew, List.mem_append, List.mem_singleton] at ht
        rcases ht with hOld | rfl
        · exact .inl (ih hOld)
        · exact .inr ⟨name, hOp, prior.sameTree.handle? name ▸ hFound⟩
  | lose _ _ _ _ ih => exact ih ht
  | @wake ops w prior k _ ih =>
      obtain ⟨i, hi⟩ := List.mem_iff_getElem?.mp ht
      rw [Watch.wake, List.getElem?_modify] at hi
      obtain ⟨old, hOld, rfl⟩ := Option.map_eq_some_iff.mp hi
      have hCalled := ih (List.mem_of_getElem? hOld)
      split <;> exact hCalled
  | leave _ _ ih => exact ih (List.mem_of_mem_eraseIdx ht)

/-- Any lifetimes that are lost can give their signals one after another. -/
theorem Run.signals (run : Run ops w) {lost : List LifetimeId}
    (hLost : ∀ l ∈ lost, l < w.lifetimes.next ∧ w.isKept l = false) :
    Run ops { w with signals := w.signals ++ lost } := by
  induction lost using List.reverseRecOn with
  | nil => rwa [List.append_nil]
  | append_singleton lost l ih =>
      rw [← List.append_assoc]
      obtain ⟨hl, hNotKept⟩ := hLost l (List.mem_append_right _ (List.mem_singleton_self l))
      exact .lose (ih fun k hk => hLost k (List.mem_append_left _ hk)) l hl hNotKept

theorem Run.release (run : Run ops w) : Run ops w.release := by
  refine run.signals fun l hl => ?_
  rw [List.mem_filter, List.mem_range] at hl
  exact ⟨hl.1, by simpa using (Bool.and_eq_true_iff.mp hl.2).1⟩

/-- The waiters can finish one after another. -/
theorem Run.settle (run : Run ops w) : Run ops w.settle := by
  suffices hFrom : ∀ (todo done : List Waiter) (w : Watch), Run ops w → w.waiters = done ++ todo →
      Run ops { w with waiters := done ++ todo.map fun t =>
        { t with finished := t.finished || w.isWoken t } } from hFrom w.waiters [] w run rfl
  intro todo
  induction todo with
  | nil =>
      intro done w run hWaiters
      rwa [List.map_nil, ← hWaiters]
  | cons t todo ih =>
      intro done w run hWaiters
      have hHere : w.waiters[done.length]? = some t := by
        rw [hWaiters, List.getElem?_append_right (Nat.le_refl _), Nat.sub_self, List.getElem?_cons_zero]
      rw [List.map_cons, List.append_cons]
      cases hWoken : w.isWoken t with
      | true =>
          have hWake : (w.wake done.length).waiters = done ++ { t with finished := true } :: todo := by
            rw [Watch.wake, List.modify_eq_take_cons_drop (List.getElem?_eq_some_iff.mp hHere).1]
            simp [hWaiters]
          have run' := run.wake done.length fun t' ht' => by
            rwa [← Option.some.inj (hHere.symm.trans ht')]
          rw [Bool.or_true]
          exact ih (done ++ [{ t with finished := true }]) (w.wake done.length) run'
            (by rw [hWake, List.append_cons])
      | false =>
          rw [Bool.or_false]
          exact ih (done ++ [t]) w run (by rw [hWaiters, List.append_cons])

theorem Settled.settle (w : Watch) : w.settle.Settled := by
  intro t ht hNot
  obtain ⟨old, -, rfl⟩ := List.mem_map.mp ht
  exact (Bool.or_eq_false_iff.mp hNot).2

/-- The steps that run are a run in which everything follows at once. -/
theorem run_after (ops : List Op) : Run ops (after ops) := by
  induction ops using List.reverseRecOn with
  | nil => exact .start
  | append_singleton ops op ih =>
      rw [after_snoc]
      exact (ih.op op).release.settle

theorem settled_after (ops : List Op) : (after ops).Settled := by
  rcases List.eq_nil_or_concat ops with rfl | ⟨ops, op, rfl⟩
  · exact nofun
  · rw [List.concat_eq_append, after_snoc]
    exact .settle _

/-- In these nobody is given up. -/
theorem waits_after {tag : String} {l : LifetimeId} (h : WaitCalled ops tag l) :
    ∃ t ∈ (after ops).waiters, t.tag = tag ∧ t.lifetime = l := by
  induction ops using List.reverseRecOn with
  | nil => exact absurd h (happened_nil _)
  | append_singleton ops op ih =>
      have hKeeps (t : Waiter) (ht : t ∈ ((after ops).apply op).waiters) :
          ∃ t' ∈ (after (ops ++ [op])).waiters, t'.tag = t.tag ∧ t'.lifetime = t.lifetime := by
        rw [after_snoc]
        exact ⟨_, List.mem_map_of_mem ht, rfl, rfl⟩
      rw [WaitCalled, happened_snoc] at h
      rcases waiters_apply (after ops) op with ⟨hSame, hNoWait⟩ | ⟨name, tag', l', hOp, hFound, hNew⟩
      · rcases h with hOld | ⟨name, hOp, hFound⟩
        · obtain ⟨t, ht, rfl, rfl⟩ := ih hOld
          exact hKeeps t (hSame ▸ ht)
        · exact absurd hFound (hNoWait name tag l hOp)
      · rcases h with hOld | ⟨other, hOp', hFound'⟩
        · obtain ⟨t, ht, rfl, rfl⟩ := ih hOld
          exact hKeeps t (hNew ▸ List.mem_append_left _ ht)
        · cases hOp.symm.trans hOp'
          cases hFound.symm.trans hFound'
          exact hKeeps ⟨tag, l, false⟩ (hNew ▸ List.mem_append_right _ (List.mem_singleton_self _))

/-- In every run, whatever is dropped and in whatever order the signals are given, a task has waited for
its lifetime since that had a handle, and it has finished only if that is cancelled: `cancel` was called on
it or on one above it. When no waiter is about to finish, those whose lifetime is cancelled have all
finished. Every run comes to that by letting the waiters finish; the steps that run do so each time, and
there no task that was started is missing. -/
theorem finished_iff_cancelled (run : Run ops w) :
    (∀ l, w.lifetimes.isCancelled l = true ↔ ∃ a, Above ops a l ∧ CancelCalled ops a) ∧
    (∀ t ∈ w.waiters, WaitCalled ops t.tag t.lifetime) ∧
    (∀ t ∈ w.waiters, t.finished = true → w.lifetimes.isCancelled t.lifetime = true) ∧
    (w.Settled → ∀ t ∈ w.waiters, t.finished = true ↔ w.lifetimes.isCancelled t.lifetime = true) ∧
    (Run ops w.settle ∧ w.settle.Settled) ∧
    (Run ops (after ops) ∧ (after ops).Settled ∧ ∀ tag l, WaitCalled ops tag l →
      ∃ t ∈ (after ops).waiters, t.tag = tag ∧ t.lifetime = l) := by
  refine ⟨fun l => ?_, fun t ht => run.called ht, run.truthful.finished, fun settled t ht =>
    ⟨run.truthful.finished t ht, fun hCancelled => ?_⟩, ⟨run.settle, .settle w⟩, run_after ops,
    settled_after ops, fun tag l => waits_after⟩
  · rw [← run.sameTree.lifetimes]
    exact isCancelled_after ops l
  · have hWoken := run.truthful.isWoken_of_isCancelled hCancelled
    refine (Bool.not_eq_false _).mp fun hNot => ?_
    rw [settled t ht hNot] at hWoken
    cases hWoken

/-- The handle of a lifetime is dropped before the one above it is cancelled, and its waiter finishes.
Another lifetime has only its waiter left, and that waits on. -/
theorem finished_below_dropped_handle :
    let ops : List Op := [.create "root", .child "root" "leaf", .wait "leaf" "below", .drop "leaf",
      .create "other", .wait "other" "alone", .drop "other", .cancel "root"]
    Run ops (after ops) ∧ (after ops).waiters = [⟨"below", 1, true⟩, ⟨"alone", 2, false⟩] ∧
      (after ops).lifetimes.isCancelled 1 = true ∧ ¬ (after ops).lifetimes.isCancelled 2 = true := by
  intro ops
  have hWaiters : (after ops).waiters = [⟨"below", 1, true⟩, ⟨"alone", 2, false⟩] := by decide +kernel
  obtain ⟨-, -, -, hSettled, -, run, settled, -⟩ := finished_iff_cancelled (run_after ops)
  refine ⟨run, hWaiters, ?_, fun hCancelled => ?_⟩
  · exact (hSettled settled ⟨"below", 1, true⟩ (by simp [hWaiters])).mp rfl
  · have hFinished := (hSettled settled ⟨"alone", 2, false⟩ (by simp [hWaiters])).mpr hCancelled
    cases hFinished

end Runs

end Watch

end PeerLink
