import PeerLink.Proofs.Link.Execution
import PeerLink.Proofs.Session.Ending

/-! How a transport ends its session. Whatever the tasks of a transport do, a session could have come to
alone: they count, they note, they take envelopes, and when a write fails they cancel the session. So a
session with a transport is over after a failed write as after any other end. -/
namespace PeerLink

variable {M S : Type}

namespace Machine

variable {m m' q : Machine M S} {a : Action}

/-- Some actions lead from one state to the other. -/
def Reaches (m m' : Machine M S) : Prop :=
  ∃ past, Execution m past m'

theorem Reaches.refl (m : Machine M S) : m.Reaches m :=
  ⟨[], .refl⟩

theorem Reaches.step (h : m.Reaches q) (last : q.step? a = some m') : m.Reaches m' := by
  obtain ⟨past, exec⟩ := h
  exact ⟨_, exec.step last⟩

theorem Reaches.trans (h : m.Reaches q) (later : q.Reaches m') : m.Reaches m' := by
  obtain ⟨before, exec⟩ := h
  obtain ⟨after, later⟩ := later
  exact ⟨_, exec.append later⟩

theorem Noted.reaches (h : m.Noted m') : m.Reaches m' := by
  obtain ⟨meter, journal, rfl⟩ := h
  exact (Reaches.refl m).step (a := .others meter journal) rfl

theorem Reaches.rooted (h : m.Reaches m') (hRooted : m.Rooted) : m'.Rooted := by
  obtain ⟨past, exec⟩ := h
  exact exec.rooted hRooted

/-- Whoever cancels the lifetime of a session ends the session. -/
theorem Rooted.isEnded_cancel (hRooted : m.Rooted) : (m.cancel m.session.lifetime).isEnded = true := by
  have hRoot : (m.lifetimes.cancel m.session.lifetime).parent? m.session.lifetime = some none := by
    rw [Lifetimes.parent?_cancel, hRooted.root]
  have hFlagged := (Lifetimes.isFlagged_cancel m.lifetimes m.session.lifetime m.session.lifetime).mpr
    (.inr ⟨rfl, Lifetimes.lt_next_of_parent? hRooted.root⟩)
  exact (Lifetimes.isCancelled_root hRoot).trans hFlagged

end Machine

namespace WriteStep

variable {m m' : Machine M S} {o o' : Outlet} {a? : Option Machine.Action}

theorem reaches (h : WriteStep m o a? m' o') : m.Reaches m' := by
  cases h with
  | took e hand? m₁ _ _ _ _ take _ noted =>
      exact ((Machine.Reaches.refl m).step (Machine.takeOutbound?_step take)).trans noted.reaches
  | put => exact .refl m
  | refused packet m₁ _ _ noted =>
      have hCancelled := noted.reaches.step (a := .cancel m₁.session.lifetime) rfl
      exact hCancelled.step (a := .abandon) rfl
  | noticed => exact .refl m
  | closing _ _ _ _ _ _ _ _ session =>
      obtain ⟨-, rfl⟩ | ⟨-, rfl⟩ := session
      · exact .refl m'
      · exact (Machine.Reaches.refl m).step (a := .abandon) rfl

/-- A sink that refuses a packet ends the session. -/
theorem isEnded {packet : Link.Written} (h : WriteStep m o a? m' o') (hRooted : m.Rooted)
    (hOpen : o.isOpen = true) (hHand : o.hand? = some packet) (hRefuses : o.refuses = true) :
    m'.isEnded = true := by
  cases h with
  | took _ _ _ _ _ hand =>
      rw [hHand] at hand
      cases hand
  | put _ _ _ _ _ accepts =>
      rw [hRefuses] at accepts
      cases accepts
  | refused _ m₁ _ _ noted =>
      have hRootedAt := noted.reaches.rooted hRooted
      have hCancelled := hRootedAt.step (a := .cancel m₁.session.lifetime) rfl
      exact hCancelled.isEnded_step (a := .abandon) rfl hRootedAt.isEnded_cancel
  | noticed _ hand =>
      rw [hHand] at hand
      cases hand
  | closing _ _ _ shut =>
      rw [hOpen] at shut
      cases shut

end WriteStep

namespace Linked

/-- A session with a transport goes where a session can go alone. -/
theorem step?_reaches {l l' : Linked M S} {x : Action} (h : l.step? x = some l') :
    l.toMachine.Reaches l'.toMachine := by
  cases x with
  | act a =>
      rw [step?] at h
      split at h
      · obtain ⟨m, hStep, rfl⟩ := Option.map_eq_some_iff.mp h
        exact (Machine.Reaches.refl _).step hStep
      · cases h
  | read =>
      obtain ⟨⟨m, t⟩, hRead, rfl⟩ := Option.map_eq_some_iff.mp h
      exact (Transport.read?_frame hRead).1.reaches
  | consume =>
      obtain ⟨⟨m, t⟩, hConsume, rfl⟩ := Option.map_eq_some_iff.mp h
      obtain ⟨a, _, hStep, _⟩ := Transport.consume?_frame hConsume
      exact (Machine.Reaches.refl _).step hStep
  | write =>
      obtain ⟨⟨m, t⟩, hWrite, rfl⟩ := Option.map_eq_some_iff.mp h
      obtain ⟨_, _, _, hTake⟩ | ⟨_, _, _, _, hWritten⟩ := Transport.write?_step hWrite
      · exact (Machine.Reaches.refl _).step hTake
      · exact hWritten.reaches
  | outside event =>
      obtain ⟨t, _, rfl⟩ := Option.map_eq_some_iff.mp h
      exact .refl _

theorem Execution.reaches {start l : Linked M S} {past : History M S} (exec : Execution start past l) :
    start.toMachine.Reaches l.toMachine := by
  induction exec with
  | refl => exact .refl _
  | step _ last ih => exact ih.trans (step?_reaches last)

/-- A sink refused the packet that its writer had for it. -/
def History.Refused (past : History M S) : Prop :=
  ∃ q o packet, (q, .write) ∈ past ∧ q.transport.outlet? = some o ∧ o.isOpen = true ∧
    o.hand? = some packet ∧ o.refuses = true

/-- A session has ended once its sink has refused a packet. -/
theorem Execution.isEnded_of_refused {start l : Linked M S} {past : History M S}
    (exec : Execution start past l) (hRooted : start.Rooted) (hRefused : past.Refused) :
    l.isEnded = true := by
  obtain ⟨q, o, packet, hMem, hOutlet, hOpen, hHand, hRefuses⟩ := hRefused
  induction exec with
  | refl => cases hMem
  | @step past p p' x prior last ih =>
      have hRootedAt := prior.reaches.rooted hRooted
      obtain hMem | hMem := List.mem_append.mp hMem
      · obtain ⟨_, later⟩ := step?_reaches last
        exact later.isEnded hRootedAt (ih hMem)
      · cases List.mem_singleton.mp hMem
        obtain ⟨⟨m, t⟩, hWrite, rfl⟩ := Option.map_eq_some_iff.mp last
        obtain ⟨hNone, _⟩ | ⟨_, _, hSome, _, hWritten⟩ := Transport.write?_step hWrite
        · rw [hOutlet] at hNone
          cases hNone
        · rw [hOutlet] at hSome
          cases hSome
          exact hWritten.isEnded hRootedAt hOpen hHand hRefuses

/-- So nothing more comes of it when it is settled. -/
theorem Execution.shutDown_of_refused {host : Host} {registry : Registry M S}
    {callTimeout : Option Duration} {capacity : Nat} {transport : Transport} {l : Linked M S}
    {past : History M S} (exec : Execution (new host registry callTimeout capacity transport) past l)
    (hRefused : past.Refused) (hSettled : l.Settled) : l.ShutDown := by
  have hRooted := Machine.rooted_new host registry callTimeout capacity
  have hEnded := exec.isEnded_of_refused hRooted hRefused
  obtain ⟨_, alone⟩ := exec.reaches
  exact (alone.rooted hRooted).shutDown hEnded (hSettled.stopped hEnded) alone.life.servingExact.stopped

end Linked

end PeerLink
