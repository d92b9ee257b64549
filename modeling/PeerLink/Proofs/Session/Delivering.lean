import PeerLink.Proofs.Session.Deadlines
import PeerLink.Proofs.Session.Overtaking
import PeerLink.Proofs.Session.PendingTable

/-! What the transport misses. An envelope that was sent reaches the queue, unless its sender gave up while
it waited or the transport had gone away before. So whoever looks at certain envelopes only, which are sent
one after the other and on which nobody gives up, finds that the transport took the first of them, without a
gap (`Life.taken_first`). -/
namespace PeerLink

variable {M S α : Type}

/-- The sender waited for each of its sends until the end. -/
def Session.Patient (s : Session M S) (x : Sender) : Prop :=
  ∀ z ∈ s.sends, z.sender = x → z.state ≠ .givenUp

instance (s : Session M S) (x : Sender) : Decidable (s.Patient x) :=
  inferInstanceAs (Decidable (∀ z ∈ s.sends, _ → _))

namespace Machine

variable {m m' : Machine M S} {a : Action} {past : History M S} {g : Envelope → Option α}

/-! ### Sends that were given up -/

/-- Only a handler or the program gives up, and a session never gives up on what it sends by itself. -/
def PatientTasks (s : Session M S) : Prop :=
  ∀ z ∈ s.sends, z.state = .givenUp → z.sender.canGiveUp = true ∨ ∃ c, z.sender = .call c

theorem PatientTasks.step (hPatient : PatientTasks m.session) (hHeld : SendsHeld m.session)
    (h : m.step? a = some m') : PatientTasks m'.session := by
  intro z hz hState
  cases step?_sends h with
  | kept sends _ => exact hPatient z (sends ▸ hz) hState
  | began x e _ sends _ =>
      rw [sends] at hz
      rcases List.mem_append.mp hz with hz | hz
      · exact hPatient z hz hState
      · rw [List.mem_singleton.mp hz] at hState
        cases hState
  | gaveUp u cause sends _ =>
      rw [sends, Session.giveUp] at hz
      split at hz
      · exact hPatient z hz hState
      · obtain hz | ⟨y, hy, rfl⟩ := mem_modify hz
        · exact hPatient z hz hState
        · obtain ⟨x, hx, hCan⟩ | ⟨c, call, _, hCall, hSending⟩ := cause
          · cases hy.symm.trans hx
            exact .inl hCan
          · obtain ⟨_, x, hx, hSender⟩ := hHeld c call u hCall hSending
            cases hy.symm.trans hx
            exact .inr ⟨c, hSender⟩
  | queued _ _ _ _ next =>
      rw [next] at hz
      exact hPatient z hz hState
  | completed outbound u result _ _ next =>
      rw [next, finishSend_sends] at hz
      obtain hz | ⟨y, _, rfl⟩ := mem_modify hz
      · exact hPatient z hz hState
      · cases hState
  | taken _ _ _ _ next =>
      rw [next] at hz
      exact hPatient z hz hState
  | abandoned _ next =>
      rw [next] at hz
      exact hPatient z hz hState

/-- Who has never given up had not done so before either. -/
theorem step?_patient {x : Sender} (hTracked : Tracked m.session) (h : m.step? a = some m')
    (hPatient : m'.session.Patient x) : m.session.Patient x := by
  intro z hz hSender hState
  obtain ⟨t, hTicket⟩ := List.mem_iff_getElem?.mp hz
  have hKept := step?_givenUp hTracked h hTicket hState
  exact hPatient z (List.mem_of_getElem? hKept) hSender hState

theorem Life.patient_before {start s : Session M S} {x : Sender} (life : Life start past s)
    (hTracked : Tracked start) (hPatient : s.Patient x) : start.Patient x := by
  induction life with
  | refl => exact hPatient
  | step prior last ih => exact ih (step?_patient (prior.tracked hTracked) last hPatient)

/-! ### What reaches the transport -/

section

variable {registry : Registry M S} {callTimeout : Option Duration} {capacity : Nat}
  {lifetime : LifetimeId} {s : Session M S}

theorem Life.patientTasks
    (life : Life (Session.new registry callTimeout capacity lifetime) past s) : PatientTasks s := by
  induction life with
  | refl => exact nofun
  | step prior last ih =>
      exact PatientTasks.step ih
        (prior.sendsHeld fun c call t hCall => by simp [Session.new] at hCall) last

/-- Of envelopes that were sent one after the other, and on which nobody gave up, the first ones got in. -/
theorem Life.entered_first
    (life : Life (Session.new registry callTimeout capacity lifetime) past s)
    (hSpares : s.Spares fun x => (g x.2).isSome) (hSerial : past.Serial s fun x => (g x.2).isSome) :
    ((History.entered past).map Prod.snd).filterMap g <+: s.sent.filterMap g := by
  have hFirst := life.accepted_first (g := fun x => g x.2) hSerial hSpares fun x hx => by simpa using hx
  rwa [← life.queueing.accepted_envelopes, Session.sent, List.filterMap_map, List.filterMap_map]

/-- And the transport took the first ones, in the order in which they were sent. -/
theorem Life.taken_first
    (life : Life (Session.new registry callTimeout capacity lifetime) past s)
    (hSpares : s.Spares fun x => (g x.2).isSome) (hSerial : past.Serial s fun x => (g x.2).isSome) :
    (History.taken past).filterMap g <+: s.sent.filterMap g := by
  have hTaken : History.taken past <+: (History.entered past).map Prod.snd :=
    (List.prefix_append _ _).trans life.queueing.flow
  exact (hTaken.filterMap g).trans (life.entered_first hSpares hSerial)

/-- When its send is over, an envelope on which nobody gave up has got in, or nobody takes envelopes. -/
theorem Life.entered_of_idle
    (life : Life (Session.new registry callTimeout capacity lifetime) past s)
    {t : Ticket} (hIdle : t ∉ s.outbound.tickets) (hLive : s.outbound.abandoned = false) {z : Send}
    (hz : s.sends[t]? = some z) (hPatient : z.state ≠ .givenUp) :
    t ∈ (History.entered past).map Prod.fst := by
  obtain hWaiting | hIn | hGivenUp | hRefused := life.whereabouts hz
  · exact absurd (List.mem_append_right _ hWaiting) hIdle
  · exact hIn
  · exact absurd hGivenUp hPatient
  · cases hLive.symm.trans (life.refusedLate z (List.mem_of_getElem? hz) hRefused)

end

end Machine

end PeerLink
