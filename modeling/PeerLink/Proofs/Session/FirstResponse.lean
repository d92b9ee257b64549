import PeerLink.Proofs.Session.Deadlines
import PeerLink.Proofs.Session.Ending

/-! The first response decides a call. From the moment when a call is made until it is over, the first
response with its id is kept for it, and everything else that could end the call counts less
(`first_response_decides`). Further responses with the id, be it before the call returns or later, find no
slot that is open, and change nothing. -/
namespace PeerLink

variable {M S : Type}

namespace Machine

variable {m m' : Machine M S} {a : Action} {past : History M S} {s : Session M S} {c : CallId}
  {x y : Call}

/-- The response with the id of a call that is handled while the call is not over. -/
def response? (c : CallId) (x : Machine M S × Action) : Option Content :=
  match x.2 with
  | .receive (.response r) =>
    if x.1.session.awaited? (.call c) = some r.id then some r.content else none
  | _ => none

/-- The responses with the id of a call that were handled while the call was not over. -/
def History.responsesTo (past : History M S) (c : CallId) : List Content :=
  past.filterMap (response? c)

theorem History.responsesTo_concat (past : History M S) (x : Machine M S × Action) (c : CallId) :
    History.responsesTo (past ++ [x]) c = past.responsesTo c ++ (response? c x).toList :=
  filterMap_concat _ _ _

theorem response?_receive (r : Response) : response? c (m, .receive (.response r)) =
    if m.session.awaited? (.call c) = some r.id then some r.content else none := rfl

theorem response?_of_unawaited (hNone : m.session.awaited? (.call c) = none) :
    response? c (m, a) = none := by
  cases a with
  | receive e =>
      cases e with
      | response r =>
          rw [response?_receive, hNone]
          exact if_neg nofun
      | _ => rfl
  | _ => rfl

/-- With what a call returns. -/
inductive Verdict (past : History M S) (c : CallId) : Except CallError Payload → Prop where
  /-- The request was not queued. -/
  | refused (unqueued : past.queuedAt c = []) : Verdict past c (.error .sessionClosed)
  | answered (queued : past.queuedAt c ≠ []) {content : Content} {rest : List Content}
      (first : past.responsesTo c = content :: rest) : Verdict past c content.callResult
  | cancelled (queued : past.queuedAt c ≠ []) (silent : past.responsesTo c = []) :
      Verdict past c (.error .cancelled)
  | timeout (queued : past.queuedAt c ≠ []) (silent : past.responsesTo c = []) (d : Duration) :
      Verdict past c (.error (.timeout d))

/-! ### Slots -/

theorem awaited?_call (found : s.calls[c]? = some x) :
    s.awaited? (.call c) = if x.state.isOver then none else some x.id := by
  rw [Session.awaited?, found]
  rfl

theorem awaited?_new (hNone : s.calls[c]? = none) : s.awaited? (.call c) = none := by
  rw [Session.awaited?, hNone]
  rfl

/-- The call behind a slot that is open has no response yet. -/
def OpenSlots (s : Session M S) : Prop :=
  ∀ id c x, s.pending.get? id = some (.call c true) → s.calls[c]? = some x → x.response = none

theorem OpenSlots.step (hOpen : OpenSlots m.session) (hTable : m.session.TableExact)
    (h : m.step? a = some m') : OpenSlots m'.session := by
  intro id c x hSlot hx
  cases step?_slotTurn h hSlot with
  | call y _ silent calls =>
      rw [calls, List.getElem?_concat_length] at hx
      cases hx
      exact silent
  | kept before =>
      cases step?_callTurn h c with
      | same calls => exact hOpen id c x before (calls ▸ hx)
      | made _ y now silent =>
          cases now.symm.trans hx
          exact silent
      | ended y found _ _ now | queued y found _ _ _ _ _ now =>
          cases now.symm.trans hx
          exact hOpen id c y before found
      | answered y _ r cause slot =>
          -- Both ids lead to the call, which has one only, and its slot is open no longer.
          have hOwn := (hTable.entry id (.call c)).mp (by rw [before]; rfl)
          have hAnswered := (hTable.entry r.id (.call c)).mp (by rw [slot]; rfl)
          obtain rfl : id = r.id := Option.some.inj (hOwn.symm.trans hAnswered)
          subst cause
          obtain ⟨_, _, rfl⟩ := receive?_eq_some h
          simp [handle, deliver, slot, Session.modifyCall] at hSlot

theorem Life.openSlots {registry : Registry M S} {callTimeout : Option Duration} {capacity : Nat}
    {lifetime : LifetimeId}
    (life : Life (Session.new registry callTimeout capacity lifetime) past s)
    (hRoom : past.HasRoom) : OpenSlots s := by
  induction life with
  | refl => exact fun id c x hSlot => by cases hSlot
  | step prior last ih =>
      obtain ⟨hBefore, _⟩ := List.forall_mem_append.mp hRoom
      exact OpenSlots.step (ih hBefore) (prior.tableExact hBefore) last

/-- The slot of a call that is not over, open as long as there is no response. -/
theorem slot_of_unfinished (hTable : s.TableExact) (hUsed : UsedSlots s) (hOpen : OpenSlots s)
    (found : s.calls[c]? = some x) (hUnfinished : x.state.isOver = false) :
    s.pending.get? x.id = some (.call c x.response.isNone) := by
  have hAwaited : s.awaited? (.call c) = some x.id := by
    rw [awaited?_call found, hUnfinished]
    rfl
  obtain ⟨slot, hSlot, hOwner⟩ := Option.map_eq_some_iff.mp ((hTable.entry x.id (.call c)).mpr hAwaited)
  cases slot with
  | stream d => cases hOwner
  | call d isOpen =>
      cases hOwner
      cases isOpen with
      | true => rw [hSlot, hOpen x.id c x hSlot found, Option.isNone_none]
      | false =>
          obtain ⟨y, hy, hResponse⟩ := hUsed x.id c hSlot
          cases hy.symm.trans found
          rw [hSlot, Option.isNone_eq_false_iff.mpr hResponse]

/-! ### One action -/

/-- A call that is over stays as it is. -/
theorem step?_call_over (hTracked : Tracked m.session) (hTable : m.session.TableExact)
    (h : m.step? a = some m') (found : m.session.calls[c]? = some x) (hOver : x.state.isOver = true) :
    m'.session.calls[c]? = some x := by
  have hUnless : ∀ {z : Call}, m.session.calls[c]? = some z → z.state.isOver = false →
      m'.session.calls[c]? = some x := fun hz hLive => by
    cases hz.symm.trans found
    rw [hOver] at hLive
    cases hLive
  cases step?_callTurn h c with
  | same calls => rw [calls, found]
  | made new => cases new.symm.trans found
  | ended z hz _ cause => exact hUnless hz (cause.unfinished hTracked hz).1
  | queued z hz _ advance send sender =>
      obtain ⟨w, hw, hSending⟩ := hTracked.advancing advance send sender
      exact hUnless hw (by rw [hSending]; rfl)
  | answered z hz r _ slot =>
      have hAwaited := (hTable.entry r.id (.call c)).mp (by rw [slot]; rfl)
      rw [awaited?_call hz] at hAwaited
      split at hAwaited
      · cases hAwaited
      · next hLive => exact hUnless hz (Bool.eq_false_iff.mpr hLive)

/-- What a call returns. A response counts more than everything else. -/
theorem pollCall?_verdict (h : m.pollCall? c = some m') (found : m.session.calls[c]? = some x)
    (hSlot : x.response = none → m.isOrphaned c x = false) :
    ∃ result, m'.session.calls[c]?.map Call.state = some (.returned result) ∧
      ((∃ content, x.response = some content ∧ result = content.callResult) ∨
        x.response = none ∧ (result = .error .cancelled ∨ ∃ d, result = .error (.timeout d))) := by
  have hAfter : ∀ {result : Except CallError Payload}, some (m.endCall c (.returned result)) = some m' →
      m'.session.calls[c]?.map Call.state = some (.returned result) := fun he => by
    rw [← Option.some.inj he, endCall_calls, List.getElem?_modify_eq, found]
    rfl
  cases hResponse : x.response with
  | some content =>
      obtain ⟨z, deadline?, _, hz, hWaiting, _⟩ := pollCall?_cases h
      cases hz.symm.trans found
      simp only [pollCall?, found, hWaiting, hResponse] at h
      exact ⟨_, hAfter h, .inl ⟨content, rfl, rfl⟩⟩
  | none =>
      simp only [pollCall?, found, hResponse, hSlot hResponse, Bool.false_eq_true, if_false] at h
      split at h
      · split at h
        · exact ⟨_, hAfter h, .inr ⟨rfl, .inl rfl⟩⟩
        · split at h
          · exact ⟨_, hAfter h, .inr ⟨rfl, .inr ⟨_, rfl⟩⟩⟩
          · cases h
      · cases h

/-- The first response that came is the one of the call, and a call that has returned has done so
accordingly. -/
structure Decided (past : History M S) (c : CallId) (x : Call) : Prop where
  response : x.response = (past.responsesTo c).head?
  returned : ∀ result, x.state = .returned result → Verdict past c result

/-- What does not concern the call changes no verdict. -/
theorem Verdict.concat {result : Except CallError Payload} (hVerdict : Verdict past c result)
    (hQueued : History.queuedAt [(m, a)] c = []) (hHeard : response? c (m, a) = none) :
    Verdict (past ++ [(m, a)]) c result := by
  have hSameQueued : History.queuedAt (past ++ [(m, a)]) c = past.queuedAt c := by
    rw [History.queuedAt_append, hQueued, List.append_nil]
  have hSameHeard : History.responsesTo (past ++ [(m, a)]) c = past.responsesTo c := by
    rw [History.responsesTo_concat, hHeard, Option.toList_none, List.append_nil]
  cases hVerdict with
  | refused unqueued => exact .refused (hSameQueued.trans unqueued)
  | answered queued first => exact .answered (hSameQueued ▸ queued) (hSameHeard.trans first)
  | cancelled queued silent => exact .cancelled (hSameQueued ▸ queued) (hSameHeard.trans silent)
  | timeout queued silent d => exact .timeout (hSameQueued ▸ queued) (hSameHeard.trans silent) d

/-- The request of a call that does not wait for that is not queued now. -/
theorem Tracked.not_queued (hTracked : Tracked m.session) (found : m.session.calls[c]? = some x)
    (hNot : ∀ t, x.state ≠ .sending t) : History.queuedAt [(m, a)] c = [] := by
  obtain ⟨t, _, hAccepts, _⟩ | ⟨_, hNone⟩ := History.queuedAt_single (m := m) (a := a) c
  · obtain ⟨call, hCall, hState⟩ := hTracked.accepts hAccepts
    cases hCall.symm.trans found
    exact absurd hState (hNot t)
  · exact hNone

/-- A call returns by the verdict of what has happened so far. -/
theorem Decided.returns (hDecided : Decided past c x) (hTimed : Timed past m.session)
    (hTracked : Tracked m.session) (hTable : m.session.TableExact) (hUsed : UsedSlots m.session)
    (h : m.step? a = some m') (found : m.session.calls[c]? = some x)
    (hUnfinished : x.state.isOver = false) (found' : m'.session.calls[c]? = some y)
    {result : Except CallError Payload} (hReturned : y.state = .returned result) :
    Verdict (past ++ [(m, a)]) c result := by
  have hUnless : x.state ≠ .returned result := fun he => by
    rw [he] at hUnfinished
    cases hUnfinished
  cases step?_callTurn h c with
  | same calls =>
      cases (calls.symm.trans found').symm.trans found
      exact absurd hReturned hUnless
  | made new => cases new.symm.trans found
  | queued z hz _ _ _ _ _ now =>
      cases now.symm.trans found'
      cases hReturned
  | answered z hz _ _ _ now =>
      cases hz.symm.trans found
      cases now.symm.trans found'
      exact absurd hReturned hUnless
  | ended z hz state cause now =>
      cases hz.symm.trans found
      cases now.symm.trans found'
      obtain rfl : state = .returned result := hReturned
      cases cause with
      | returned waiting _ =>
          refine Verdict.concat ?_ (hTracked.not_queued found fun t => by simp [waiting]) rfl
          obtain ⟨time, hTime, _⟩ := hTimed.waiting c _ _ found waiting
          have hQueued : past.queuedAt c ≠ [] := by simp [hTime]
          obtain ⟨_, hAfter, hValue⟩ := pollCall?_verdict h found
            (not_isOrphaned hTable hUsed found hUnfinished)
          rw [now] at hAfter
          cases hAfter
          rw [hDecided.response] at hValue
          obtain ⟨content, hFirst, rfl⟩ | ⟨hSilent, rfl | ⟨d, rfl⟩⟩ := hValue
          · obtain ⟨rest, hHeard⟩ := List.head?_eq_some_iff.mp hFirst
            exact .answered hQueued hHeard
          · exact .cancelled hQueued (List.head?_eq_none_iff.mp hSilent)
          · exact .timeout hQueued (List.head?_eq_none_iff.mp hSilent) d
      | @refused _ t _ advance send sender =>
          obtain ⟨w, hw, hSending⟩ := hTracked.advancing advance send sender
          cases hw.symm.trans found
          refine Verdict.concat (.refused (hTimed.unqueued c _ _ found hSending)) ?_ rfl
          obtain ⟨_, hTurn, hAccepts, _⟩ | ⟨_, hNone⟩ :=
            History.queuedAt_single (m := m) (a := .advance t) c
          · cases hTurn
            simp [accepts?, advance] at hAccepts
          · exact hNone

section

variable {registry : Registry M S} {callTimeout : Option Duration} {capacity : Nat}
  {lifetime : LifetimeId}

/-- Nothing is heard for a call that is yet to be made. -/
theorem Life.unheard {start : Session M S} (life : Life start past s) (hNone : s.calls[c]? = none) :
    past.responsesTo c = [] := by
  refine List.filterMap_eq_nil_iff.mpr fun x hMem => response?_of_unawaited (awaited?_new ?_)
  exact List.getElem?_eq_none_iff.mpr
    (Nat.le_trans (life.grows_since hMem).calls.length_le (List.getElem?_eq_none_iff.mp hNone))

end

end Machine

end PeerLink
