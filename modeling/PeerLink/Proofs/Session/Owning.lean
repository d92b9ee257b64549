import PeerLink.Proofs.IdTable
import PeerLink.Proofs.Session.Frame

/-! What one action does to the calls of a session, to the streams opened by it, and to the table of
their ids. `OwnerStep` lists the ways in which an entry comes, changes and goes. Each entry is removed
by its id, so that nothing else goes with it is a matter of the table and not of the action. `CallTurn` and
`SlotTurn` say what that comes to for one call and for one entry of the table. -/
namespace PeerLink

/-- The call has returned or was dropped. -/
def CallState.isOver : CallState → Bool
  | .returned _ => true
  | .dropped => true
  | _ => false

/-- The two records differ at most in what has arrived for the owner and in whether a close was sent. -/
structure ClientStream.Alike (x y : ClientStream) : Prop where
  id : y.id = x.id
  method : y.method = x.method
  lifetime : y.lifetime = x.lifetime
  ended : y.ended = x.ended
  closeSent : x.closeSent = true → y.closeSent = true

namespace Machine

variable {M S : Type}

/-- Why a call is over. -/
inductive Overs (m : Machine M S) (c : CallId) (call : Call) : Action → CallState → Prop where
  | dropped (unfinished : call.state.isOver = false) : Overs m c call (.dropCall c) .dropped
  | returned {deadline? : Option Nat} {result : Except CallError Payload}
      (waiting : call.state = .waiting deadline?)
      (reason : (∃ content, call.response = some content ∧ result = content.callResult) ∨
        result = .error .sessionClosed ∨ result = .error .cancelled ∨
        ∃ d, result = .error (.timeout d)) :
      Overs m c call (.pollCall c) (.returned result)
  | refused {outbound : Outbound} {t : Ticket} {x : Send}
      (advance : m.session.outbound.advance? t = some (outbound, some .refused))
      (found : m.session.sends[t]? = some x) (sender : x.sender = .call c) :
      Overs m c call (.advance t) (.returned (.error .sessionClosed))

/-- What one action does to the calls, to the streams opened here and to their table. -/
inductive OwnerStep (m m' : Machine M S) (a : Action) : Prop where
  | kept (calls : m'.session.calls = m.session.calls)
      (streams : m'.session.clientStreams = m.session.clientStreams)
      (table : m'.session.pending = m.session.pending)
      (nextId : m'.session.nextId = m.session.nextId)
  | started (id : Int32) (method : String) (payload : Payload) (timeout : Option Duration)
      (lifetime : Option LifetimeId) (cause : a = .call method payload timeout lifetime)
      (free : id = m.session.pending.free m.session.nextId)
      (calls : m'.session.calls = m.session.calls ++
        [{ id, method, lifetime, timeout := timeout.or m.session.callTimeout, response := none
           state := .sending m.session.sends.length }])
      (streams : m'.session.clientStreams = m.session.clientStreams)
      (table : m'.session.pending = m.session.pending.insert id (.call m.session.calls.length true))
      (nextId : m'.session.nextId = id + 1)
  | opened (id : Int32) (method : String) (cause : a = .openStream method)
      (free : id = m.session.pending.free m.session.nextId)
      (calls : m'.session.calls = m.session.calls)
      (streams : m'.session.clientStreams = m.session.clientStreams ++
        [{ id, method, lifetime := m.lifetimes.next, responses := [], ready := false, ended := false
           messages := [], closeSent := false }])
      (table : m'.session.pending =
        m.session.pending.insert id (.stream m.session.clientStreams.length))
      (nextId : m'.session.nextId = id + 1)
      (lifetimes : m'.lifetimes = m.lifetimes.add (some m.session.lifetime))
  /-- A call ends, and its entry goes. -/
  | callOver (c : CallId) (call : Call) (state : CallState)
      (found : m.session.calls[c]? = some call) (cause : m.Overs c call a state)
      (calls : m'.session.calls = m.session.calls.modify c fun x => { x with state })
      (streams : m'.session.clientStreams = m.session.clientStreams)
      (table : m'.session.pending = m.session.pending.erase call.id)
      (nextId : m'.session.nextId = m.session.nextId)
  /-- The request of a call is queued. -/
  | waits (c : CallId) (outbound : Outbound) (t : Ticket) (x : Send)
      (cause : a = .advance t)
      (advance : m.session.outbound.advance? t = some (outbound, some .accepted))
      (found : m.session.sends[t]? = some x) (sender : x.sender = .call c)
      (calls : m'.session.calls = m.session.calls.modify c fun x =>
        { x with state := .waiting (x.timeout.map fun d => m.now + d.nanos) })
      (streams : m'.session.clientStreams = m.session.clientStreams)
      (table : m'.session.pending = m.session.pending)
      (nextId : m'.session.nextId = m.session.nextId)
  /-- A call gets its response. Its entry stays, and takes no other. -/
  | answered (c : CallId) (r : Response) (cause : a = .receive (.response r))
      (found : m.session.pending.get? r.id = some (.call c true))
      (calls : m'.session.calls = m.session.calls.modify c fun x =>
        { x with response := some r.content })
      (streams : m'.session.clientStreams = m.session.clientStreams)
      (table : m'.session.pending = m.session.pending.modify r.id fun _ => .call c false)
      (nextId : m'.session.nextId = m.session.nextId)
  /-- A stream goes on. -/
  | passed (c : ClientStreamId) (f : ClientStream → ClientStream)
      (alike : ∀ x : ClientStream, x.Alike (f x))
      (calls : m'.session.calls = m.session.calls)
      (streams : m'.session.clientStreams = m.session.clientStreams.modify c f)
      (table : m'.session.pending = m.session.pending)
      (nextId : m'.session.nextId = m.session.nextId)
  /-- The responses of a stream are no longer sorted, and its entry goes. -/
  | streamOver (c : ClientStreamId) (x : ClientStream) (f : ClientStream → ClientStream)
      (found : m.session.clientStreams[c]? = some x) (unended : x.ended = false)
      (cause : a = .pollClient c) (alike : ∀ x : ClientStream, x.Alike (f x))
      (calls : m'.session.calls = m.session.calls)
      (streams : m'.session.clientStreams =
        m.session.clientStreams.modify c fun x => { f x with ended := true })
      (table : m'.session.pending = m.session.pending.erase x.id)
      (nextId : m'.session.nextId = m.session.nextId)
      (lifetimes : m'.lifetimes = m.lifetimes.cancel x.lifetime)

theorem endCall_calls (m : Machine M S) (c : CallId) (state : CallState) :
    (m.endCall c state).session.calls = m.session.calls.modify c fun x => { x with state } := by
  unfold endCall
  split
  · next hNone => rw [List.modify_eq_self (List.getElem?_eq_none_iff.mp hNone)]
  · rfl

theorem endCall_pending {m : Machine M S} {c : CallId} {call : Call}
    (h : m.session.calls[c]? = some call) (state : CallState) :
    (m.endCall c state).session.pending = m.session.pending.erase call.id := by
  unfold endCall
  rw [h]
  rfl

/-- Steps that end a call do it in the same way, whatever else they did to the sends before. -/
theorem OwnerStep.of_endCall {m m₁ : Machine M S} {a : Action} {c : CallId} {call : Call}
    {state : CallState} (found : m.session.calls[c]? = some call) (cause : m.Overs c call a state)
    (calls : m₁.session.calls = m.session.calls)
    (streams : m₁.session.clientStreams = m.session.clientStreams)
    (table : m₁.session.pending = m.session.pending)
    (nextId : m₁.session.nextId = m.session.nextId) :
    m.OwnerStep (m₁.endCall c state) a := by
  refine .callOver c call state found cause ?_ ?_ ?_ ?_
  · rw [endCall_calls, calls]
  · rw [endCall_session, streams]
  · rw [← calls] at found
    rw [endCall_pending found, table]
  · rw [endCall_session, nextId]

theorem dropCall_owners (m : Machine M S) (c : CallId) :
    m.OwnerStep (m.dropCall c) (.dropCall c) := by
  obtain ⟨call, t, hCall, hState, he⟩ | ⟨call, _, hCall, hState, he⟩ | he := dropCall_cases m c
  · rw [he]
    have hSame := giveUp_session m.session t
    refine .of_endCall hCall (.dropped (by rw [hState]; rfl)) ?_ ?_ ?_ ?_
    · rw [session_onSession, hSame]
    · rw [session_onSession, hSame]
    · rw [session_onSession, hSame]
    · rw [session_onSession, hSame]
  · rw [he]
    exact .of_endCall hCall (.dropped (by rw [hState]; rfl)) rfl rfl rfl rfl
  · rw [he]
    exact .kept rfl rfl rfl rfl

theorem advanceOutbound?_owners {m m' : Machine M S} {t : Ticket}
    (h : m.advanceOutbound? t = some m') : m.OwnerStep m' (.advance t) := by
  obtain ⟨outbound, ⟨_, rfl⟩ | ⟨result, hAdvance, rfl⟩⟩ := advanceOutbound?_cases h
  · exact .kept rfl rfl rfl rfl
  · obtain ⟨c, x, hx, hSender, rfl, he⟩ | ⟨c, x, hx, hSender, rfl, he⟩ | ⟨_, he⟩ :=
      finishSend_cases (m.onSession fun s => { s with outbound }) t result
    · rw [he]
      exact .waits c outbound t x rfl hAdvance hx hSender rfl rfl rfl rfl
    · rw [he]
      cases hCall : m.session.calls[c]? with
      | none =>
          refine .kept ?_ ?_ ?_ ?_
          · rw [endCall_calls]
            exact List.modify_eq_self (List.getElem?_eq_none_iff.mp hCall)
          · rw [endCall_session]
            rfl
          · simp [endCall, Session.setSendState, hCall]
          · rw [endCall_session]
            rfl
      | some call => exact .of_endCall hCall (.refused hAdvance hx hSender) rfl rfl rfl rfl
    · rw [he]
      exact .kept rfl rfl rfl rfl

theorem pollClient?_owners {m m' : Machine M S} {c : ClientStreamId}
    (h : m.pollClient? c = some m') : m.OwnerStep m' (.pollClient c) := by
  obtain ⟨stream, hStream, hEnded, ⟨_, rfl⟩ | ⟨content, rest, _, rfl⟩⟩ := pollClient?_cases h
  · exact .streamOver c stream (fun x => x) hStream hEnded rfl
      (fun x => ⟨rfl, rfl, rfl, rfl, fun h => h⟩) rfl rfl rfl rfl rfl
  · obtain ⟨messages, he | he⟩ := sortResponse_cases m c stream content rest
    · rw [he]
      exact .passed c (sorted rest messages) (fun x => ⟨rfl, rfl, rfl, rfl, fun h => h⟩)
        rfl rfl rfl rfl
    · rw [he]
      refine .streamOver c stream (sorted rest messages) hStream hEnded rfl
        (fun x => ⟨rfl, rfl, rfl, rfl, fun h => h⟩) rfl ?_ rfl rfl rfl
      simp only [endClient, session_cancel, session_onSession, Session.modifyClient,
        List.modify_modify_eq]
      rfl

theorem deliver_owners (m : Machine M S) (r : Response) :
    m.OwnerStep (m.deliver r) (.receive (.response r)) := by
  obtain ⟨c, hSlot, he⟩ | ⟨c, _, he⟩ | ⟨_, he⟩ := deliver_cases m r
  · rw [he]
    exact .answered c r rfl hSlot rfl rfl rfl rfl
  · rw [he]
    exact .passed c (fun x => { x with responses := x.responses ++ [r.content] })
      (fun x => ⟨rfl, rfl, rfl, rfl, fun h => h⟩) rfl rfl rfl rfl
  · rw [he]
    exact .kept rfl rfl rfl rfl

theorem step?_owners {m m' : Machine M S} {a : Action} (h : m.step? a = some m') :
    m.OwnerStep m' a := by
  cases a with
  | call method payload timeout lifetime =>
      obtain ⟨_, rfl⟩ := step?_call_eq_some h
      exact .started _ method payload timeout lifetime rfl rfl rfl rfl rfl rfl
  | dropCall c =>
      cases h
      exact dropCall_owners m c
  | openStream method =>
      cases h
      exact .opened _ method rfl rfl rfl rfl rfl rfl rfl
  | closeClient c =>
      obtain ⟨_, _, _, rfl⟩ := closeClient?_eq_some h
      exact .passed c (fun x => { x with closeSent := true })
        (fun x => ⟨rfl, rfl, rfl, rfl, fun _ => rfl⟩) rfl rfl rfl rfl
  | receiveClient c =>
      cases h
      obtain ⟨_, _, rest, _, _, he⟩ | ⟨_, he⟩ := receiveClient_cases m c
      · rw [he]
        exact .passed c (fun x => { x with messages := rest })
          (fun x => ⟨rfl, rfl, rfl, rfl, fun h => h⟩) rfl rfl rfl rfl
      · rw [he]
        exact .kept rfl rfl rfl rfl
  | pollCall c =>
      obtain ⟨call, deadline?, result, hCall, hState, rfl, hReason⟩ := pollCall?_cases h
      exact .of_endCall hCall (.returned hState hReason) rfl rfl rfl rfl
  | pollClient c => exact pollClient?_owners h
  | advance t => exact advanceOutbound?_owners h
  | receive e =>
      obtain ⟨_, _, rfl⟩ := receive?_eq_some h
      cases e with
      | response r => exact deliver_owners m r
      | _ =>
          have hSame := step?_frame h
          refine .kept ?_ ?_ ?_ ?_ <;> rw [hSame] <;> rfl
  | _ =>
      have hSame := step?_frame h
      refine .kept ?_ ?_ ?_ ?_ <;> rw [hSame] <;> rfl

/-! ### One call, one entry of the table -/

variable {m m' : Machine M S} {a : Action}

/-- What one action does to one call. -/
inductive CallTurn (m m' : Machine M S) (a : Action) (c : CallId) : Prop where
  | same (calls : m'.session.calls[c]? = m.session.calls[c]?)
  | made (new : m.session.calls[c]? = none) (x : Call) (now : m'.session.calls[c]? = some x)
      (silent : x.response = none) (t : Ticket) (state : x.state = .sending t)
  | ended (x : Call) (found : m.session.calls[c]? = some x) (state : CallState)
      (cause : m.Overs c x a state) (now : m'.session.calls[c]? = some { x with state })
  | queued (x : Call) (found : m.session.calls[c]? = some x)
      {outbound : Outbound} {t : Ticket} {z : Send} (cause : a = .advance t)
      (advance : m.session.outbound.advance? t = some (outbound, some .accepted))
      (send : m.session.sends[t]? = some z) (sender : z.sender = .call c) (deadline? : Option Nat)
      (now : m'.session.calls[c]? = some { x with state := .waiting deadline? })
  | answered (x : Call) (found : m.session.calls[c]? = some x) (r : Response)
      (cause : a = .receive (.response r)) (slot : m.session.pending.get? r.id = some (.call c true))
      (now : m'.session.calls[c]? = some { x with response := some r.content })

theorem step?_callTurn (h : m.step? a = some m') (c : CallId) : m.CallTurn m' a c := by
  have hModify : ∀ {d : CallId} {f : Call → Call}, m'.session.calls = m.session.calls.modify d f →
      (∀ x, d = c → m.session.calls[c]? = some x → m'.session.calls[c]? = some (f x) →
        m.CallTurn m' a c) → m.CallTurn m' a c := fun {d f} calls hChange => by
    by_cases hd : d = c
    · cases found : m.session.calls[c]? with
      | none => exact .same (by rw [calls, hd, List.getElem?_modify_eq, found]; rfl)
      | some x => exact hChange x hd found (by rw [calls, hd, List.getElem?_modify_eq, found]; rfl)
    · exact .same (by rw [calls, List.getElem?_modify_ne _ _ hd])
  cases step?_owners h with
  | kept calls => exact .same (by rw [calls])
  | opened _ _ _ _ calls => exact .same (by rw [calls])
  | passed _ _ _ calls => exact .same (by rw [calls])
  | streamOver _ _ _ _ _ _ _ calls => exact .same (by rw [calls])
  | started _ _ _ _ _ _ _ calls =>
      obtain hLess | rfl | hMore := Nat.lt_trichotomy c m.session.calls.length
      · exact .same (by rw [calls, List.getElem?_append_left hLess])
      · exact .made (List.getElem?_eq_none (Nat.le_refl _)) _ (by rw [calls, List.getElem?_concat_length])
          rfl _ rfl
      · refine .same ?_
        rw [calls, List.getElem?_eq_none (Nat.le_of_lt hMore), List.getElem?_eq_none]
        rw [List.length_append]
        exact hMore
  | callOver d call state hCall cause calls =>
      refine hModify calls fun x hd found now => ?_
      subst hd
      cases hCall.symm.trans found
      exact .ended call hCall state cause now
  | waits d outbound t z cause advance send sender calls =>
      refine hModify calls fun x hd found now => ?_
      subst hd
      exact .queued x found cause advance send sender _ now
  | answered d r cause slot calls =>
      refine hModify calls fun x hd found now => ?_
      subst hd
      exact .answered x found r cause slot now

/-- Where an entry of the table comes from: it was there, it leads to a call or stream that is new, or the
slot of a call has just been used. -/
inductive SlotTurn (m m' : Machine M S) (id : Int32) : Slot → Prop where
  | kept {slot : Slot} (before : m.session.pending.get? id = some slot) : SlotTurn m m' id slot
  | call (x : Call) (given : x.id = id) (silent : x.response = none)
      (calls : m'.session.calls = m.session.calls ++ [x]) :
      SlotTurn m m' id (.call m.session.calls.length true)
  | stream (x : ClientStream) (given : x.id = id)
      (streams : m'.session.clientStreams = m.session.clientStreams ++ [x]) :
      SlotTurn m m' id (.stream m.session.clientStreams.length)
  | used (c : CallId) (content : Content) (before : m.session.pending.get? id = some (.call c true))
      (calls : m'.session.calls = m.session.calls.modify c fun x =>
        { x with response := some content }) :
      SlotTurn m m' id (.call c false)

theorem step?_slotTurn (h : m.step? a = some m') {id : Int32} {slot : Slot}
    (entry : m'.session.pending.get? id = some slot) : m.SlotTurn m' id slot := by
  cases step?_owners h with
  | kept _ _ table => exact .kept (table ▸ entry)
  | waits _ _ _ _ _ _ _ _ _ _ table => exact .kept (table ▸ entry)
  | passed _ _ _ _ _ table => exact .kept (table ▸ entry)
  | started newId _ _ _ _ _ _ calls _ table =>
      rw [table, IdTable.get?_insert] at entry
      split at entry
      · next hSame =>
          cases entry
          exact .call _ hSame.symm rfl calls
      · exact .kept entry
  | opened newId _ _ _ _ streams table =>
      rw [table, IdTable.get?_insert] at entry
      split at entry
      · next hSame =>
          cases entry
          exact .stream _ hSame.symm streams
      · exact .kept entry
  | callOver _ _ _ _ _ _ _ table =>
      rw [table, IdTable.get?_erase] at entry
      split at entry
      · cases entry
      · exact .kept entry
  | streamOver _ _ _ _ _ _ _ _ _ table =>
      rw [table, IdTable.get?_erase] at entry
      split at entry
      · cases entry
      · exact .kept entry
  | answered c r _ found calls _ table =>
      rw [table, IdTable.get?_modify] at entry
      split at entry
      · next hSame =>
          rw [hSame, found] at entry
          cases entry
          exact .used c r.content (hSame ▸ found) calls
      · exact .kept entry

end Machine

end PeerLink
