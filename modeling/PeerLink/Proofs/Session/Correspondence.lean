import PeerLink.Proofs.Session.Flow
import PeerLink.Proofs.Session.Handles
import PeerLink.Proofs.Session.PendingTable

/-! What a session sends, against what it has heard. Every envelope that a session sends has a reason in
its own records, and every record that the remote peer is responsible for has a reason in an envelope
that was handled. Both sides of a connection keep to this, so a chain of reasons leads from the result of
a call to the handler that produced it. -/
namespace PeerLink

variable {M S : Type}

/-- The request that asks for a call, if the envelope is one. -/
def Envelope.unary? : Envelope → Option Request
  | .request r => if r.isStream then none else some r
  | _ => none

/-- The requests of all calls that the session has sent. -/
def Session.asked (s : Session M S) : List Request :=
  s.sent.filterMap Envelope.unary?

/-- The request that a run answers. -/
def Run.request (x : Run M) : Request :=
  { id := x.id, method := x.method, payload := x.payload, isStream := false }

/-- The run that an envelope starts: the request, and the handler that has its name. -/
def Registry.started? (registry : Registry M S) (e : Envelope) : Option (Request × M) :=
  e.unary?.bind fun r => (registry.method? r.method).map fun x => (r, x.handler)

/-- A failure that a call finds out by itself, without a response. -/
def IsLocal (result : Except CallError Payload) : Prop :=
  result = .error .sessionClosed ∨ result = .error .cancelled ∨
    ∃ d, result = .error (.timeout d)

/-- The stream that is served on whose behalf something is sent. -/
def Sender.stream? : Sender → Option ServedStreamId
  | .served i => some i
  | .completion i => some i
  | _ => none

/-- The records of the session that stand behind an envelope. -/
inductive Explained (s : Session M S) : Sender → Envelope → Prop where
  | call {c : CallId} {x : Call} (payload : Payload) (found : s.calls[c]? = some x) :
      Explained s (.call c)
        (.request { id := x.id, method := x.method, payload, isStream := false })
  | message {c : ClientStreamId} {x : ClientStream} (payload : Payload)
      (found : s.clientStreams[c]? = some x) :
      Explained s (.client c) (.request { id := x.id, method := x.method, payload, isStream := true })
  | close {c : ClientStreamId} {x : ClientStream} (found : s.clientStreams[c]? = some x)
      (closed : x.closeSent = true) : Explained s (.client c) (.streamClose x.id)
  | bye : Explained s .bye .bye
  | refusal {k : RefusalId} {x : Refusal} (found : s.refusals[k]? = some x) :
      Explained s (.refusal k) (.response x.response)
  | run {r : RunId} {x : Run M} {result : Except HandlerError Payload}
      (found : s.runs[r]? = some x) (returned : x.result = some result) :
      Explained s (.run r) (.response ⟨x.id, Machine.answer result⟩)
  | served {i : ServedStreamId} {x : ServedStream S} {sender : Sender} (content : Content)
      (found : s.servedStreams[i]? = some x) (speaker : sender.stream? = some i) :
      Explained s sender (.response ⟨x.id, content⟩)

theorem Explained.mono {s s' : Session M S} {x : Sender} {e : Envelope} (h : Explained s x e)
    (hGrows : s.Grows s') : Explained s' x e := by
  cases h with
  | call payload found =>
      obtain ⟨y, hy, hKeeps⟩ := hGrows.calls _ _ found
      rw [← hKeeps.id, ← hKeeps.method]
      exact .call payload hy
  | message payload found =>
      obtain ⟨y, hy, hKeeps⟩ := hGrows.clientStreams _ _ found
      rw [← hKeeps.id, ← hKeeps.method]
      exact .message payload hy
  | close found closed =>
      obtain ⟨y, hy, hKeeps⟩ := hGrows.clientStreams _ _ found
      rw [← hKeeps.id]
      exact .close hy (hKeeps.closeSent closed)
  | bye => exact .bye
  | refusal found =>
      obtain ⟨y, hy, hKeeps⟩ := hGrows.refusals _ _ found
      rw [← hKeeps.response]
      exact .refusal hy
  | run found returned =>
      obtain ⟨y, hy, hKeeps⟩ := hGrows.runs _ _ found
      rw [← hKeeps.id]
      exact .run hy (hKeeps.result _ returned)
  | served content found speaker =>
      obtain ⟨y, hy, hKeeps⟩ := hGrows.servedStreams _ _ found
      rw [← hKeeps.id]
      exact .served content hy speaker

namespace Machine

variable {m m' : Machine M S} {a : Action} {past : History M S}

/-! ### What was heard -/

theorem History.heard_append : History.heard (past ++ [(m, a)]) =
    History.heard past ++ History.heard [(m, a)] :=
  List.filterMap_append

theorem History.mem_heard_of_mem {e : Envelope} (h : e ∈ History.heard past) (x : Machine M S × Action) :
    e ∈ History.heard (past ++ [x]) := by
  rw [History.heard, List.filterMap_append]
  exact List.mem_append_left _ h

theorem History.mem_heard_receive (e : Envelope) :
    e ∈ History.heard (past ++ [(m, .receive e)]) := by
  rw [History.heard_append]
  exact List.mem_append_right _ (List.mem_singleton.mpr rfl)

/-! ### Why something is sent -/

theorem step?_call {method : String} {payload : Payload} {timeout : Option Duration}
    {lifetime : Option LifetimeId} (h : m.step? (.call method payload timeout lifetime) = some m') :
    ∃ call, m'.session.calls = m.session.calls ++ [call] ∧
      call.id = m.session.pending.free m.session.nextId ∧ call.method = method ∧
      m'.session.said = m.session.said ++ [(.call m.session.calls.length,
        .request { id := call.id, method, payload, isStream := false })] := by
  obtain ⟨_, rfl⟩ := step?_call_eq_some h
  exact ⟨_, rfl, rfl, rfl, said_beginSend _ _ _⟩

theorem Says.explained {x : Sender} {e : Envelope} (cause : m.Says a x e)
    (h : m.step? a = some m') : Explained m'.session x e := by
  have hGrows := step?_grows h
  cases cause with
  | call method payload timeout lifetime =>
      obtain ⟨call, hCalls, hId, hMethod, _⟩ := step?_call h
      have hFound : m'.session.calls[m.session.calls.length]? = some call := by
        rw [hCalls]
        exact List.getElem?_concat_length
      rw [← hId, ← hMethod]
      exact .call payload hFound
  | sendClient payload found _ _ => exact (Explained.message payload found).mono hGrows
  | @closeClient c x found unclosed =>
      obtain ⟨_, _, _, rfl⟩ := closeClient?_eq_some h
      have hFound : (m.session.modifyClient c fun x => { x with closeSent := true }).clientStreams[c]? =
          some { x with closeSent := true } := by
        simp [Session.modifyClient, found]
      exact Explained.close (x := { x with closeSent := true }) hFound rfl
  | bye => exact .bye
  | refusal found _ => exact (Explained.refusal found).mono hGrows
  | @run r x result found running =>
      obtain ⟨_, _, _, rfl⟩ := step?_finishRun_eq_some h
      have hFound : (m.finishRun r result).session.runs[r]? =
          some { x with result := some result } := by
        rw [finishRun_runs, List.getElem?_modify, found]
        simp
      exact Explained.run (x := { x with result := some result }) hFound rfl
  | sendServed payload found => exact (Explained.served _ found rfl).mono hGrows
  | readyServed found => exact (Explained.served _ found rfl).mono hGrows
  | closeServed found => exact (Explained.served _ found rfl).mono hGrows
  | finishServed result found => exact (Explained.served _ found rfl).mono hGrows

/-- Everything that is ever sent is explained by what the session has on record. -/
theorem Life.explained {start s : Session M S} (hStart : start.said = [])
    (life : Life start past s) : ∀ x e, (x, e) ∈ s.said → Explained s x e := by
  induction life with
  | refl =>
      intro x e hMem
      rw [hStart] at hMem
      cases hMem
  | step _ last ih =>
      intro x e hMem
      obtain ⟨begun, hSaid, hBegun, _⟩ := step?_flow last
      rw [hSaid] at hMem
      rcases List.mem_append.mp hMem with hMem | hMem
      · exact (ih x e hMem).mono (step?_grows last)
      · rcases hBegun with rfl | ⟨y, f, cause, rfl⟩
        · cases hMem
        · obtain ⟨rfl, rfl⟩ := Prod.mk.inj (List.mem_singleton.mp hMem)
          exact cause.explained last

/-! ### Calls and their requests -/

theorem Says.unary? {x : Sender} {e : Envelope} (cause : m.Says a x e)
    (hCall : ∀ method payload timeout lifetime, a ≠ .call method payload timeout lifetime) :
    e.unary? = none := by
  cases cause with
  | call method payload timeout lifetime => exact absurd rfl (hCall method payload timeout lifetime)
  | _ => rfl

theorem step?_calls_length (h : m.step? a = some m')
    (hCall : ∀ method payload timeout lifetime, a ≠ .call method payload timeout lifetime) :
    m'.session.calls.length = m.session.calls.length := by
  cases step?_owners h with
  | started _ method payload timeout lifetime cause => exact absurd cause (hCall _ _ _ _)
  | kept calls => rw [calls]
  | opened _ _ _ _ calls => rw [calls]
  | callOver _ _ _ _ _ calls => rw [calls, List.length_modify]
  | waits _ _ _ _ _ _ _ _ calls => rw [calls, List.length_modify]
  | answered _ _ _ _ calls => rw [calls, List.length_modify]
  | passed _ _ _ calls => rw [calls]
  | streamOver _ _ _ _ _ _ _ calls => rw [calls]

/-- Each call sends one request, and its id and method are those of the call. -/
theorem Life.asked {start s : Session M S} (hStart : start.asked = [] ∧ start.calls = [])
    (life : Life start past s) :
    s.asked.map (fun r => (r.id, r.method)) = s.calls.map fun c => (c.id, c.method) := by
  induction life with
  | refl => rw [hStart.1, hStart.2]; rfl
  | @step past s host a m' prior last ih =>
      by_cases hCall : ∃ method payload timeout lifetime, a = .call method payload timeout lifetime
      · obtain ⟨method, payload, timeout, lifetime, rfl⟩ := hCall
        obtain ⟨call, hCalls, _, hMethod, hSaid⟩ := step?_call last
        have hAsked : m'.session.asked =
            s.asked ++ [{ id := call.id, method, payload, isStream := false }] := by
          simp [Session.asked, Session.sent, hSaid, Envelope.unary?]
        rw [hAsked, hCalls, List.map_append, List.map_append, ih, List.map_singleton,
          List.map_singleton, hMethod]
      · have hNot : ∀ method payload timeout lifetime, a ≠ .call method payload timeout lifetime :=
          fun method payload timeout lifetime he => hCall ⟨method, payload, timeout, lifetime, he⟩
        have hAsked : m'.session.asked = s.asked := by
          obtain ⟨begun, hSaid, hBegun, _⟩ := step?_flow last
          rcases hBegun with rfl | ⟨x, e, cause, rfl⟩
          · simp [Session.asked, Session.sent, hSaid]
          · simp [Session.asked, Session.sent, hSaid, cause.unary? hNot]
        rw [hAsked, ih]
        exact ((step?_grows last).calls.map_eq (step?_calls_length last hNot) fun _ _ h => by
          rw [h.id, h.method]).symm

theorem Life.asked_ids {start s : Session M S} (hStart : start.asked = [] ∧ start.calls = [])
    (life : Life start past s) : s.asked.map Request.id = s.calls.map Call.id := by
  have hAsked := congrArg (List.map Prod.fst) (life.asked hStart)
  rw [List.map_map, List.map_map] at hAsked
  exact hAsked

/-! ### Runs and the requests that started them -/

theorem heard_not_request (hRequest : ∀ r, a ≠ .receive (.request r)) (registry : Registry M S) :
    (History.heard [(m, a)]).filterMap registry.started? = [] := by
  cases a with
  | receive e =>
      cases e with
      | request r => exact absurd rfl (hRequest r)
      | _ => rfl
  | _ => rfl

theorem handleStream_runs (m : Machine M S) (r : Request) :
    (m.handleStream r).session.runs = m.session.runs := by
  obtain ⟨_, _, he⟩ | ⟨_, _, he⟩ | ⟨_, _, _, he⟩ := handleStream_cases m r
  · rw [he]
    rfl
  · rw [he]
    rfl
  · rw [he]
    rfl

/-- The runs of a session are the runs that the requests it heard call for, in their order. -/
theorem Life.runs {start s : Session M S} (hStart : start.runs = []) (life : Life start past s) :
    s.runs.map (fun x => (x.request, x.handler)) =
      (History.heard past).filterMap s.registry.started? := by
  induction life with
  | refl => rw [hStart]; rfl
  | @step past s host a m' prior last ih =>
      have hGrows := step?_grows last
      rw [History.heard_append, List.filterMap_append, hGrows.registry, ← ih]
      by_cases hRequest : ∃ r, a = .receive (.request r)
      · obtain ⟨r, rfl⟩ := hRequest
        obtain ⟨_, _, rfl⟩ := receive?_eq_some last
        cases hStream : r.isStream with
        | true =>
            have hNone : s.registry.started? (.request r) = none := by
              simp [Registry.started?, Envelope.unary?, hStream]
            simp only [handle, hStream, if_true, handleStream_runs, History.heard,
              List.filterMap_cons, List.filterMap_nil, hNone, List.append_nil]
        | false =>
            have hStarted : Registry.started? s.registry (.request r) =
                (s.registry.method? r.method).map fun x => (r, x.handler) := by
              simp [Registry.started?, Envelope.unary?, hStream]
            have hHeard : (History.heard [((⟨host, s⟩ : Machine M S), Action.receive (.request r))]) =
                [.request r] := rfl
            simp only [handle, hStream, Bool.false_eq_true, if_false]
            rw [hHeard]
            obtain ⟨hMethod, he⟩ | ⟨method, hMethod, he⟩ := handleCall_cases ⟨host, s⟩ r
            · rw [he, List.filterMap_cons_none (by rw [hStarted, hMethod]; rfl), List.filterMap_nil,
                List.append_nil]
              rfl
            · have hSame : { id := r.id, method := r.method, payload := r.payload, isStream := false } =
                  r := by
                rw [← hStream]
              rw [he, List.filterMap_cons_some (by rw [hStarted, hMethod]; rfl), List.filterMap_nil]
              simp only [session_onSession, List.map_append, List.map_singleton, Run.request]
              rw [hSame]
              rfl
      · have hNot : ∀ r, a ≠ .receive (.request r) := fun r hr => hRequest ⟨r, hr⟩
        rw [heard_not_request hNot, List.append_nil]
        exact hGrows.runs.map_eq (step?_runs_length last hNot) fun x y h => by
          unfold Run.request
          rw [h.id, h.method, h.payload, h.handler]

/-- A stream that is served was opened by a message with its id, and its method is registered. -/
theorem Life.served {start s : Session M S} (hStart : start.servedStreams = [])
    (life : Life start past s) :
    ∀ (i : ServedStreamId) (x : ServedStream S), s.servedStreams[i]? = some x →
      ∃ r, .request r ∈ History.heard past ∧ r.isStream = true ∧ r.id = x.id ∧
        (s.registry.stream? r.method).isSome := by
  induction life with
  | refl =>
      intro i x hx
      rw [hStart] at hx
      cases hx
  | @step past s host a m' prior last ih =>
      intro i y hy
      have hRegistry := (step?_grows last).registry
      cases hOld : s.servedStreams[i]? with
      | none =>
          obtain ⟨r, rfl, hStream, _, hMethod, _, hId, _⟩ := step?_new_served last hOld hy
          rw [hRegistry]
          exact ⟨r, History.mem_heard_receive _, hStream, hId.symm, hMethod⟩
      | some x =>
          have hKeeps := (step?_servedStreams last).rel hOld hy
          obtain ⟨r, hMem, hStream, hId, hMethod⟩ := ih i x hOld
          rw [hRegistry]
          exact ⟨r, History.mem_heard_of_mem hMem _, hStream, hId.trans hKeeps.id.symm, hMethod⟩

/-- Why a request is refused. -/
def Refuses (registry : Registry M S) (r : Request) (response : Response) : Prop :=
  response.id = r.id ∧
    (r.isStream = true ∧ registry.stream? r.method = none ∧
        response.content = .error (.streamNotFound r.method) ∨
      r.isStream = false ∧ registry.method? r.method = none ∧
        response.content = .error (.methodNotFound r.method))

theorem step?_refusals_mem (h : m.step? a = some m') {x : Refusal} (hx : x ∈ m'.session.refusals) :
    (∃ y ∈ m.session.refusals, y.response = x.response) ∨
      ∃ r, a = .receive (.request r) ∧ Refuses m.session.registry r x.response := by
  cases a with
  | startRefusal k =>
      obtain ⟨_, _, rfl⟩ := startRefusal?_eq_some h
      obtain hx | ⟨y, hy, rfl⟩ := mem_modify hx
      · exact .inl ⟨x, hx, rfl⟩
      · exact .inl ⟨y, List.mem_of_getElem? hy, rfl⟩
  | receive e =>
      obtain ⟨_, _, rfl⟩ := receive?_eq_some h
      cases e with
      | request r =>
          cases hStream : r.isStream with
          | true =>
              simp only [handle, hStream, if_true] at hx
              obtain ⟨_, _, he⟩ | ⟨_, hMethod, he⟩ | ⟨_, _, _, he⟩ := handleStream_cases m r
              · rw [he] at hx
                exact .inl ⟨x, hx, rfl⟩
              · rw [he] at hx
                rcases List.mem_append.mp hx with hx | hx
                · exact .inl ⟨x, hx, rfl⟩
                · rw [List.mem_singleton.mp hx]
                  exact .inr ⟨r, rfl, rfl, .inl ⟨hStream, hMethod, rfl⟩⟩
              · rw [he] at hx
                exact .inl ⟨x, hx, rfl⟩
          | false =>
              simp only [handle, hStream, Bool.false_eq_true, if_false] at hx
              obtain ⟨hMethod, he⟩ | ⟨_, _, he⟩ := handleCall_cases m r
              · rw [he] at hx
                rcases List.mem_append.mp hx with hx | hx
                · exact .inl ⟨x, hx, rfl⟩
                · rw [List.mem_singleton.mp hx]
                  exact .inr ⟨r, rfl, rfl, .inr ⟨hStream, hMethod, rfl⟩⟩
              · rw [he] at hx
                exact .inl ⟨x, hx, rfl⟩
      | _ =>
          rw [handle_session] at hx
          exact .inl ⟨x, hx, rfl⟩
  | _ =>
      rw [step?_frame h] at hx
      exact .inl ⟨x, hx, rfl⟩

theorem Life.refusals {start s : Session M S} (hStart : start.refusals = [])
    (life : Life start past s) : ∀ x ∈ s.refusals,
      ∃ r, .request r ∈ History.heard past ∧ Refuses s.registry r x.response := by
  induction life with
  | refl =>
      intro x hx
      rw [hStart] at hx
      cases hx
  | @step past s host a m' prior last ih =>
      intro x hx
      have hRegistry := (step?_grows last).registry
      obtain ⟨y, hy, hSame⟩ | ⟨r, rfl, hRefuses⟩ := step?_refusals_mem last hx
      · obtain ⟨r, hMem, hRefuses⟩ := ih y hy
        rw [hRegistry, ← hSame]
        exact ⟨r, History.mem_heard_of_mem hMem _, hRefuses⟩
      · rw [hRegistry]
        exact ⟨r, History.mem_heard_receive _, hRefuses⟩

/-! ### Results and the responses behind them -/

/-- A call has its response, and its result, from the remote peer, unless it failed by itself. -/
structure Answered (heard : List Envelope) (call : Call) : Prop where
  response : ∀ content, call.response = some content → .response ⟨call.id, content⟩ ∈ heard
  result : ∀ result, call.state = .returned result →
    (∃ content, .response ⟨call.id, content⟩ ∈ heard ∧ result = content.callResult) ∨ IsLocal result

theorem Answered.later {call : Call} (h : Answered (History.heard past) call)
    (x : Machine M S × Action) : Answered (History.heard (past ++ [x])) call :=
  ⟨fun content hContent => History.mem_heard_of_mem (h.response content hContent) x,
    fun result hState => (h.result result hState).imp
      (fun ⟨content, hMem, he⟩ => ⟨content, History.mem_heard_of_mem hMem x, he⟩) fun hLocal => hLocal⟩

theorem Life.answered {registry : Registry M S} {callTimeout : Option Duration} {capacity : Nat}
    {lifetime : LifetimeId} {s : Session M S}
    (life : Life (Session.new registry callTimeout capacity lifetime) past s)
    (hSmall : s.allocated ≤ 2 ^ 32) :
    ∀ (c : CallId) (call : Call), s.calls[c]? = some call → Answered (History.heard past) call := by
  induction life with
  | refl =>
      intro c call hCall
      simp [Session.new] at hCall
  | @step past s host a m' prior last ih =>
      have hBefore := (step?_grows last).allocated_le
      have hExact := prior.pendingExact (Nat.le_trans hBefore hSmall)
      have hOld : ∀ (c : CallId) (call : Call), s.calls[c]? = some call →
          Answered (History.heard (past ++ [(⟨host, s⟩, a)])) call := fun c call hCall =>
        (ih (Nat.le_trans hBefore hSmall) c call hCall).later _
      intro c call hCall
      cases step?_callTurn last c with
      | same calls => exact hOld c call (calls.symm.trans hCall)
      | made _ x now silent _ state =>
          cases now.symm.trans hCall
          refine ⟨fun content hContent => ?_, fun result hState => ?_⟩
          · cases silent.symm.trans hContent
          · cases state.symm.trans hState
      | ended x found _ cause now =>
          cases now.symm.trans hCall
          obtain ⟨hResponse, _⟩ := hOld c x found
          refine ⟨hResponse, fun result hState => ?_⟩
          cases cause with
          | dropped _ => cases hState
          | returned _ reason =>
              cases hState
              obtain ⟨content, hContent, he⟩ | hLocal := reason
              · exact .inl ⟨content, hResponse content hContent, he⟩
              · exact .inr hLocal
          | refused _ _ _ =>
              cases hState
              exact .inr (.inl rfl)
      | queued x found _ _ _ _ _ now =>
          cases now.symm.trans hCall
          exact ⟨(hOld c x found).response, fun _ h => by cases h⟩
      | answered x found r cause slot now =>
          cases now.symm.trans hCall
          refine ⟨fun content hContent => ?_, (hOld c x found).result⟩
          cases hContent
          have hOwner := (hExact.entry r.id (.call c)).mp (by rw [slot]; rfl)
          have hId := Session.idOf?_of_awaited? hOwner
          rw [Session.idOf?, found, Option.map_some, Option.some.injEq] at hId
          subst cause
          rw [hId]
          exact History.mem_heard_receive _

end Machine

end PeerLink
