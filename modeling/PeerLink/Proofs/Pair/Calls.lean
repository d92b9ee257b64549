import PeerLink.Proofs.Pair.Execution
import PeerLink.Proofs.Session.Correspondence

/-! Calls between two connected sessions. The result of a call leads back over the response and the
request to one run of one handler. Ids are what holds this together: on each side calls and streams never
share one, so a response cannot be taken for the answer to something else, however late it comes. -/
namespace PeerLink

deriving instance DecidableEq for CallState

variable {M S : Type}

/-- Exactly one run has the id of the request. It was for this request, by the handler that is registered
for its method, and it returned the result. -/
def RanOnce (registry : Registry M S) (s : Session M S) (request : Request)
    (result : Except HandlerError Payload) : Prop :=
  ∃ (r : RunId) (run : Run M), s.runs[r]? = some run ∧ run.request = request ∧
    run.result = some result ∧
    (registry.method? request.method).map Method.handler = some run.handler ∧
    ∀ (r' : RunId) (run' : Run M), s.runs[r']? = some run' → run'.id = request.id → r' = r

/-- No handler is registered for the method, and none has run for this request. -/
def RanNever (registry : Registry M S) (s : Session M S) (request : Request) : Prop :=
  registry.method? request.method = none ∧ ∀ run ∈ s.runs, run.id ≠ request.id

theorem Session.Grows.mem_asked {s s' : Session M S} (h : s.Grows s') {r : Request}
    (hr : r ∈ s.asked) : r ∈ s'.asked := by
  obtain ⟨e, he, hUnary⟩ := List.mem_filterMap.mp hr
  obtain ⟨x, hx, rfl⟩ := List.mem_map.mp he
  obtain ⟨send, hSend, rfl⟩ := List.mem_map.mp hx
  obtain ⟨i, hi⟩ := List.mem_iff_getElem?.mp hSend
  obtain ⟨later, hLater, hKeeps⟩ := h.sends i send hi
  refine List.mem_filterMap.mpr ⟨later.envelope, ?_, by rw [hKeeps.envelope]; exact hUnary⟩
  exact List.mem_map.mpr ⟨_, List.mem_map.mpr ⟨later, List.mem_of_getElem? hLater, rfl⟩, rfl⟩

/-- Requests start at most one run each, in the order in which they are handled. -/
theorem Registry.started?_sublist (registry : Registry M S) (heard : List Envelope) :
    ((heard.filterMap registry.started?).map Prod.fst).Sublist (heard.filterMap Envelope.unary?) := by
  induction heard with
  | nil => exact List.Sublist.refl _
  | cons e rest ih =>
      cases hUnary : e.unary? with
      | none =>
          rw [List.filterMap_cons_none (by simp [started?, hUnary]), List.filterMap_cons_none hUnary]
          exact ih
      | some r =>
          rw [List.filterMap_cons_some hUnary]
          cases hMethod : registry.method? r.method with
          | none =>
              rw [List.filterMap_cons_none (by simp [started?, hUnary, hMethod])]
              exact ih.cons r
          | some method =>
              rw [List.filterMap_cons_some
                (show registry.started? e = some (r, method.handler) by
                  simp [started?, hUnary, hMethod])]
              exact ih.cons_cons r

namespace Pair

open Machine (History.heard)

variable {host : Host} {registry : Side → Registry M S} {callTimeout : Side → Option Duration}
  {capacity : Nat} {past : History M S} {p : Pair M S} {side : Side}

/-! ### Requests -/

theorem Execution.registry_eq (exec : Execution (new host registry callTimeout capacity) past p)
    (side : Side) : (p.session side).registry = registry side := by
  induction exec with
  | refl =>
      obtain ⟨_, hNew⟩ := new_session host registry callTimeout capacity side
      rw [hNew]
      rfl
  | step _ last ih => rw [(step?_grows last side).registry, ih]

/-- Every request that a run was started for was sent by the other side, and no two runs share one. -/
theorem Execution.requests_subperm
    (exec : Execution (new host registry callTimeout capacity) past p) (side : Side) :
    ((p.session side.other).runs.map Run.request).Subperm (p.session side).asked := by
  obtain ⟨_, life⟩ := exec.life_new side.other
  have hRuns := congrArg (List.map Prod.fst) (life.runs rfl)
  rw [List.map_map] at hRuns
  have hHeard := subperm_filterMap (exec.heard_subperm side) Envelope.unary?
  exact hRuns ▸ (Registry.started?_sublist _ _).subperm.trans hHeard

theorem Execution.asked_nodup (exec : Execution (new host registry callTimeout capacity) past p)
    (hSmall : (p.session side).allocated < 2 ^ 31) :
    ((p.session side).asked.map Request.id).Nodup := by
  obtain ⟨_, life⟩ := exec.life_new side
  rw [life.asked_ids ⟨rfl, rfl⟩]
  exact (List.nodup_append.mp (life.ids_nodup (by omega))).1

/-- A call and a message of a stream never have the same id. -/
theorem Execution.message_ne (exec : Execution (new host registry callTimeout capacity) past p)
    (hSmall : (p.session side).allocated < 2 ^ 31) {request : Request}
    (hRequest : request ∈ (p.session side).asked) {r : Request}
    (hHeard : .request r ∈ History.heard (History.of past side.other)) (hStream : r.isStream = true) :
    r.id ≠ request.id := by
  intro he
  obtain ⟨_, life⟩ := exec.life_new side
  have hIds := life.ids_nodup (by omega)
  have hCall : request.id ∈ (p.session side).calls.map Call.id := by
    rw [← life.asked_ids ⟨rfl, rfl⟩]
    exact List.mem_map_of_mem hRequest
  obtain ⟨x, hExplained⟩ := exec.explained hHeard
  cases hExplained with
  | call => cases hStream
  | message _ found =>
      exact (List.nodup_append.mp hIds).2.2 _ hCall _
        (List.mem_map_of_mem (List.mem_of_getElem? found)) he.symm

theorem Execution.heard_asked (exec : Execution (new host registry callTimeout capacity) past p)
    {r : Request} (hHeard : .request r ∈ History.heard (History.of past side.other))
    (hUnary : r.isStream = false) : r ∈ (p.session side).asked :=
  List.mem_filterMap.mpr ⟨_, (exec.heard_subperm side).subset hHeard, by simp [Envelope.unary?, hUnary]⟩

/-! ### Runs -/

/-- A run is by the handler that is registered for its method. -/
theorem Execution.handler_eq (exec : Execution (new host registry callTimeout capacity) past p)
    {run : Run M} (hRun : run ∈ (p.session side).runs) :
    ((registry side).method? run.method).map Method.handler = some run.handler := by
  obtain ⟨_, life⟩ := exec.life_new side
  have hStarted : (run.request, run.handler) ∈
      (p.session side).runs.map fun x => (x.request, x.handler) := List.mem_map_of_mem hRun
  rw [life.runs rfl, exec.registry_eq side] at hStarted
  obtain ⟨e, _, he⟩ := List.mem_filterMap.mp hStarted
  obtain ⟨asked, _, hMethod⟩ := Option.bind_eq_some_iff.mp he
  obtain ⟨method, hFound, hPair⟩ := Option.map_eq_some_iff.mp hMethod
  obtain ⟨rfl, hHandler⟩ := Prod.mk.inj hPair
  have hName : run.request.method = run.method := rfl
  rw [← hName, hFound, Option.map_some, hHandler]

/-- A run with the id of a call is for the request of this call. -/
theorem Execution.request_eq (exec : Execution (new host registry callTimeout capacity) past p)
    (hSmall : (p.session side).allocated < 2 ^ 31) {request : Request}
    (hRequest : request ∈ (p.session side).asked) {run : Run M}
    (hRun : run ∈ (p.session side.other).runs) (hId : run.id = request.id) :
    run.request = request :=
  List.inj_on_of_nodup_map (exec.asked_nodup hSmall)
    ((exec.requests_subperm side).subset (List.mem_map_of_mem hRun)) hRequest hId

/-- A run for the request of a call is the only one with its id, and it is by the right handler. -/
theorem Execution.ranOnce (exec : Execution (new host registry callTimeout capacity) past p)
    (hSmall : (p.session side).allocated < 2 ^ 31) {request : Request}
    (hRequest : request ∈ (p.session side).asked) {r : RunId} {run : Run M}
    {result : Except HandlerError Payload} (found : (p.session side.other).runs[r]? = some run)
    (hId : run.id = request.id) (returned : run.result = some result) :
    RanOnce (registry side.other) (p.session side.other) request result := by
  have hSame := exec.request_eq hSmall hRequest (List.mem_of_getElem? found) hId
  refine ⟨r, run, found, hSame, returned, ?_, fun r' run' found' hId' => ?_⟩
  · rw [← hSame]
    exact exec.handler_eq (List.mem_of_getElem? found)
  · have hIds : ((p.session side.other).runs.map Run.id).Nodup := by
      obtain ⟨requests, hPerm, hSub⟩ := exec.requests_subperm side
      have hRequests := (hPerm.map Request.id).nodup_iff.mp
        ((hSub.map Request.id).nodup (exec.asked_nodup hSmall))
      rwa [List.map_map] at hRequests
    have hAt : ((p.session side.other).runs.map Run.id)[r']? =
        ((p.session side.other).runs.map Run.id)[r]? := by
      rw [List.getElem?_map, List.getElem?_map, found, found', Option.map_some, Option.map_some,
        hId, hId']
    have hLt : r' < ((p.session side.other).runs.map Run.id).length := by
      rw [List.length_map]
      exact (List.getElem?_eq_some_iff.mp found').1
    exact (List.getElem?_inj hLt hIds).mp hAt

/-- No run has the id of a request whose method is not registered. -/
theorem Execution.ranNever (exec : Execution (new host registry callTimeout capacity) past p)
    (hSmall : (p.session side).allocated < 2 ^ 31) {request : Request}
    (hRequest : request ∈ (p.session side).asked)
    (hMethod : (registry side.other).method? request.method = none) :
    RanNever (registry side.other) (p.session side.other) request := by
  refine ⟨hMethod, fun run hRun hId => ?_⟩
  have hHandler := exec.handler_eq hRun
  rw [← exec.request_eq hSmall hRequest hRun hId] at hMethod
  have hNone : (registry side.other).method? run.method = none := hMethod
  rw [hNone] at hHandler
  cases hHandler

/-! ### Responses -/

/-- What answers a call: the result of the one run for it, or the refusal of its method. -/
theorem Execution.answer_origin (exec : Execution (new host registry callTimeout capacity) past p)
    (hSmall : (p.session side).allocated < 2 ^ 31) {request : Request}
    (hRequest : request ∈ (p.session side).asked) {content : Content}
    (hHeard : .response ⟨request.id, content⟩ ∈ History.heard (History.of past side)) :
    (RanNever (registry side.other) (p.session side.other) request ∧
      content = .error (.methodNotFound request.method)) ∨
    ∃ result, RanOnce (registry side.other) (p.session side.other) request result ∧
      content = Machine.answer result := by
  rw [← other_other side] at hHeard
  obtain ⟨_, hExplained⟩ := exec.explained hHeard
  obtain ⟨_, life⟩ := exec.life_new side.other
  generalize hResponse : Response.mk request.id content = response at hExplained
  cases hExplained with
  | refusal found =>
      obtain ⟨r, hMem, hId, hCause⟩ := life.refusals rfl _ (List.mem_of_getElem? found)
      rw [← hResponse] at hId hCause
      cases hStream : r.isStream with
      | true => exact absurd hId.symm (exec.message_ne hSmall hRequest hMem hStream)
      | false =>
          obtain ⟨_, hMethod, hContent⟩ := hCause.resolve_left (by simp [hStream])
          have hSame := List.inj_on_of_nodup_map (exec.asked_nodup hSmall) hRequest
            (exec.heard_asked hMem hStream) hId
          subst hSame
          rw [exec.registry_eq] at hMethod
          exact .inl ⟨exec.ranNever hSmall hRequest hMethod, hContent⟩
  | run found returned =>
      obtain ⟨hId, hContent⟩ := Response.mk.inj hResponse
      exact .inr ⟨_, exec.ranOnce hSmall hRequest found hId.symm returned, hContent⟩
  | served _ found _ =>
      obtain ⟨r, hMem, hStream, hId, _⟩ := life.served rfl _ _ found
      obtain ⟨hSame, _⟩ := Response.mk.inj hResponse
      exact absurd (hId.trans hSame.symm) (exec.message_ne hSmall hRequest hMem hStream)

/-- A call has the place in the list that was next when it began, and its request was sent. -/
theorem Execution.call_started (exec : Execution (new host registry callTimeout capacity) past p)
    {q : Pair M S} {method : String} {payload : Payload} {timeout : Option Duration}
    {lifetime : Option LifetimeId}
    (started : (q, .act side (.call method payload timeout lifetime)) ∈ past) :
    ∃ call, (p.session side).calls[(q.session side).calls.length]? = some call ∧
      call.method = method ∧
      { id := call.id, method, payload, isStream := false } ∈ (p.session side).asked := by
  obtain ⟨q', hStep, hAfter⟩ := exec.grows_after started
  obtain ⟨hView, _⟩ | ⟨a, m', hView, hOwn, hSame⟩ := step?_view hStep side
  · simp [view] at hView
  · simp only [view, if_true, Option.some.injEq] at hView
    subst hView
    obtain ⟨call, hCalls, _, hMethod, hSaid⟩ := Machine.step?_call hOwn
    have hFound : (q'.session side).calls[(q.session side).calls.length]? = some call := by
      rw [hSame, hCalls]
      exact List.getElem?_concat_length
    obtain ⟨later, hLater, hKeeps⟩ := (hAfter side).calls _ _ hFound
    refine ⟨later, hLater, hKeeps.method.trans hMethod, (hAfter side).mem_asked ?_⟩
    rw [hSame, hKeeps.id]
    simp [Session.asked, Session.sent, hSaid, Envelope.unary?]

/-- Nothing is delivered to the wrong call. Whenever a call has returned a payload, the handler that is
registered for its method on the other side has run exactly once for it, with its id and its payload, and
has returned just this. Whenever it has failed with an error from the other side, either the method is
not registered there and nothing has run, or its handler has run exactly once for it and the error is
how the failure of this run is sent. Nothing is assumed of the order in which anything happens. -/
theorem calls_not_crossed (exec : Execution (new host registry callTimeout capacity) past p)
    (hSmall : (p.session side).allocated < 2 ^ 31) {q : Pair M S} {method : String}
    {payload : Payload} {timeout : Option Duration} {lifetime : Option LifetimeId}
    (started : (q, .act side (.call method payload timeout lifetime)) ∈ past) :
    ∃ call request, (p.session side).calls[(q.session side).calls.length]? = some call ∧
      request = { id := call.id, method, payload, isStream := false } ∧
      (∀ answer, call.state = .returned (.ok answer) →
        RanOnce (registry side.other) (p.session side.other) request (.ok answer)) ∧
      ∀ e, call.state = .returned (.error (.remote e)) →
        (RanNever (registry side.other) (p.session side.other) request ∧ e = .methodNotFound method) ∨
        ∃ failure, RanOnce (registry side.other) (p.session side.other) request (.error failure) ∧
          e = failure.toRemote := by
  obtain ⟨call, hCall, _, hAsked⟩ := exec.call_started started
  obtain ⟨_, life⟩ := exec.life_new side
  have hResult := (life.answered (by omega) _ _ hCall).result
  refine ⟨call, _, hCall, rfl, fun answer hState => ?_, fun e hState => ?_⟩
  · obtain ⟨content, hHeard, he⟩ | hLocal := hResult _ hState
    · obtain ⟨_, rfl⟩ | ⟨result, hRan, rfl⟩ := exec.answer_origin hSmall hAsked hHeard
      · cases he
      · cases result <;> cases he
        exact hRan
    · obtain h | h | ⟨_, h⟩ := hLocal <;> cases h
  · obtain ⟨content, hHeard, he⟩ | hLocal := hResult _ hState
    · obtain ⟨hNever, rfl⟩ | ⟨result, hRan, rfl⟩ := exec.answer_origin hSmall hAsked hHeard
      · cases he
        exact .inl ⟨hNever, rfl⟩
      · cases result <;> cases he
        exact .inr ⟨_, hRan, rfl⟩
    · obtain h | h | ⟨_, h⟩ := hLocal <;> cases h

/-- Of two calls the second is answered first. Each gets what its own run has returned. -/
theorem calls_not_crossed_of_swapped : ∃ (past : History Unit Unit) (p : Pair Unit Unit) (call : Call),
    Execution (new (Host.new false) (fun _ => ⟨[⟨"A.b", ()⟩], []⟩) (fun _ => none) 4) past p ∧
      p.a.calls[0]? = some call ∧ call.state = .returned (.ok (.ofValue [10])) ∧
      RanOnce ⟨[⟨"A.b", ()⟩], []⟩ p.b
        { id := call.id, method := "A.b", payload := .ofValue [1], isStream := false }
        (.ok (.ofValue [10])) := by
  have hPlay : ((new (Host.new false)
      (fun _ => (⟨[⟨"A.b", ()⟩], []⟩ : Registry Unit Unit)) (fun _ => none) 4).play
      [.act .a (.call "A.b" (.ofValue [1]) none none), .act .a (.call "A.b" (.ofValue [2]) none none),
        .act .a (.advance 0), .act .a (.advance 1), .deliver .b, .deliver .b,
        .act .b (.finishRun 1 (.ok (.ofValue [20]))), .act .b (.finishRun 0 (.ok (.ofValue [10]))),
        .act .b (.advance 0), .act .b (.advance 1), .deliver .a, .deliver .a,
        .act .a (.pollCall 0)]).map
      (fun r => (r.2.a.calls[0]?.map Call.state, r.2.a.allocated)) =
        some (some (.returned (.ok (.ofValue [10]))), 2) := by decide +kernel
  obtain ⟨⟨past, p⟩, hRun, hFacts⟩ := Option.map_eq_some_iff.mp hPlay
  obtain ⟨hState, hAllocated⟩ := Prod.mk.inj hFacts
  obtain ⟨call, hCall, hReturned⟩ := Option.map_eq_some_iff.mp hState
  have exec := Execution.refl.play hRun
  have hSmall : (p.session .a).allocated < 2 ^ 31 := by
    have hSame : (p.session .a).allocated = 2 := hAllocated
    omega
  obtain ⟨call', _, hCall', rfl, hOk, _⟩ := calls_not_crossed exec hSmall (mem_play hRun)
  have hSame : p.a.calls[0]? = some call' := hCall'
  rw [hCall] at hSame
  cases hSame
  exact ⟨past, p, call, exec, hCall, hReturned, hOk _ hReturned⟩

end Pair

end PeerLink
