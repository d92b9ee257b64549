import PeerLink.Proofs.Echo.Requests
import PeerLink.Proofs.Session.Speaking

/-! Where the echo server stands with every id. `Echoing` relates what was asked for to the runs and streams
of its session and to the handlers that work on them: each of these has said the first part of what it should
answer, and knows what is left. What is done for one id leaves all others alone, so the steps of handlers are
two lemmas, one for the calls and one for the streams. -/
namespace PeerLink.EchoServer

/-- The handler of calls. -/
def callScript : CallScript :=
  { actions := [], reply := .typed .echo }

/-- The handler of streams. -/
def streamScript : StreamScript :=
  .actions [.ready, .echo]

/-- A session that serves calls and streams by scripts. -/
abbrev ScriptSession := Session CallScript StreamScript

/-- How far the handler at a place has got; it may not have begun. -/
def progressOf {T P : Type} (fresh : P) (progress : T → P) (tasks : List T) (i : Nat) : P :=
  (tasks[i]?.map progress).getD fresh

/-- How far the handler of a run has got. -/
abbrev callProgress (tasks : List CallTask) (i : RunId) : CallProgress :=
  progressOf .fresh CallTask.progress tasks i

/-- How far the handler of a stream has got. -/
abbrev streamProgress (tasks : List StreamTask) (i : ServedStreamId) : StreamProgress :=
  progressOf .fresh StreamTask.progress tasks i

/-- The ids that are in use. -/
def idsOf (s : ScriptSession) : List Int32 :=
  s.runs.map Run.id ++ s.servedStreams.map ServedStream.id

/-- What a handler has done and said for a call. -/
inductive CallStage (m : EchoMessage) :
    Option (Except HandlerError Payload) → CallProgress → List Content → Prop where
  | fresh : CallStage m none .fresh []
  | decoded : CallStage m none (.acting [] (some (.echo m.text))) []
  | answered (result : Except HandlerError Payload) :
      CallStage m (some result) .returned [.payload m.reply]

/-- What a handler has done and said for a stream, when it has sent the messages `done` back and `left` wait
for it. -/
inductive StreamStage (tickets : Nat) (x : ServedStream StreamScript) (done left : List EchoMessage) :
    StreamProgress → List Content → Prop where
  | starting (progress : StreamProgress)
      (fresh : progress = .fresh ∨ progress = .acting [.ready, .echo] .none) (first : done = [])
      (running : x.result = none) (unclosed : x.closeSent = false) :
      StreamStage tickets x done left progress []
  | greeting (t : Ticket) (begun : t < tickets) (first : done = [])
      (running : x.result = none) (unclosed : x.closeSent = false) :
      StreamStage tickets x done left (.acting [.ready, .echo] (.sending t)) [.ready true]
  | echoing (pause : StreamPause)
      (begun : pause = .none ∨ ∃ t < tickets, pause = .sending t)
      (running : x.result = none) (unclosed : x.closeSent = false) :
      StreamStage tickets x done left (.acting [.echo] pause)
        (.ready true :: done.map fun m => .payload m.reply)
  | leaving (all : left = []) (closed : x.inboxClosed = true)
      (running : x.result = none) (unclosed : x.closeSent = false) :
      StreamStage tickets x done left (.acting [] .none)
        (.ready true :: done.map fun m => .payload m.reply)
  | returned (all : left = []) (closed : x.inboxClosed = true) :
      StreamStage tickets x done left .returned
        (.ready true :: done.map (fun m => .payload m.reply) ++ [.close true])

/-- The send with this number is a response with the id, and is under way. -/
def UnderWay (s : ScriptSession) (id : Int32) (t : Ticket) : Prop :=
  ∃ z, s.sends[t]? = some z ∧ z.state = .pending ∧ (z.envelope.reply? id).isSome

/-- Until the handler of a stream returns, none of its responses is under way but the one that it waits for. -/
def Waits (s : ScriptSession) (progress : StreamProgress) (id : Int32) : Prop :=
  progress = .returned ∨ ∀ t, UnderWay s id t → ∃ actions, progress = .acting actions (.sending t)

/-- A handler that works and waits for nothing has nothing under way. -/
theorem Waits.idle {actions : List StreamAction} {id : Int32} (h : Waits s (.acting actions .none) id)
    (t : Ticket) : ¬ UnderWay s id t := by
  intro hUnderWay
  obtain hReturned | hOnly := h
  · cases hReturned
  · obtain ⟨_, hPause⟩ := hOnly t hUnderWay
    cases hPause

/-- A run is the answer to the one call with its id. -/
def CallServed (asked : List (Int32 × Ask)) (s : ScriptSession) (progress : CallProgress)
    (run : Run CallScript) : Prop :=
  ∃ m, asksOf asked run.id = [.call m] ∧ run.payload = m.payload ∧ run.handler = callScript ∧
    CallStage m run.result progress (s.replies run.id)

/-- A stream has got all that was asked for with its id. -/
def StreamServed (asked : List (Int32 × Ask)) (s : ScriptSession) (progress : StreamProgress)
    (x : ServedStream StreamScript) : Prop :=
  ∃ done left, asksOf asked x.id = streamAsks (done ++ left) x.inboxClosed ∧ done ++ left ≠ [] ∧
    x.inbox = left.map EchoMessage.payload ∧ x.handler = streamScript ∧ Waits s progress x.id ∧
    StreamStage s.sends.length x done left progress (s.replies x.id)

/-- The session does nothing but reply. -/
structure Replying (s : ScriptSession) : Prop where
  method : ∃ method, s.registry.method? "Echo.Call" = some method ∧ method.handler = callScript
  stream : ∃ stream, s.registry.stream? "Echo.Stream" = some stream ∧ stream.handler = streamScript
  sends : ∀ x ∈ s.sends, (∃ r, x.envelope = .response r) ∧ x.state ≠ .givenUp
  refusals : s.refusals = []
  calls : s.calls = []
  clientStreams : s.clientStreams = []

/-- Every handler stands at the place of what it works on. -/
def InPlace {T : Type} (place : T → Nat) (tasks : List T) : Prop :=
  ∀ i t, tasks[i]? = some t → place t = i

/-- The handlers work on one run or stream each, and nobody watches them. -/
structure Attending (calls : List CallTask) (streams : List StreamTask) : Prop where
  call : InPlace CallTask.run calls
  stream : InPlace StreamTask.stream streams
  watchers : ∀ t ∈ calls, t.watchers = 0

/-- Where the server stands when it has got `asked`. -/
structure Echoing (asked : List (Int32 × Ask)) (s : ScriptSession) (calls : List CallTask)
    (streams : List StreamTask) : Prop where
  replying : Replying s
  attending : Attending calls streams
  runs : ∀ i run, s.runs[i]? = some run → CallServed asked s (callProgress calls i) run
  served : ∀ i x, s.servedStreams[i]? = some x →
    StreamServed asked s (streamProgress streams i) x
  nodup : (idsOf s).Nodup
  known : ∀ id, asksOf asked id ≠ [] → id ∈ idsOf s
  silent : ∀ id, id ∉ idsOf s → s.replies id = []

variable {asked asked' : List (Int32 × Ask)} {s s' : ScriptSession} {calls : List CallTask}
  {streams : List StreamTask}

/-! ### Handlers -/

section Tasks

variable {T P : Type} {fresh : P} {progress : T → P} {place : T → Nat} {tasks : List T} {i : Nat}
  {t t' : T}

theorem progressOf_eq (h : tasks[i]? = some t) : progressOf fresh progress tasks i = progress t := by
  rw [progressOf, h]
  rfl

theorem progressOf_set (h : tasks[i]? = some t) (j : Nat) :
    progressOf fresh progress (tasks.set i t') j =
      if j = i then progress t' else progressOf fresh progress tasks j := by
  have hLength := (List.getElem?_eq_some_iff.mp h).1
  by_cases hj : j = i
  · subst hj
    rw [if_pos rfl, progressOf, List.getElem?_set_self hLength]
    rfl
  · rw [if_neg hj, progressOf, List.getElem?_set_ne (Ne.symm hj), progressOf]

/-- A handler that is new has not begun, as if it were not there. -/
theorem progressOf_concat (h : progress t = fresh) (j : Nat) :
    progressOf fresh progress (tasks ++ [t]) j = progressOf fresh progress tasks j := by
  unfold progressOf
  obtain hj | rfl | hj := Nat.lt_trichotomy j tasks.length
  · rw [List.getElem?_append_left hj]
  · rw [List.getElem?_concat_length, List.getElem?_eq_none (Nat.le_refl _)]
    exact h
  · rw [List.getElem?_eq_none (Nat.le_of_lt hj), List.getElem?_eq_none]
    rw [List.length_append, List.length_singleton]
    exact hj

theorem InPlace.set (h : InPlace place tasks) (found : tasks[i]? = some t) (same : place t' = place t) :
    InPlace place (tasks.set i t') := by
  intro j u hu
  rw [List.getElem?_set] at hu
  split at hu
  · next hj =>
      subst hj
      split at hu
      · cases hu
        exact same.trans (h _ _ found)
      · cases hu
  · exact h j u hu

theorem InPlace.concat (h : InPlace place tasks) (last : place t = tasks.length) :
    InPlace place (tasks ++ [t]) := by
  intro j u hu
  obtain hu | ⟨rfl, rfl⟩ := getElem?_concat_eq_some hu
  · exact h j u hu
  · exact last

end Tasks

theorem Attending.set_call {i : RunId} {t : CallTask} (h : Attending calls streams)
    (found : calls[i]? = some t) (progress : CallProgress) :
    Attending (calls.set i { t with progress }) streams := by
  refine ⟨h.call.set found rfl, h.stream, fun u hu => ?_⟩
  obtain hu | rfl := List.mem_or_eq_of_mem_set hu
  · exact h.watchers u hu
  · exact h.watchers t (List.mem_of_getElem? found)

theorem Attending.new_call (h : Attending calls streams) :
    Attending (calls ++ [.new calls.length]) streams := by
  refine ⟨h.call.concat rfl, h.stream, fun u hu => ?_⟩
  obtain hu | hu := List.mem_append.mp hu
  · exact h.watchers u hu
  · rw [List.mem_singleton.mp hu]
    rfl

/-! ### Steps of handlers -/

/-- Nothing but the replies with this id and the number of sends changes. -/
structure SpeaksFor (id : Int32) (s s' : ScriptSession) : Prop where
  tickets : s.sends.length ≤ s'.sends.length
  others : ∀ other, other ≠ id → s'.replies other = s.replies other
  waits : ∀ other, other ≠ id → ∀ t, UnderWay s' other t → UnderWay s other t

theorem SpeaksFor.of_sends (id : Int32) (sends : s'.sends = s.sends) : SpeaksFor id s s' where
  tickets := sends ▸ Nat.le_refl _
  others other _ := by
    rw [Session.replies, Session.sent, Session.said, sends]
    rfl
  waits other _ t h := by rwa [UnderWay, sends] at h

theorem Waits.later {progress : StreamProgress} {id : Int32} (h : Waits s progress id)
    (hUnderWay : ∀ t, UnderWay s' id t → UnderWay s id t) : Waits s' progress id :=
  h.imp_right fun hWaits t ht => hWaits t (hUnderWay t ht)

theorem StreamStage.later {tickets tickets' : Nat} {x : ServedStream StreamScript}
    {done left : List EchoMessage} {progress : StreamProgress} {contents : List Content}
    (h : StreamStage tickets x done left progress contents) (hLater : tickets ≤ tickets') :
    StreamStage tickets' x done left progress contents := by
  cases h with
  | starting _ fresh first running unclosed => exact .starting _ fresh first running unclosed
  | greeting t begun first running unclosed =>
      exact .greeting t (begun.trans_le hLater) first running unclosed
  | echoing pause begun running unclosed =>
      refine .echoing pause (begun.imp_right fun ⟨t, ht, hPause⟩ => ?_) running unclosed
      exact ⟨t, ht.trans_le hLater, hPause⟩
  | leaving all closed running unclosed => exact .leaving all closed running unclosed
  | returned all closed => exact .returned all closed

theorem CallServed.other {progress : CallProgress} {run : Run CallScript}
    (h : CallServed asked s progress run) (hAsked : asksOf asked' run.id = asksOf asked run.id)
    (hReplies : s'.replies run.id = s.replies run.id) : CallServed asked' s' progress run := by
  obtain ⟨m, hAsks, hPayload, hHandler, hStage⟩ := h
  exact ⟨m, hAsked.trans hAsks, hPayload, hHandler, by rwa [hReplies]⟩

theorem StreamServed.other {progress : StreamProgress} {x : ServedStream StreamScript}
    (h : StreamServed asked s progress x) (hAsked : asksOf asked' x.id = asksOf asked x.id)
    (hTickets : s.sends.length ≤ s'.sends.length) (hReplies : s'.replies x.id = s.replies x.id)
    (hUnderWay : ∀ t, UnderWay s' x.id t → UnderWay s x.id t) : StreamServed asked' s' progress x := by
  obtain ⟨done, left, hAsks, hSome, hInbox, hHandler, hWaits, hStage⟩ := h
  refine ⟨done, left, hAsked.trans hAsks, hSome, hInbox, hHandler, hWaits.later hUnderWay, ?_⟩
  rw [hReplies]
  exact hStage.later hTickets

/-- No two runs or streams have the same id. -/
theorem Echoing.run_unique (h : Echoing asked s calls streams) {i j : RunId} {x y : Run CallScript}
    (hx : s.runs[i]? = some x) (hy : s.runs[j]? = some y) (hId : y.id = x.id) : j = i := by
  have hNodup := (List.nodup_append.mp h.nodup).1
  have hi : (s.runs.map Run.id)[i]? = some x.id := by rw [List.getElem?_map, hx, Option.map_some]
  have hj : (s.runs.map Run.id)[j]? = some x.id := by
    rw [List.getElem?_map, hy, Option.map_some, hId]
  exact (List.getElem?_inj (List.getElem?_eq_some_iff.mp hj).1 hNodup).mp (hj.trans hi.symm)

theorem Echoing.stream_unique (h : Echoing asked s calls streams) {i j : ServedStreamId}
    {x y : ServedStream StreamScript} (hx : s.servedStreams[i]? = some x)
    (hy : s.servedStreams[j]? = some y) (hId : y.id = x.id) : j = i := by
  have hNodup := (List.nodup_append.mp h.nodup).2.1
  have hi : (s.servedStreams.map ServedStream.id)[i]? = some x.id := by
    rw [List.getElem?_map, hx, Option.map_some]
  have hj : (s.servedStreams.map ServedStream.id)[j]? = some x.id := by
    rw [List.getElem?_map, hy, Option.map_some, hId]
  exact (List.getElem?_inj (List.getElem?_eq_some_iff.mp hj).1 hNodup).mp (hj.trans hi.symm)

theorem Echoing.run_ne_stream (h : Echoing asked s calls streams) {run : Run CallScript}
    {x : ServedStream StreamScript} (hRun : run ∈ s.runs) (hx : x ∈ s.servedStreams) :
    run.id ≠ x.id :=
  (List.nodup_append.mp h.nodup).2.2 _ (List.mem_map_of_mem hRun) _ (List.mem_map_of_mem hx)

/-- The handler of a call takes a step. -/
theorem Echoing.call_step (h : Echoing asked s calls streams) {i : RunId} {t : CallTask}
    {run run' : Run CallScript} {progress : CallProgress} (found : s.runs[i]? = some run)
    (task : calls[i]? = some t) (replying : Replying s')
    (runs : ∀ j, s'.runs[j]? = if j = i then some run' else s.runs[j]?) (same : run'.id = run.id)
    (served : s'.servedStreams = s.servedStreams) (speaks : SpeaksFor run.id s s')
    (stage : CallServed asked s' progress run') :
    Echoing asked s' (calls.set i { t with progress }) streams := by
  have hIds : idsOf s' = idsOf s := by
    have hRuns : s'.runs.map Run.id = s.runs.map Run.id := by
      refine List.ext_getElem? fun j => ?_
      rw [List.getElem?_map, List.getElem?_map, runs j]
      split
      · next hj => rw [hj, found, Option.map_some, Option.map_some, same]
      · rfl
    rw [idsOf, idsOf, hRuns, served]
  have hMem : run ∈ s.runs := List.mem_of_getElem? found
  refine ⟨replying, h.attending.set_call task progress, fun j x hx => ?_, fun j x hx => ?_, ?_,
    fun id hId => ?_, fun id hId => ?_⟩
  · rw [runs j] at hx
    rw [callProgress, progressOf_set task]
    split at hx
    · next hj =>
        rw [if_pos hj]
        cases hx
        exact stage
    · next hj =>
        rw [if_neg hj]
        exact (h.runs j x hx).other rfl (speaks.others _ fun he => hj (h.run_unique found hx he))
  · rw [served] at hx
    have hApart := h.run_ne_stream hMem (List.mem_of_getElem? hx)
    exact (h.served j x hx).other rfl speaks.tickets (speaks.others _ hApart.symm)
      (speaks.waits _ hApart.symm)
  · rw [hIds]
    exact h.nodup
  · rw [hIds]
    exact h.known id hId
  · rw [hIds] at hId
    have hOther : id ≠ run.id := fun he =>
      hId (he ▸ List.mem_append_left _ (List.mem_map_of_mem hMem))
    rw [speaks.others id hOther]
    exact h.silent id hId

/-- Something is done for a stream: its handler takes a step, or more is asked for with its id. -/
theorem Echoing.stream_step (h : Echoing asked s calls streams) {i : ServedStreamId}
    {x x' : ServedStream StreamScript} {streams' : List StreamTask}
    (found : s.servedStreams[i]? = some x) (replying : Replying s')
    (attending : Attending calls streams')
    (others : ∀ j, j ≠ i → streamProgress streams' j = streamProgress streams j)
    (runs : s'.runs = s.runs)
    (served : ∀ j, s'.servedStreams[j]? = if j = i then some x' else s.servedStreams[j]?)
    (same : x'.id = x.id) (speaks : SpeaksFor x.id s s')
    (asks : ∀ id, id ≠ x.id → asksOf asked' id = asksOf asked id)
    (stage : StreamServed asked' s' (streamProgress streams' i) x') :
    Echoing asked' s' calls streams' := by
  have hIds : idsOf s' = idsOf s := by
    have hServed : s'.servedStreams.map ServedStream.id = s.servedStreams.map ServedStream.id := by
      refine List.ext_getElem? fun j => ?_
      rw [List.getElem?_map, List.getElem?_map, served j]
      split
      · next hj => rw [hj, found, Option.map_some, Option.map_some, same]
      · rfl
    rw [idsOf, idsOf, hServed, runs]
  have hMem : x ∈ s.servedStreams := List.mem_of_getElem? found
  have hUsed : x.id ∈ idsOf s := List.mem_append_right _ (List.mem_map_of_mem hMem)
  refine ⟨replying, attending, fun j run hRun => ?_, fun j y hy => ?_, ?_, fun id hId => ?_,
    fun id hId => ?_⟩
  · rw [runs] at hRun
    have hApart := h.run_ne_stream (List.mem_of_getElem? hRun) hMem
    exact (h.runs j run hRun).other (asks _ hApart) (speaks.others _ hApart)
  · rw [served j] at hy
    split at hy
    · next hj =>
        cases hy
        rw [hj]
        exact stage
    · next hj =>
        have hApart : y.id ≠ x.id := fun he => hj (h.stream_unique found hy he)
        rw [others j hj]
        exact (h.served j y hy).other (asks _ hApart) speaks.tickets (speaks.others _ hApart)
          (speaks.waits _ hApart)
  · rw [hIds]
    exact h.nodup
  · rw [hIds]
    by_cases hOther : id = x.id
    · rw [hOther]
      exact hUsed
    · rw [asks id hOther] at hId
      exact h.known id hId
  · rw [hIds] at hId
    have hOther : id ≠ x.id := fun he => hId (he ▸ hUsed)
    rw [speaks.others id hOther]
    exact h.silent id hId

end PeerLink.EchoServer
