import PeerLink.Proofs.Session.PendingTable

/-! How the responses of a stream become messages. A response that is handled for a stream waits until
the task of the stream sorts it, and a message that came out of it waits until the owner receives it. No
step takes anything out of the middle: at every moment the messages received and those that wait are what
sorting makes of the responses that are no longer waiting (`Sorted`). -/
namespace PeerLink

/-- No response behind this one is looked at. -/
def Content.isLast : Content → Bool
  | .error _ => true
  | .close _ => true
  | _ => false

/-- The payload of a response. -/
def Content.payload? : Content → Option Payload
  | .payload p => some p
  | _ => none

/-- What sorting makes of the responses of a stream: the payloads up to the first error or close, and
the error if it is one. -/
def messagesOf : List Content → List (Except RemoteError Payload)
  | [] => []
  | .payload p :: rest => .ok p :: messagesOf rest
  | .error e :: _ => [.error e]
  | .close _ :: _ => []
  | .ready _ :: rest => messagesOf rest

theorem messagesOf_append {l : List Content} (hOpen : ∀ x ∈ l, x.isLast = false)
    (rest : List Content) : messagesOf (l ++ rest) = messagesOf l ++ messagesOf rest := by
  induction l with
  | nil => rfl
  | cons x l ih =>
      obtain ⟨hHead, hTail⟩ := List.forall_mem_cons.mp hOpen
      cases x with
      | payload p => exact congrArg (Except.ok p :: ·) (ih hTail)
      | error _ => cases hHead
      | close _ => cases hHead
      | ready _ => exact ih hTail

theorem messagesOf_append_of_last {l : List Content} (hLast : ∃ x ∈ l, x.isLast = true)
    (rest : List Content) : messagesOf (l ++ rest) = messagesOf l := by
  induction l with
  | nil =>
      obtain ⟨x, hx, _⟩ := hLast
      cases hx
  | cons x l ih =>
      obtain ⟨y, hy, hIs⟩ := hLast
      have hRest : x.isLast = false → ∃ y ∈ l, y.isLast = true := by
        intro hx
        rcases List.mem_cons.mp hy with rfl | hy
        · rw [hx] at hIs
          cases hIs
        · exact ⟨y, hy, hIs⟩
      cases x with
      | payload p => exact congrArg (Except.ok p :: ·) (ih (hRest rfl))
      | error _ => rfl
      | close _ => rfl
      | ready _ => exact ih (hRest rfl)

/-- More responses only add messages at the end. -/
theorem messagesOf_le_append (l rest : List Content) : messagesOf l <+: messagesOf (l ++ rest) := by
  by_cases hLast : ∃ x ∈ l, x.isLast = true
  · exact ⟨[], by rw [messagesOf_append_of_last hLast, List.append_nil]⟩
  · rw [messagesOf_append fun x hx => Bool.eq_false_iff.mpr fun h => hLast ⟨x, hx, h⟩]
    exact List.prefix_append _ _

/-- However often the same error is repeated, it is one message. -/
theorem messagesOf_of_error {l : List Content} {e : RemoteError} (h : ∀ x ∈ l, x = .error e) :
    messagesOf l <+: [.error e] := by
  cases l with
  | nil => exact List.nil_prefix
  | cons x rest =>
      exact ⟨[], by rw [h x List.mem_cons_self, messagesOf, List.append_nil]⟩

/-- The payloads that come out are the first ones that went in. -/
theorem messagesOf_payloads (l : List Content) :
    (messagesOf l).filterMap Except.toOption <+: l.filterMap Content.payload? := by
  induction l with
  | nil => exact List.prefix_refl _
  | cons x l ih =>
      cases x with
      | payload p => exact (List.prefix_cons_inj p).mpr ih
      | error _ | close _ => exact List.nil_prefix
      | ready _ => exact ih

/-- Behind an error nothing comes out, and before it every payload that went in. -/
theorem messagesOf_error {l : List Content} {e : RemoteError} (h : .error e ∈ messagesOf l) :
    ∃ front rest, l = front ++ .error e :: rest ∧
      messagesOf l = (front.filterMap Content.payload?).map .ok ++ [.error e] := by
  induction l with
  | nil => cases h
  | cons x l ih =>
      cases x with
      | payload p =>
          have hLater : .error e ∈ messagesOf l := (List.mem_cons.mp h).resolve_left nofun
          obtain ⟨front, rest, rfl, hMessages⟩ := ih hLater
          exact ⟨.payload p :: front, rest, rfl, congrArg (Except.ok p :: ·) hMessages⟩
      | error e' =>
          cases List.mem_singleton.mp h
          exact ⟨[], l, rfl, rfl⟩
      | close _ => cases h
      | ready flag =>
          obtain ⟨front, rest, rfl, hMessages⟩ := ih h
          exact ⟨.ready flag :: front, rest, rfl, hMessages⟩

namespace Machine

variable {M S : Type} {m m' : Machine M S} {a : Action} {c : ClientStreamId}

/-! ### What is seen of a stream -/

/-- The response that an action hands over to the stream. -/
def arrival? (c : ClientStreamId) (x : Machine M S × Action) : Option Content :=
  match x.2 with
  | .receive (.response r) =>
    if x.1.session.pending.get? r.id = some (.stream c) then some r.content else none
  | _ => none

/-- The message that an action returns to the owner of the stream. -/
def receipt? (c : ClientStreamId) (x : Machine M S × Action) :
    Option (Except RemoteError Payload) :=
  match x.2 with
  | .receiveClient d =>
    if d = c then
      match (x.1.receiveClient c).1 with
      | .message message => some message
      | _ => none
    else none
  | _ => none

/-- The response with the id of the stream that an action handles, once there is the stream. -/
def answer? (c : ClientStreamId) (x : Machine M S × Action) : Option Content :=
  match x.2 with
  | .receive (.response r) =>
    if (x.1.session.clientStreams[c]?.any fun y => y.id = r.id) then some r.content else none
  | _ => none

/-- The responses that were handed over to the stream. -/
def History.arrived (past : History M S) (c : ClientStreamId) : List Content :=
  past.filterMap (arrival? c)

/-- The messages that the owner of the stream has received. -/
def History.received (past : History M S) (c : ClientStreamId) : List (Except RemoteError Payload) :=
  past.filterMap (receipt? c)

/-- The responses with the id of the stream that were handled since it was opened. -/
def History.answers (past : History M S) (c : ClientStreamId) : List Content :=
  past.filterMap (answer? c)

/-! ### What an action does to a stream -/

/-- What one action does to the streams opened here. -/
inductive StreamsStep (m m' : Machine M S) (a : Action) : Prop where
  | kept (arrival : ∀ c, arrival? c (m, a) = none) (receipt : ∀ c, receipt? c (m, a) = none)
      (streams : m'.session.clientStreams = m.session.clientStreams)
  | opened (method : String) (cause : a = .openStream method)
      (streams : m'.session.clientStreams = m.session.clientStreams ++
        [{ id := m.session.pending.free m.session.nextId, method, lifetime := m.lifetimes.next
           responses := [], ready := false, ended := false, messages := [], closeSent := false }])
  | closed (d : ClientStreamId) (cause : a = .closeClient d)
      (streams : m'.session.clientStreams =
        m.session.clientStreams.modify d fun x => { x with closeSent := true })
  | arrived (d : ClientStreamId) (r : Response) (cause : a = .receive (.response r))
      (slot : m.session.pending.get? r.id = some (.stream d))
      (streams : m'.session.clientStreams =
        m.session.clientStreams.modify d fun x => { x with responses := x.responses ++ [r.content] })
  | received (d : ClientStreamId) (x : ClientStream) (message : Except RemoteError Payload)
      (rest : List (Except RemoteError Payload)) (cause : a = .receiveClient d)
      (found : m.session.clientStreams[d]? = some x) (messages : x.messages = message :: rest)
      (receipt : (m.receiveClient d).1 = .message message)
      (streams : m'.session.clientStreams =
        m.session.clientStreams.modify d fun x => { x with messages := rest })
  | sorted (d : ClientStreamId) (x : ClientStream) (content : Content) (rest : List Content)
      (cause : a = .pollClient d) (found : m.session.clientStreams[d]? = some x)
      (unended : x.ended = false) (responses : x.responses = content :: rest)
      (streams : m'.session.clientStreams = m.session.clientStreams.modify d fun x =>
        { x with
          responses := rest, ready := true, messages := x.messages ++ messagesOf [content]
          ended := x.ended || content.isLast })
  /-- The task of the stream stops, and leaves what was not sorted. -/
  | stopped (d : ClientStreamId) (x : ClientStream) (cause : a = .pollClient d)
      (found : m.session.clientStreams[d]? = some x) (unended : x.ended = false)
      (cancelled : m.isCancelled x.lifetime = true)
      (streams : m'.session.clientStreams =
        m.session.clientStreams.modify d fun x => { x with ended := true })

/-- What one action does to the responses and messages of a stream. -/
inductive ClientStep (m : Machine M S) (a : Action) (c : ClientStreamId) (y : ClientStream) : Prop where
  | opened (method : String) (cause : a = .openStream method)
      (new : c = m.session.clientStreams.length) (responses : y.responses = [])
      (messages : y.messages = []) (unended : y.ended = false)
  | kept (x : ClientStream) (found : m.session.clientStreams[c]? = some x)
      (arrival : arrival? c (m, a) = none) (receipt : receipt? c (m, a) = none)
      (responses : y.responses = x.responses) (messages : y.messages = x.messages)
      (ended : y.ended = x.ended)
  | arrived (x : ClientStream) (content : Content) (found : m.session.clientStreams[c]? = some x)
      (arrival : arrival? c (m, a) = some content) (receipt : receipt? c (m, a) = none)
      (responses : y.responses = x.responses ++ [content]) (messages : y.messages = x.messages)
      (ended : y.ended = x.ended)
  | received (x : ClientStream) (message : Except RemoteError Payload)
      (found : m.session.clientStreams[c]? = some x) (arrival : arrival? c (m, a) = none)
      (receipt : receipt? c (m, a) = some message) (responses : y.responses = x.responses)
      (messages : x.messages = message :: y.messages) (ended : y.ended = x.ended)
  | sorted (x : ClientStream) (content : Content) (found : m.session.clientStreams[c]? = some x)
      (cause : a = .pollClient c) (unended : x.ended = false)
      (responses : x.responses = content :: y.responses)
      (messages : y.messages = x.messages ++ messagesOf [content]) (ended : y.ended = content.isLast)
  /-- The task of the stream stops, and leaves what was not sorted. -/
  | stopped (x : ClientStream) (found : m.session.clientStreams[c]? = some x)
      (cause : a = .pollClient c) (unended : x.ended = false)
      (cancelled : m.isCancelled x.lifetime = true) (responses : y.responses = x.responses)
      (messages : y.messages = x.messages) (ended : y.ended = true)

/-- Sorting a response, as one change of the record of the stream. -/
theorem sortResponse_clientStreams (m : Machine M S) (c : ClientStreamId) (stream : ClientStream)
    (content : Content) (rest : List Content) :
    (m.sortResponse c stream content rest).session.clientStreams =
      m.session.clientStreams.modify c fun x =>
        { x with
          responses := rest, ready := true, messages := x.messages ++ messagesOf [content]
          ended := x.ended || content.isLast } := by
  cases content <;>
    simp [sortResponse, endClient, Session.modifyClient, List.modify_modify_eq, messagesOf,
      Content.isLast, Function.comp_def]

theorem endClient_clientStreams (m : Machine M S) (c : ClientStreamId) (stream : ClientStream) :
    (m.endClient c stream).session.clientStreams =
      m.session.clientStreams.modify c fun x => { x with ended := true } :=
  rfl

theorem receipt?_eq_some {message : Except RemoteError Payload} :
    receipt? c (m, a) = some message ↔
      a = .receiveClient c ∧ (m.receiveClient c).1 = .message message := by
  cases a with
  | receiveClient d =>
      by_cases hd : d = c
      · subst hd
        simp only [receipt?, if_true, true_and]
        cases (m.receiveClient d).1 <;> simp
      · simp [receipt?, hd]
  | _ => simp [receipt?]

theorem step?_streams (h : m.step? a = some m') : m.StreamsStep m' a := by
  cases a with
  | openStream method =>
      cases h
      exact .opened method rfl rfl
  | closeClient d =>
      obtain ⟨_, _, _, rfl⟩ := closeClient?_eq_some h
      exact .closed d rfl rfl
  | receiveClient d =>
      cases h
      obtain ⟨x, message, rest, hx, hMessages, he⟩ | ⟨hNothing, he⟩ := receiveClient_cases m d
      · exact .received d x message rest rfl hx hMessages (by rw [he]) (by rw [he]; rfl)
      · refine .kept (fun _ => rfl) (fun c => ?_) (by rw [he])
        refine Option.eq_none_iff_forall_ne_some.mpr fun message hSome => ?_
        obtain ⟨hSame, hMessage⟩ := receipt?_eq_some.mp hSome
        cases hSame
        exact hNothing message hMessage
  | pollClient d =>
      obtain ⟨x, hx, hUnended, ⟨hCancelled, rfl⟩ | ⟨content, rest, hResponses, rfl⟩⟩ :=
        pollClient?_cases h
      · exact .stopped d x rfl hx hUnended hCancelled rfl
      · exact .sorted d x content rest rfl hx hUnended hResponses (sortResponse_clientStreams ..)
  | receive e =>
      obtain ⟨_, _, rfl⟩ := receive?_eq_some h
      cases e with
      | response r =>
          obtain ⟨d, hSlot, he⟩ | ⟨d, hSlot, he⟩ | ⟨hNobody, he⟩ := deliver_cases m r
          · refine .kept (fun c => if_neg ?_) (fun _ => rfl) (by rw [handle, he]; rfl)
            rw [hSlot]
            simp
          · exact .arrived d r rfl hSlot (by rw [handle, he]; rfl)
          · exact .kept (fun c => if_neg (hNobody c).2) (fun _ => rfl) (by rw [handle, he]; rfl)
      | _ => exact .kept (fun _ => rfl) (fun _ => rfl) (by rw [handle_session]; rfl)
  | _ => exact .kept (fun _ => rfl) (fun _ => rfl) (by rw [step?_frame h]; rfl)

theorem step?_client {y : ClientStream} (h : m.step? a = some m')
    (found : m'.session.clientStreams[c]? = some y) : m.ClientStep a c y := by
  cases step?_streams h with
  | kept arrival receipt streams =>
      rw [streams] at found
      exact .kept y found (arrival c) (receipt c) rfl rfl rfl
  | opened method cause streams =>
      rw [streams] at found
      subst cause
      obtain hOld | ⟨hNew, rfl⟩ := getElem?_concat_eq_some found
      · exact .kept y hOld rfl rfl rfl rfl rfl
      · exact .opened method rfl hNew rfl rfl rfl
  | closed d cause streams =>
      rw [streams] at found
      subst cause
      obtain ⟨_, hOld⟩ | ⟨_, x, hx, rfl⟩ := getElem?_modify_eq_some found
      · exact .kept y hOld rfl rfl rfl rfl rfl
      · exact .kept x hx rfl rfl rfl rfl rfl
  | arrived d r cause slot streams =>
      rw [streams] at found
      subst cause
      obtain ⟨hne, hOld⟩ | ⟨rfl, x, hx, rfl⟩ := getElem?_modify_eq_some found
      · refine .kept y hOld (if_neg ?_) rfl rfl rfl rfl
        rw [slot]
        simpa using Ne.symm hne
      · exact .arrived x r.content hx (if_pos slot) rfl rfl rfl rfl
  | received d x message rest cause hx messages receipt streams =>
      rw [streams] at found
      subst cause
      obtain ⟨hne, hOld⟩ | ⟨rfl, z, hz, rfl⟩ := getElem?_modify_eq_some found
      · exact .kept y hOld rfl (if_neg (Ne.symm hne)) rfl rfl rfl
      · cases hx.symm.trans hz
        exact .received x message hx rfl (receipt?_eq_some.mpr ⟨rfl, receipt⟩) rfl messages rfl
  | sorted d x content rest cause hx unended responses streams =>
      rw [streams] at found
      subst cause
      obtain ⟨_, hOld⟩ | ⟨rfl, z, hz, rfl⟩ := getElem?_modify_eq_some found
      · exact .kept y hOld rfl rfl rfl rfl rfl
      · cases hx.symm.trans hz
        refine .sorted x content hx rfl unended responses rfl ?_
        simp only [unended, Bool.false_or]
  | stopped d x cause hx unended cancelled streams =>
      rw [streams] at found
      subst cause
      obtain ⟨_, hOld⟩ | ⟨rfl, z, hz, rfl⟩ := getElem?_modify_eq_some found
      · exact .kept y hOld rfl rfl rfl rfl rfl
      · cases hx.symm.trans hz
        exact .stopped x hx rfl unended cancelled rfl rfl rfl

/-! ### What becomes of the responses -/

/-- The responses that are no longer waiting, `done`, became the messages, received or waiting, and the
stream goes on only as long as none of them was the last one. Until then every response with the id of
the stream is handed over to it. -/
structure Sorted (past : History M S) (c : ClientStreamId) (x : ClientStream)
    (done : List Content) : Prop where
  arrived : past.arrived c = done ++ x.responses
  messages : past.received c ++ x.messages = messagesOf done
  unended : x.ended = false → ∀ content ∈ done, content.isLast = false
  answers : past.arrived c <+: past.answers c
  complete : x.ended = false → past.answers c = past.arrived c

/-- Nothing has happened to a stream that is yet to be opened. -/
structure Unopened (past : History M S) (c : ClientStreamId) : Prop where
  arrived : past.arrived c = []
  received : past.received c = []
  answers : past.answers c = []

theorem History.arrived_concat (past : History M S) (x : Machine M S × Action) (c : ClientStreamId) :
    History.arrived (past ++ [x]) c = past.arrived c ++ (arrival? c x).toList :=
  filterMap_concat _ _ _

theorem History.received_concat (past : History M S) (x : Machine M S × Action)
    (c : ClientStreamId) :
    History.received (past ++ [x]) c = past.received c ++ (receipt? c x).toList :=
  filterMap_concat _ _ _

theorem History.answers_concat (past : History M S) (x : Machine M S × Action) (c : ClientStreamId) :
    History.answers (past ++ [x]) c = past.answers c ++ (answer? c x).toList :=
  filterMap_concat _ _ _

theorem slot_eq_stream_iff (hExact : m.session.TableExact) {x : ClientStream}
    (found : m.session.clientStreams[c]? = some x) (id : Int32) :
    m.session.pending.get? id = some (.stream c) ↔ x.ended = false ∧ x.id = id := by
  have hEntry := hExact.entry id (.stream c)
  have hAwaited : m.session.awaited? (.stream c) = some id ↔ x.ended = false ∧ x.id = id := by
    rw [Session.awaited?, found]
    cases hEnded : x.ended <;> simp [ClientStream.awaited?, hEnded]
  rw [← hAwaited, ← hEntry, Option.map_eq_some_iff]
  constructor
  · intro h
    exact ⟨_, h, rfl⟩
  · rintro ⟨slot, hSlot, hOwner⟩
    cases slot with
    | call => cases hOwner
    | stream d =>
        cases hOwner
        exact hSlot

/-- A response is handed over to the stream that has its id, as long as the stream goes on. -/
theorem arrival?_eq (hExact : m.session.TableExact) {x : ClientStream}
    (found : m.session.clientStreams[c]? = some x) :
    arrival? c (m, a) = if x.ended then none else answer? c (m, a) := by
  cases a with
  | receive e =>
      cases e with
      | response r =>
          have hSlot := slot_eq_stream_iff hExact found r.id
          simp only [arrival?, answer?, found, Option.any_some, decide_eq_true_eq, hSlot]
          cases hEnded : x.ended <;> simp
      | _ => simp [arrival?, answer?]
  | _ => simp [arrival?, answer?]

theorem Unopened.step {past : History M S} (hUnopened : Unopened past c)
    (hExact : m.session.TableExact) (hNew : m.session.clientStreams[c]? = none) :
    Unopened (past ++ [(m, a)]) c := by
  have hArrival : arrival? c (m, a) = none := by
    cases a with
    | receive e =>
        cases e with
        | response r =>
            refine if_neg fun hSlot => ?_
            have hOwner := (hExact.entry r.id (.stream c)).mp (by rw [hSlot]; rfl)
            rw [Session.awaited?, hNew] at hOwner
            cases hOwner
        | _ => rfl
    | _ => rfl
  have hReceipt : receipt? c (m, a) = none := by
    refine Option.eq_none_iff_forall_ne_some.mpr fun message hSome => ?_
    have hMessage := (receipt?_eq_some.mp hSome).2
    rw [receiveClient, hNew] at hMessage
    cases hMessage
  have hAnswer : answer? c (m, a) = none := by
    cases a with
    | receive e => cases e <;> simp [answer?, hNew]
    | _ => rfl
  refine ⟨?_, ?_, ?_⟩
  · rw [History.arrived_concat, hUnopened.arrived, hArrival]
    rfl
  · rw [History.received_concat, hUnopened.received, hReceipt]
    rfl
  · rw [History.answers_concat, hUnopened.answers, hAnswer]
    rfl

/-- Nothing that an action does to a stream loses or doubles a response. -/
theorem Sorted.step {past : History M S} {x y : ClientStream} {done : List Content}
    (hSorted : Sorted past c x done) (hExact : m.session.TableExact)
    (found : m.session.clientStreams[c]? = some x) (h : m.step? a = some m')
    (found' : m'.session.clientStreams[c]? = some y) :
    ∃ done', Sorted (past ++ [(m, a)]) c y done' := by
  have hKeeps := (step?_clientStreams h).rel found found'
  have hArrival := arrival?_eq (a := a) hExact found
  have hAnswers : History.arrived (past ++ [(m, a)]) c <+: History.answers (past ++ [(m, a)]) c ∧
      (y.ended = false →
        History.answers (past ++ [(m, a)]) c = History.arrived (past ++ [(m, a)]) c) := by
    rw [History.arrived_concat, History.answers_concat, hArrival]
    cases hEnded : x.ended with
    | true =>
        refine ⟨?_, fun hy => ?_⟩
        · simpa using hSorted.answers.trans (List.prefix_append _ _)
        · rw [hKeeps.ended hEnded] at hy
          cases hy
    | false =>
        rw [hSorted.complete hEnded]
        exact ⟨List.prefix_refl _, fun _ => rfl⟩
  have hSame : ∀ z : ClientStream, m.session.clientStreams[c]? = some z → z = x := fun z hz =>
    Option.some.inj (hz.symm.trans found)
  -- Unless the task of the stream moves on, the same responses are done as before.
  have hRests : History.arrived (past ++ [(m, a)]) c = done ++ y.responses →
      History.received (past ++ [(m, a)]) c ++ y.messages = messagesOf done → y.ended = x.ended →
      ∃ done', Sorted (past ++ [(m, a)]) c y done' := fun hArrived hMessages hEnded =>
    ⟨done, hArrived, hMessages, fun hy => hSorted.unended (hEnded ▸ hy), hAnswers.1, hAnswers.2⟩
  cases step?_client h found' with
  | opened _ _ new =>
      rw [new, List.getElem?_eq_none (Nat.le_refl _)] at found
      cases found
  | kept z hz arrival receipt responses messages ended =>
      cases hSame z hz
      refine hRests ?_ ?_ ended
      · rw [History.arrived_concat, arrival, responses, hSorted.arrived]
        simp
      · rw [History.received_concat, receipt, messages, ← hSorted.messages]
        simp
  | arrived z content hz arrival receipt responses messages ended =>
      cases hSame z hz
      refine hRests ?_ ?_ ended
      · rw [History.arrived_concat, arrival, responses, hSorted.arrived]
        simp
      · rw [History.received_concat, receipt, messages, ← hSorted.messages]
        simp
  | received z message hz arrival receipt responses messages ended =>
      cases hSame z hz
      refine hRests ?_ ?_ ended
      · rw [History.arrived_concat, arrival, responses, hSorted.arrived]
        simp
      · rw [History.received_concat, receipt, ← hSorted.messages, messages]
        simp
  | sorted z content hz cause unended responses messages ended =>
      cases hSame z hz
      have hOpen := hSorted.unended unended
      refine ⟨done ++ [content], ?_, ?_, fun hy => ?_, hAnswers.1, hAnswers.2⟩
      · rw [History.arrived_concat, cause, hSorted.arrived, responses]
        simp [arrival?]
      · rw [History.received_concat, cause, messagesOf_append hOpen, ← hSorted.messages, messages]
        simp [receipt?]
      · rw [List.forall_mem_append]
        exact ⟨hOpen, by simpa using ended.symm.trans hy⟩
  | stopped z hz cause unended cancelled responses messages ended =>
      cases hSame z hz
      refine ⟨done, ?_, ?_, fun hy => absurd (ended.symm.trans hy) nofun,
        hAnswers.1, hAnswers.2⟩
      · rw [History.arrived_concat, cause, responses, hSorted.arrived]
        simp [arrival?]
      · rw [History.received_concat, cause, messages, ← hSorted.messages]
        simp [receipt?]

theorem Unopened.opened {past : History M S} {y : ClientStream} (hUnopened : Unopened past c)
    (responses : y.responses = []) (messages : y.messages = []) : Sorted past c y [] where
  arrived := by rw [hUnopened.arrived, responses]; rfl
  messages := by rw [hUnopened.received, messages]; rfl
  unended _ content hContent := absurd hContent List.not_mem_nil
  answers := by rw [hUnopened.arrived]; exact List.nil_prefix
  complete _ := by rw [hUnopened.answers, hUnopened.arrived]

/-- In every state the messages of a stream are what sorting made of the responses that were handled
for it, those received first. -/
theorem Life.sorted {registry : Registry M S} {callTimeout : Option Duration} {capacity : Nat}
    {lifetime : LifetimeId} {s : Session M S} {past : History M S}
    (life : Life (Session.new registry callTimeout capacity lifetime) past s)
    (hRoom : past.HasRoom) :
    (∀ c x, s.clientStreams[c]? = some x → ∃ done, Sorted past c x done) ∧
      ∀ c, s.clientStreams[c]? = none → Unopened past c := by
  induction life with
  | refl => exact ⟨fun c x hx => by simp [Session.new] at hx, fun c _ => ⟨rfl, rfl, rfl⟩⟩
  | @step past s host a m' prior last ih =>
      have hBefore := (List.forall_mem_append.mp hRoom).1
      have hExact := prior.tableExact hBefore
      obtain ⟨hOld, hNew⟩ := ih hBefore
      refine ⟨fun c y hy => ?_, fun c hNone => ?_⟩
      · cases hx : s.clientStreams[c]? with
        | some x =>
            obtain ⟨done, hSorted⟩ := hOld c x hx
            exact hSorted.step hExact hx last hy
        | none =>
            have hNow := (hNew c hx).step (m := ⟨host, s⟩) (a := a) hExact hx
            cases step?_client last hy with
            | opened _ _ _ responses messages => exact ⟨[], hNow.opened responses messages⟩
            | kept _ found | arrived _ _ found | received _ _ found | sorted _ _ found
            | stopped _ found =>
                rw [hx] at found
                cases found
      · refine (hNew c ?_).step hExact ?_
        all_goals
          rw [List.getElem?_eq_none_iff] at hNone ⊢
          exact Nat.le_trans (step?_clientStreams last).length_le hNone

end Machine

end PeerLink
