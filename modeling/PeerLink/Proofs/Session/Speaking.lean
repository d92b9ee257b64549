import PeerLink.Proofs.Session.Answering
import PeerLink.Proofs.Session.Delivering
import PeerLink.Proofs.Session.Inbox
import PeerLink.Proofs.Session.Sorting

/-! What is said on a stream, from either end. The client says messages and a close, which carry the
payloads that were sent on the stream (`Life.payloads`). The handler says payloads and that it is ready, and
its stream says how it ends, by a close or by what the handler returns. -/
namespace PeerLink

variable {M S : Type}

/-- The payload of a request. -/
def Envelope.payload? : Envelope → Option Payload
  | .request r => some r.payload
  | _ => none

/-- The content of a response. -/
def Envelope.content? : Envelope → Option Content
  | .response r => some r.content
  | _ => none

/-- The content of a response with this id. -/
def Envelope.reply? (id : Int32) : Envelope → Option Content
  | .response r => if r.id = id then some r.content else none
  | _ => none

theorem Envelope.reply?_eq_some {id : Int32} {e : Envelope} {content : Content}
    (h : e.reply? id = some content) :
    e = .response ⟨id, content⟩ := by
  cases e with
  | response r =>
      simp only [Envelope.reply?] at h
      split at h
      · next hId =>
          cases h
          rw [← hId]
      · cases h
  | _ => cases h

/-- What is said on behalf of a stream that is served. -/
def speechOn? (i : ServedStreamId) (y : Sender × Envelope) : Option Content :=
  if y.1.stream? = some i then y.2.content? else none

theorem speechOn?_eq_some {i : ServedStreamId} {y : Sender × Envelope} {content : Content} :
    speechOn? i y = some content ↔ y.1.stream? = some i ∧ y.2.content? = some content := by
  simp [speechOn?, Option.ite_none_right_eq_some]

/-- What was sent on behalf of a stream that is served. -/
def Session.spoken (s : Session M S) (i : ServedStreamId) : List Content :=
  s.said.filterMap (speechOn? i)

/-- All responses with this id that were sent. -/
def Session.replies (s : Session M S) (id : Int32) : List Content :=
  s.sent.filterMap (Envelope.reply? id)

namespace Machine

variable {m m' : Machine M S} {a : Action} {past : History M S} {s : Session M S}

/-! ### The client -/

/-- The payloads that were sent on a stream opened here. -/
def History.sentOn (past : History M S) (c : ClientStreamId) : List Payload :=
  past.filterMap fun x => match x.2 with
    | .sendClient d payload => if d = c then some payload else none
    | _ => none

theorem History.sentOn_concat (past : History M S) (x : Machine M S × Action) (c : ClientStreamId) :
    History.sentOn (past ++ [x]) c = past.sentOn c ++ History.sentOn [x] c :=
  List.filterMap_append

/-- The payload of a message that a stream opened here sends. -/
def payloadOn? (c : ClientStreamId) (y : Sender × Envelope) : Option Payload :=
  if y.1 = .client c then y.2.payload? else none

/-- The payloads of a stream opened here that got into the queue, in the order in which they got in. -/
def History.acceptedOn (past : History M S) (s : Session M S) (c : ClientStreamId) : List Payload :=
  (past.accepted s).filterMap (payloadOn? c)

theorem Says.payloads {x : Sender} {e : Envelope} (cause : m.Says a x e) (c : ClientStreamId) :
    (payloadOn? c (x, e)).toList = History.sentOn [(m, a)] c := by
  cases cause with
  | @sendClient d _ payload =>
      by_cases hd : d = c
      · simp [History.sentOn, payloadOn?, Envelope.payload?, hd]
      · simp [History.sentOn, payloadOn?, hd]
  | closeClient => simp [History.sentOn, payloadOn?, Envelope.payload?]
  | _ => rfl

theorem sendClient_said {c : ClientStreamId} {payload : Payload}
    (h : m.step? (.sendClient c payload) = some m') :
    ∃ e, e.payload? = some payload ∧ m'.session.said = m.session.said ++ [(.client c, e)] := by
  obtain ⟨_, _, _, _, _, rfl⟩ := step?_sendClient_eq_some h
  exact ⟨_, rfl, said_beginSend _ _ _⟩

/-- The requests of a stream opened here carry the payloads that were sent on it. -/
theorem Life.payloads {start : Session M S} (hStart : start.said = []) (life : Life start past s)
    (c : ClientStreamId) : s.said.filterMap (payloadOn? c) = past.sentOn c := by
  induction life with
  | refl =>
      rw [hStart]
      rfl
  | @step past s host a m' prior last ih =>
      rw [History.sentOn_concat, ← ih]
      by_cases hSend : ∃ d payload, a = .sendClient d payload
      · obtain ⟨d, payload, rfl⟩ := hSend
        obtain ⟨e, hPayload, hSaid⟩ := sendClient_said last
        rw [hSaid, List.filterMap_append]
        by_cases hd : d = c <;> simp [History.sentOn, payloadOn?, hPayload, hd]
      · have hNone : History.sentOn [((⟨host, s⟩ : Machine M S), a)] c = [] := by
          cases a with
          | sendClient d payload => exact absurd ⟨d, payload, rfl⟩ hSend
          | _ => rfl
        obtain ⟨begun, hSaid, rfl | ⟨x, e, cause, rfl⟩, _⟩ := step?_flow last
        · rw [hSaid, hNone, List.append_nil, List.append_nil]
        · have hSilent := cause.payloads c
          rw [hNone, Option.toList_eq_nil_iff] at hSilent
          simp only [hSaid, hNone, List.filterMap_append, List.filterMap_cons, hSilent,
            List.filterMap_nil]

theorem spares_on {c : ClientStreamId} (hPatient : s.Patient (.client c)) :
    s.Spares fun y => (payloadOn? c y).isSome := by
  intro z hz hState
  have hSender : z.sender ≠ .client c := fun hSame => hPatient z hz hSame hState
  simp [payloadOn?, hSender]

/-- The messages with the id of a stream are its own. -/
theorem Life.messages {start : Session M S} (hStart : start.said = []) (life : Life start past s)
    {c : ClientStreamId} {x : ClientStream} (found : s.clientStreams[c]? = some x)
    (hOwned : s.OwnedBy x.id (.stream c)) {words : List (Sender × Envelope)} (hSaid : words ⊆ s.said) :
    (words.map Prod.snd).filterMap (Envelope.message? x.id) = words.filterMap (payloadOn? c) := by
  rw [List.filterMap_map]
  refine List.filterMap_congr fun y hy => ?_
  obtain ⟨sender, e⟩ := y
  cases life.explained hStart sender e (hSaid hy) with
  | @message d z payload hz =>
      by_cases hId : z.id = x.id
      · cases hOwned.clientStream_eq hz hId
        simp [payloadOn?, Envelope.message?, Envelope.payload?, hId]
      · have hd : d ≠ c := by
          rintro rfl
          exact hId (by rw [Option.some.inj (hz.symm.trans found)])
        simp [payloadOn?, Envelope.message?, hId, hd]
  | close | call | bye | refusal | run | served =>
      simp [payloadOn?, Envelope.message?, Envelope.payload?]

/-! ### The handler -/

/-- The payloads that the handler of a stream has sent while it ran. -/
def History.sentBack (past : History M S) (i : ServedStreamId) : List Payload :=
  past.filterMap fun x => match x.2 with
    | .sendServed j payload => if j = i ∧ x.1.isServing i then some payload else none
    | _ => none

/-- What got into the queue on behalf of a stream that is served. -/
def History.queuedOn (past : History M S) (s : Session M S) (i : ServedStreamId) : List Content :=
  (past.accepted s).filterMap (speechOn? i)

/-- The payload that is said on behalf of a stream that is served. -/
def payloadBack? (i : ServedStreamId) (y : Sender × Envelope) : Option Payload :=
  (speechOn? i y).bind Content.payload?

/-- The payloads of a stream that is served that got into the queue, in the order in which they got in. -/
def History.acceptedBack (past : History M S) (s : Session M S) (i : ServedStreamId) : List Payload :=
  (past.accepted s).filterMap (payloadBack? i)

theorem History.queuedOn_payloads (past : History M S) (s : Session M S) (i : ServedStreamId) :
    (past.queuedOn s i).filterMap Content.payload? = past.acceptedBack s i :=
  List.filterMap_filterMap

/-- None of the sends on the handle of the stream is under way. -/
def isIdle (m : Machine M S) (i : ServedStreamId) : Bool :=
  m.session.outbound.tickets.all fun t => !m.session.picks (fun x => x.1 = .served i) t

theorem Queueing.queuedOn_subperm (hQueue : Queueing past s) (i : ServedStreamId) :
    (past.queuedOn s i).Subperm (s.spoken i) :=
  subperm_filterMap hQueue.accepted_subperm _

theorem not_served_of_isIdle {i : ServedStreamId} (hIdle : m.isIdle i = true) {t : Ticket}
    (ht : t ∈ m.session.outbound.tickets) {e : Envelope} : m.session.said[t]? ≠ some (.served i, e) := by
  intro hSaid
  have hNot := List.all_eq_true.mp hIdle t ht
  simp [Session.picks, hSaid] at hNot

theorem History.sentBack_concat (past : History M S) (x : Machine M S × Action)
    (i : ServedStreamId) :
    History.sentBack (past ++ [x]) i = past.sentBack i ++ History.sentBack [x] i :=
  List.filterMap_append

theorem spoken_speaker {s s' : Session M S} {x : Sender} {r : Response} {i : ServedStreamId}
    (h : s'.said = s.said ++ [(x, .response r)]) (hx : x.stream? = some i) :
    s'.spoken i = s.spoken i ++ [r.content] := by
  rw [Session.spoken, h, List.filterMap_append, ← Session.spoken]
  simp [speechOn?, hx, Envelope.content?]

theorem spoken_other {s s' : Session M S} {x : Sender} {e : Envelope} {i : ServedStreamId}
    (h : s'.said = s.said ++ [(x, e)]) (hx : x.stream? ≠ some i) : s'.spoken i = s.spoken i := by
  rw [Session.spoken, h, List.filterMap_append, ← Session.spoken]
  simp [speechOn?, hx]

theorem said_replies {s s' : Session M S} {x : Sender} {e : Envelope}
    (h : s'.said = s.said ++ [(x, e)]) (id : Int32) :
    s'.replies id = s.replies id ++ (e.reply? id).toList := by
  unfold Session.replies Session.sent
  rw [h, List.map_append, List.map_singleton, filterMap_concat]

theorem sendServed_said {i : ServedStreamId} {x : ServedStream S}
    (found : m.session.servedStreams[i]? = some x) (content : Content) :
    (m.sendServed i content).session.said =
      m.session.said ++ [(.served i, .response ⟨x.id, content⟩)] := by
  rw [sendServed_eq found]
  exact said_beginSend _ _ _

theorem closeByHandler?_said {i : ServedStreamId} {x : ServedStream S}
    (found : m.session.servedStreams[i]? = some x) (h : m.closeByHandler? i = some m') :
    m'.session.said = m.session.said ++ [(.served i, .response ⟨x.id, .close true⟩)] := by
  obtain ⟨y, hy, _, rfl⟩ := closeByHandler?_eq_some h
  cases hy.symm.trans found
  exact said_beginSend _ _ _

/-- The return of a handler is announced, unless it closed its stream itself and all went well. -/
theorem finishServed_said {i : ServedStreamId} {x : ServedStream S}
    (found : m.session.servedStreams[i]? = some x) (result : Except Failure Unit) :
    (m.finishServed i result).session.said = m.session.said ∧ result = .ok () ∧
        x.closeSent = true ∨
      (m.finishServed i result).session.said =
        m.session.said ++ [(.completion i, .response ⟨x.id, completion result⟩)] := by
  rw [finishServed_eq found]
  split
  · next hClosed =>
      obtain ⟨hOk, hMark⟩ := Bool.and_eq_true_iff.mp hClosed
      refine .inl ⟨retire_said m i x result, ?_, hMark⟩
      cases result with
      | ok _ => rfl
      | error e => cases hOk
  · rw [← retire_said m i x result]
    exact .inr (said_beginSend _ _ _)

/-- A handler that returns was running, and its stream keeps what it has returned. -/
theorem step?_finishServed {i : ServedStreamId} {value : Except Failure Unit}
    (h : m.step? (.finishServed i value) = some m') :
    ∃ x y, m.session.servedStreams[i]? = some x ∧ x.result = none ∧ m' = m.finishServed i value ∧
      m'.session.servedStreams[i]? = some y ∧ y.result = some value := by
  have hGrows := step?_grows h
  obtain ⟨x, found, hRunning, rfl⟩ := step?_finishServed_eq_some h
  obtain ⟨y, found', _⟩ := hGrows.servedStreams i x found
  refine ⟨x, y, found, hRunning, rfl, found', ?_⟩
  obtain ⟨_, _, _, hStreams⟩ := finishServed_effect found value
  rw [hStreams] at found'
  obtain ⟨z, _, rfl⟩ := Option.map_eq_some_iff.mp found'
  simp

/-- An envelope that is handled is not answered at once. -/
theorem step?_receive_said {e : Envelope} (h : m.step? (.receive e) = some m') :
    m'.session.said = m.session.said := by
  obtain ⟨begun, hSaid, rfl | ⟨_, _, cause, _⟩, _⟩ := step?_flow h
  · rw [hSaid, List.append_nil]
  · cases cause

/-- What a handler has returned stays with its stream. -/
theorem Life.returned {start : Session M S} (life : Life start past s) {q : Machine M S}
    {i : ServedStreamId} {value : Except Failure Unit} (h : (q, .finishServed i value) ∈ past) :
    ∃ x, s.servedStreams[i]? = some x ∧ x.result = some value := by
  induction life with
  | refl => cases h
  | step prior last ih =>
      rcases List.mem_append.mp h with h | h
      · obtain ⟨x, found, hResult⟩ := ih h
        obtain ⟨y, hy, hKeeps⟩ := (step?_grows last).servedStreams i x found
        exact ⟨y, hy, hKeeps.result value hResult⟩
      · obtain ⟨rfl, rfl⟩ := Prod.mk.inj (List.mem_singleton.mp h)
        obtain ⟨_, y, _, _, _, hy, hResult⟩ := step?_finishServed last
        exact ⟨y, hy, hResult⟩

/-- Nothing is said on a stream that is yet to be opened. -/
theorem Life.unspoken {start : Session M S} (hStart : start.said = []) (life : Life start past s)
    {i : ServedStreamId} (hNone : s.servedStreams[i]? = none) :
    s.spoken i = [] ∧ past.sentBack i = [] := by
  refine ⟨List.filterMap_eq_nil_iff.mpr ?_, List.filterMap_eq_nil_iff.mpr ?_⟩
  · rintro ⟨x, e⟩ hSaid
    refine if_neg fun hSpeaker => ?_
    cases life.explained hStart x e hSaid with
    | served _ found speaker =>
        cases speaker.symm.trans hSpeaker
        cases found.symm.trans hNone
    | call | message | close | bye | refusal | run => cases hSpeaker
  · rintro ⟨q, b⟩ hMem
    cases b with
    | sendServed j payload =>
        refine if_neg fun h => ?_
        obtain ⟨x, found, _⟩ := isServing_iff.mp h.2
        obtain ⟨y, hy, _⟩ := (life.grows_since hMem).servedStreams i x found
        cases hy.symm.trans hNone
    | _ => rfl

end Machine

end PeerLink
