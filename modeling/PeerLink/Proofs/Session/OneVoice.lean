import PeerLink.Proofs.Session.LastResponse
import PeerLink.Proofs.Session.Routing

/-! Responses with one id. They do not say which stream they belong to, and several streams may have been
served with the id. What the first one says last ends everything for its client. So if that gets into the
queue before any response of another one, then the responses with the id mean what those of the first stream
mean (`OneVoice`). This is so if the id is opened again only when nothing that was said on the first stream
waits any more (`Life.unrivalled`). -/
namespace PeerLink

variable {M S : Type}

/-- The remote peer uses the id for one stream and for no call. -/
structure Orderly (heard : List Envelope) (id : Int32) : Prop where
  method : Machine.SameMethod heard id
  noCall : ∀ r, .request r ∈ heard → r.id = id → r.isStream = true

namespace Machine

variable {m m' : Machine M S} {a : Action} {past : History M S} {s : Session M S}

/-! ### Who says something with an id -/

/-- Every run was started by a request that was handled. -/
theorem Life.run_heard {start : Session M S} (hStart : start.runs = []) (life : Life start past s)
    {x : Run M} (hx : x ∈ s.runs) : .request x.request ∈ History.heard past := by
  have hStarted : (x.request, x.handler) ∈ s.runs.map fun x => (x.request, x.handler) :=
    List.mem_map_of_mem hx
  rw [life.runs hStart] at hStarted
  obtain ⟨e, hHeard, he⟩ := List.mem_filterMap.mp hStarted
  obtain ⟨r, hUnary, hMethod⟩ := Option.bind_eq_some_iff.mp he
  obtain ⟨method, _, hPair⟩ := Option.map_eq_some_iff.mp hMethod
  obtain ⟨rfl, _⟩ := Prod.mk.inj hPair
  cases e with
  | request r' =>
      simp only [Envelope.unary?] at hUnary
      split at hUnary
      · cases hUnary
      · cases hUnary
        exact hHeard
  | _ => cases hUnary

section

variable {registry : Registry M S} {callTimeout : Option Duration} {capacity : Nat}
  {lifetime : LifetimeId} {id : Int32}

/-- If the remote peer makes no call with an id, then a response with it is one of a stream that is
served, or says that there is no such stream. -/
theorem Life.reply_cause
    (life : Life (Session.new registry callTimeout capacity lifetime) past s)
    (hCalls : ∀ r, .request r ∈ History.heard past → r.id = id → r.isStream = true) {x : Sender}
    {content : Content} (hSaid : (x, .response ⟨id, content⟩) ∈ s.said) :
    (∃ j z, x.stream? = some j ∧ s.servedStreams[j]? = some z ∧ z.id = id) ∨
      ∃ r, .request r ∈ History.heard past ∧ r.isStream = true ∧ r.id = id ∧
        s.registry.stream? r.method = none ∧ content = .error (.streamNotFound r.method) := by
  have hExplained := life.explained rfl x _ hSaid
  generalize hResponse : Response.mk id content = response at hExplained
  cases hExplained with
  | served _ found speaker => exact .inl ⟨_, _, speaker, found, (Response.mk.inj hResponse).1.symm⟩
  | run found _ =>
      have hStream := hCalls _ (life.run_heard rfl (List.mem_of_getElem? found))
        (Response.mk.inj hResponse).1.symm
      cases hStream
  | refusal found =>
      obtain ⟨r, hHeard, hId, hCause⟩ := life.refusals rfl _ (List.mem_of_getElem? found)
      rw [← hResponse] at hId hCause
      obtain ⟨hStream, hMethod, hContent⟩ | ⟨hUnary, _⟩ := hCause
      · exact .inr ⟨r, hHeard, hStream, hId.symm, hMethod, hContent⟩
      · rw [hCalls r hHeard hId.symm] at hUnary
        cases hUnary

/-- Once a stream is served with an id, only streams speak with it. -/
theorem Life.speaker (life : Life (Session.new registry callTimeout capacity lifetime) past s)
    {i : ServedStreamId} {y : ServedStream S} (found : s.servedStreams[i]? = some y)
    (hOrderly : Orderly (History.heard past) y.id) {x : Sender} {content : Content}
    (hSaid : (x, .response ⟨y.id, content⟩) ∈ s.said) :
    ∃ j z, x.stream? = some j ∧ s.servedStreams[j]? = some z ∧ z.id = y.id := by
  refine (life.reply_cause hOrderly.noCall hSaid).resolve_right ?_
  rintro ⟨r, hHeard, hStream, hId, hMethod, _⟩
  obtain ⟨r', hHeard', hStream', hId', hRegistered⟩ := life.served rfl i y found
  rw [hOrderly.method r' r hHeard' hHeard hStream' hStream hId' hId, hMethod] at hRegistered
  cases hRegistered

/-! ### One voice -/

/-- The responses with an id are those of one stream, at least until it has said the last one. -/
inductive OneVoice (replies spoken : List Content) : Prop where
  | alone (same : replies = spoken)
  | ended (head : List Content) (last : ∃ content ∈ head, content.isLast = true)
      (replies : head <+: replies) (spoken : head <+: spoken)

theorem OneVoice.both {replies spoken : List Content} (h : OneVoice replies spoken)
    (later : List Content) : OneVoice (replies ++ later) (spoken ++ later) := by
  cases h with
  | alone same => exact .alone (by rw [same])
  | ended head last hReplies hSpoken =>
      exact .ended head last (hReplies.trans (List.prefix_append _ _))
        (hSpoken.trans (List.prefix_append _ _))

theorem OneVoice.other {replies spoken : List Content} (h : OneVoice replies spoken)
    (ended : ∃ content ∈ spoken, content.isLast = true) (later : List Content) :
    OneVoice (replies ++ later) spoken := by
  cases h with
  | alone same => exact .ended spoken ended (same ▸ List.prefix_append _ _) (List.prefix_refl _)
  | ended head last hReplies hSpoken =>
      exact .ended head last (hReplies.trans (List.prefix_append _ _)) hSpoken

theorem OneVoice.messagesOf_eq {replies spoken : List Content} (h : OneVoice replies spoken) :
    messagesOf replies = messagesOf spoken := by
  cases h with
  | alone same => rw [same]
  | ended head last hReplies hSpoken =>
      obtain ⟨rest, rfl⟩ := hReplies
      obtain ⟨rest', rfl⟩ := hSpoken
      rw [messagesOf_append_of_last last, messagesOf_append_of_last last]

/-- Before anybody else says a response with the id, the stream says its last one. -/
def Unrivalled (i : ServedStreamId) (id : Int32) (words : List (Sender × Envelope)) : Prop :=
  ∀ before y after, words = before ++ y :: after → (y.2.reply? id).isSome → y.1.stream? ≠ some i →
    ∃ content ∈ before.filterMap (speechOn? i), content.isLast = true

/-- Then all that is said with the id means what the stream says. -/
theorem Unrivalled.oneVoice {i : ServedStreamId} {words : List (Sender × Envelope)}
    (h : Unrivalled i id words)
    (hOwn : ∀ y ∈ words, y.1.stream? = some i → y.2.reply? id = y.2.content?) :
    OneVoice (words.filterMap fun y => y.2.reply? id) (words.filterMap (speechOn? i)) := by
  induction words using List.reverseRecOn with
  | nil => exact .alone rfl
  | append_singleton words y ih =>
      have hBefore : OneVoice _ _ := ih
        (fun before z after hSplit => h before z (after ++ [y]) (by rw [hSplit]; simp))
        fun z hz => hOwn z (List.mem_append_left _ hz)
      rw [filterMap_concat, filterMap_concat]
      by_cases hSpeaker : y.1.stream? = some i
      · rw [hOwn y (List.mem_append_right _ (List.mem_singleton.mpr rfl)) hSpeaker, speechOn?,
          if_pos hSpeaker]
        exact hBefore.both _
      · rw [speechOn?, if_neg hSpeaker, Option.toList_none, List.append_nil]
        cases hReply : y.2.reply? id with
        | none => simpa using hBefore
        | some content => exact hBefore.other (h words y [] rfl (by rw [hReply]; rfl) hSpeaker) _

theorem Life.reply_content (life : Life (Session.new registry callTimeout capacity lifetime) past s)
    {i : ServedStreamId} {y : ServedStream S} (found : s.servedStreams[i]? = some y)
    {z : Sender × Envelope} (hSaid : z ∈ s.said) (hSpeaker : z.1.stream? = some i) :
    z.2.reply? y.id = z.2.content? := by
  obtain ⟨sender, e⟩ := z
  cases life.explained rfl sender e hSaid with
  | served content found' speaker =>
      cases speaker.symm.trans hSpeaker
      cases found'.symm.trans found
      exact if_pos rfl
  | call | message | close | bye | refusal | run => cases hSpeaker

/-! ### Streams that are opened when the one before is through -/

/-- A message of a stream finds that its id is free. -/
def reopens (m : Machine M S) (a : Action) (id : Int32) : Bool :=
  match a with
  | .receive (.request r) => r.isStream && r.id = id && (m.session.openStreams.get? id).isNone
  | _ => false

/-- Whenever a message finds the id of the stream free, its handler has returned, and nothing that was said
on the stream waits any more. -/
def History.ReopensIdle (past : History M S) (i : ServedStreamId) (id : Int32) : Prop :=
  ∀ e ∈ past, e.1.reopens e.2 id = true → ∀ x ∈ e.1.session.servedStreams[i]?, x.result.isSome = true ∧
    ∀ t ∈ e.1.session.outbound.tickets, e.1.session.picks (fun y => y.1.stream? = some i) t = false

instance (past : History M S) (i : ServedStreamId) (id : Int32) : Decidable (past.ReopensIdle i id) :=
  inferInstanceAs (Decidable (∀ e ∈ past, _ → _))

/-- Of what is said on a stream, nobody but its handler gives up anything. -/
theorem Life.speech_kept (life : Life (Session.new registry callTimeout capacity lifetime) past s)
    {i : ServedStreamId} (hPatient : s.Patient (.served i)) {z : Send} (hz : z ∈ s.sends)
    (hSpeaker : z.sender.stream? = some i) : z.state ≠ .givenUp := by
  intro hState
  cases hSender : z.sender with
  | served j =>
      rw [hSender] at hSpeaker
      cases hSpeaker
      exact hPatient z hz hSender hState
  | completion j =>
      obtain hCan | ⟨c, hCall⟩ := life.patientTasks z hz hState
      · rw [hSender] at hCan
        cases hCan
      · cases hSender.symm.trans hCall
  | _ =>
      rw [hSender] at hSpeaker
      cases hSpeaker

theorem Life.spares_back (life : Life (Session.new registry callTimeout capacity lifetime) past s)
    {i : ServedStreamId} (hPatient : s.Patient (.served i)) :
    s.Spares fun y => (payloadBack? i y).isSome := by
  intro z hz hState
  by_contra hPicked
  obtain ⟨payload, hPayload⟩ := Option.isSome_iff_exists.mp (Bool.not_eq_false _ ▸ hPicked)
  obtain ⟨content, hSpeech, _⟩ := Option.bind_eq_some_iff.mp hPayload
  exact life.speech_kept hPatient hz (speechOn?_eq_some.mp hSpeech).1 hState

/-- When the handler has returned and nothing that was said on the stream waits any more, its last response
has got into the queue, or nobody takes envelopes. -/
theorem Life.last_queued (life : Life (Session.new registry callTimeout capacity lifetime) past s)
    {i : ServedStreamId} {x : ServedStream S} (found : s.servedStreams[i]? = some x)
    (hPatient : s.Patient (.served i)) (hReturned : x.result.isSome = true)
    (hIdle : ∀ t ∈ s.outbound.tickets, s.picks (fun y => y.1.stream? = some i) t = false)
    (hLive : s.outbound.abandoned = false) :
    ∃ content ∈ past.queuedOn s i, content.isLast = true := by
  have hFinal := life.final found
  have hEnds : x.ending ≠ [] := by
    obtain ⟨value, hResult⟩ := Option.isSome_iff_exists.mp hReturned
    cases value with
    | ok _ => simp [ServedStream.ending, hFinal.closeSent.mpr (.inr hResult)]
    | error _ => simp [ServedStream.ending, hResult]
  obtain ⟨content, hEnding⟩ := List.exists_mem_of_ne_nil _ hEnds
  obtain ⟨hSpoken, hLast⟩ := List.mem_filter.mp (hFinal.terminal.symm.subset hEnding)
  obtain ⟨y, hSaid, hSpeech⟩ := List.mem_filterMap.mp hSpoken
  obtain ⟨z, hz, rfl⟩ := List.mem_map.mp hSaid
  have hSpeaker := (speechOn?_eq_some.mp hSpeech).1
  obtain ⟨t, hTicket⟩ := List.mem_iff_getElem?.mp hz
  have hSaidAt : s.said[t]? = some (z.sender, z.envelope) := Session.said_of_sends hTicket
  refine ⟨content, List.mem_filterMap.mpr ⟨_, List.mem_filterMap.mpr ⟨t, ?_, hSaidAt⟩, hSpeech⟩, hLast⟩
  refine life.entered_of_idle (fun hWaits => ?_) hLive hTicket (life.speech_kept hPatient hz hSpeaker)
  have hNot := hIdle t hWaits
  rw [Session.picks, hSaidAt, Option.any_some, decide_eq_false_iff_not] at hNot
  exact hNot hSpeaker

/-- Once nobody takes envelopes, none gets into the queue. -/
theorem Life.entered_abandoned {start : Session M S} (life : Life start past s)
    (hGone : start.outbound.abandoned = true) :
    History.entered past = [] ∧ s.outbound.abandoned = true := by
  induction life with
  | refl => exact ⟨rfl, hGone⟩
  | @step past s host a m' _ last ih =>
      refine ⟨?_, step?_abandoned_of_abandoned (m := ⟨host, s⟩) ih.2 last⟩
      rw [History.entered_append, ih.1, List.nil_append, List.eq_nil_iff_forall_not_mem]
      intro y hy
      exact Bool.false_ne_true ((mem_entered_now hy).2.symm.trans ih.2)

/-- Nobody has spoken for a stream before it was opened. -/
theorem Life.speaker_found {start : Session M S} (hStart : start.said = []) (life : Life start past s)
    {y : Sender × Envelope} (hSaid : y ∈ s.said) {j : ServedStreamId} (hSpeaker : y.1.stream? = some j) :
    j < s.servedStreams.length := by
  obtain ⟨sender, e⟩ := y
  cases life.explained hStart sender e hSaid with
  | served content found speaker =>
      cases speaker.symm.trans hSpeaker
      exact (List.getElem?_eq_some_iff.mp found).1
  | call | message | close | bye | refusal | run => cases hSpeaker

/-- Somebody else who speaks with the id of the first stream does so for a stream that a message has opened
when the id was free, and had said nothing by then. -/
theorem Life.rival_opened (life : Life (Session.new registry callTimeout capacity lifetime) past s)
    {i : ServedStreamId} {y : ServedStream S} (hFirst : s.ServedFirst i y)
    (hOrderly : Orderly (History.heard past) y.id) {w : Sender} {content : Content}
    (hSaid : (w, .response ⟨y.id, content⟩) ∈ s.said) (hOther : w.stream? ≠ some i) :
    ∃ (early : History M S) (q : Machine M S) (a : Action) (later : History M S) (x : ServedStream S),
      past = early ++ (q, a) :: later ∧
        Life (Session.new registry callTimeout capacity lifetime) early q.session ∧
        Life q.session ((q, a) :: later) s ∧ q.reopens a y.id = true ∧
        q.session.servedStreams[i]? = some x ∧ ∀ e, (w, e) ∉ q.session.said := by
  obtain ⟨j, z, hSpeaker, hz, hId⟩ := life.speaker hFirst.found hOrderly hSaid
  have hLater : i < j := Nat.lt_of_le_of_ne (hFirst.first j z hz hId) fun hSame =>
    hOther (hSame ▸ hSpeaker)
  obtain ⟨r, later, hOpened, _⟩ := life.routed hz
  obtain ⟨⟨early, q, rfl, hFree, hLength⟩, hStream, hRequest⟩ := hOpened
  obtain ⟨prior, q', hStep, rest⟩ := life.split
  have hFound := List.getElem?_eq_getElem (hLength ▸ hLater : i < q.session.servedStreams.length)
  refine ⟨early, q, _, later, _, rfl, prior, (Life.step .refl hStep).append rest, ?_, hFound, fun e hMem => ?_⟩
  · rw [← hId, ← hRequest]
    simp [reopens, hStream, hFree]
  · exact absurd (prior.speaker_found rfl hMem hSpeaker) (hLength ▸ Nat.lt_irrefl _)

/-- What comes before an element that is not in the first part of a list covers all of this part. -/
theorem prefix_of_append_eq {α : Type} {l l' before after : List α} {x : α}
    (h : l ++ l' = before ++ x :: after) (hNot : x ∉ l) : l <+: before := by
  have hFirst : l <+: before ++ x :: after := h ▸ List.prefix_append l l'
  have hUpTo : before ++ [x] <+: before ++ x :: after := ⟨after, List.append_cons _ _ _ |>.symm⟩
  have hx : x ∈ before ++ [x] := List.mem_append_right _ (List.mem_singleton.mpr rfl)
  obtain hShort | hLong := List.prefix_or_prefix_of_prefix hFirst hUpTo
  · exact (List.prefix_concat_iff.mp hShort).resolve_left fun hSame => hNot (hSame ▸ hx)
  · exact absurd (hLong.subset hx) hNot

/-- If the id of the first stream is opened again only when that is through, then it has no rivals. -/
theorem Life.unrivalled (life : Life (Session.new registry callTimeout capacity lifetime) past s)
    {i : ServedStreamId} {y : ServedStream S} (hFirst : s.ServedFirst i y)
    (hOrderly : Orderly (History.heard past) y.id) (hPatient : s.Patient (.served i))
    (hReopens : past.ReopensIdle i y.id) : Unrivalled i y.id (past.accepted s) := by
  intro before z after hSplit hReply hOther
  obtain ⟨w, e⟩ := z
  obtain ⟨content, hReply⟩ := Option.isSome_iff_exists.mp hReply
  obtain rfl := Envelope.reply?_eq_some hReply
  have hRival : (w, .response ⟨y.id, content⟩) ∈ past.accepted s := by
    rw [hSplit]
    exact List.mem_append_right _ List.mem_cons_self
  obtain ⟨early, q, a, later, x, rfl, prior, since, hReopened, hx, hSilent⟩ :=
    life.rival_opened hFirst hOrderly (life.queueing.accepted_subperm.subset hRival) hOther
  obtain ⟨hReturned, hIdle⟩ := hReopens _ (List.mem_append_right _ List.mem_cons_self) hReopened x hx
  have hUnqueued : (w, .response ⟨y.id, content⟩) ∉ early.accepted q.session := fun hMem =>
    hSilent _ (prior.queueing.accepted_subperm.subset hMem)
  rw [prior.queueing.accepted_append since.grows] at hSplit hRival
  have hLive : q.session.outbound.abandoned = false := by
    by_contra hGone
    have hQueued := (List.mem_append.mp hRival).resolve_left hUnqueued
    rw [History.accepted, (since.entered_abandoned (Bool.not_eq_false _ ▸ hGone)).1] at hQueued
    cases hQueued
  have hKept := since.patient_before (prior.tracked (tracked_new registry callTimeout capacity lifetime))
    hPatient
  obtain ⟨last, hQueued, hLast⟩ := prior.last_queued hx hKept hReturned hIdle hLive
  exact ⟨last, ((prefix_of_append_eq hSplit hUnqueued).filterMap _).subset hQueued, hLast⟩

/-! ### When the failure of a handler gets in -/

/-- The handler of the stream returns. -/
def Action.returns (i : ServedStreamId) : Action → Bool
  | .finishServed j _ => j = i
  | _ => false

/-- The handle of the stream does not outlive the handler, and neither does a send on it. -/
def History.Confined (past : History M S) (i : ServedStreamId) : Prop :=
  past.Scoped i ∧ ∀ e ∈ past, e.2.returns i = true → e.1.isIdle i = true

instance (past : History M S) (i : ServedStreamId) : Decidable (past.Confined i) :=
  inferInstanceAs (Decidable (past.Scoped i ∧ ∀ e ∈ past, _ → _))

theorem Says.payloadBack {x : Sender} {e : Envelope} {i : ServedStreamId} (cause : m.Says a x e)
    (hSend : ∀ payload, a ≠ .sendServed i payload) : payloadBack? i (x, e) = none := by
  refine Option.bind_eq_none_iff.mpr fun content hSpeech => ?_
  obtain ⟨hSpeaker, hContent⟩ := speechOn?_eq_some.mp hSpeech
  cases cause with
  | sendServed payload _ =>
      cases hSpeaker
      exact absurd rfl (hSend payload)
  | readyServed | closeServed =>
      cases hContent
      rfl
  | finishServed value _ =>
      cases hContent
      cases value <;> rfl
  | call | sendClient | closeClient | bye | refusal | run => cases hSpeaker

/-- A handler that keeps its handle to itself has sent what its stream says. -/
theorem Life.payloadsBack {start : Session M S} (hStart : start.said = []) (life : Life start past s)
    {i : ServedStreamId} (hScoped : past.Scoped i) :
    s.said.filterMap (payloadBack? i) = past.sentBack i := by
  induction life with
  | refl =>
      rw [hStart]
      rfl
  | @step past s host a m' prior last ih =>
      rw [History.sentBack_concat, ← ih hScoped.before]
      by_cases hSend : ∃ payload, a = .sendServed i payload
      · obtain ⟨payload, rfl⟩ := hSend
        have hSpeaks := hScoped _ (List.mem_append_right _ (List.mem_singleton.mpr rfl))
          (by simp [Action.speaks])
        obtain ⟨x, found, he⟩ | ⟨hNone, he⟩ := sendServed_cases ⟨host, s⟩ i (.payload payload)
        · have hServing : isServing ⟨host, s⟩ i = true := isServing_iff.mpr ⟨x, found, hSpeaks x found⟩
          have hSaid := sendServed_said found (.payload payload)
          cases last
          rw [hSaid, filterMap_concat]
          simp [History.sentBack, hServing, payloadBack?, speechOn?, Sender.stream?, Envelope.content?,
            Content.payload?]
        · have hNot : isServing ⟨host, s⟩ i = false := Bool.eq_false_iff.mpr fun hServing => by
            obtain ⟨x, found, _⟩ := isServing_iff.mp hServing
            cases found.symm.trans hNone
          cases last
          rw [he]
          simp [History.sentBack, hNot]
      · have hOther := not_exists.mp hSend
        have hNone : History.sentBack [((⟨host, s⟩ : Machine M S), a)] i = [] := by
          cases a with
          | sendServed j payload =>
              have hj : j ≠ i := fun he => hOther payload (by rw [he])
              simp [History.sentBack, hj]
          | _ => rfl
        rw [hNone, List.append_nil]
        obtain ⟨begun, hSaid, rfl | ⟨x, e, cause, rfl⟩, _⟩ := step?_flow last
        · rw [hSaid, List.append_nil]
        · rw [hSaid, filterMap_concat, cause.payloadBack hOther, Option.toList_none, List.append_nil]

/-- After its handler has returned, nobody speaks on the stream any more. -/
theorem Life.completion_last (life : Life (Session.new registry callTimeout capacity lifetime) past s)
    {i : ServedStreamId} (hScoped : past.Scoped i) :
    s.said.Pairwise fun y z => y.1 = .completion i → z.1 ≠ .served i := by
  induction life with
  | refl => exact List.Pairwise.nil
  | @step past s host a m' prior last ih =>
      obtain ⟨begun, hSaid, rfl | ⟨x, e, cause, rfl⟩, _⟩ := step?_flow last
      · rw [hSaid, List.append_nil]
        exact ih hScoped.before
      · rw [hSaid]
        refine List.pairwise_append.mpr
          ⟨ih hScoped.before, List.pairwise_singleton _ _, fun y hy z hz hCompletion hServed => ?_⟩
        obtain ⟨sender, e'⟩ := y
        obtain rfl : sender = .completion i := hCompletion
        obtain ⟨w, value, found, hResult, _⟩ := prior.completion_said.2 e' hy
        rw [List.mem_singleton.mp hz] at hServed
        obtain rfl : x = .served i := hServed
        have hSpeaks : a.speaks i = true := by
          cases cause <;> simp [Action.speaks]
        have hRunning := hScoped _ (List.mem_append_right _ (List.mem_singleton.mpr rfl)) hSpeaks w found
        rw [hRunning] at hResult
        cases hResult

section

variable {i : ServedStreamId} {y : ServedStream S} {t u : Ticket} {e e' : Envelope}

/-- What the handler said on its stream was said before it returned, and did not wait any more by then. -/
theorem Life.served_before (life : Life (Session.new registry callTimeout capacity lifetime) past s)
    (hConfined : past.Confined i) (ht : s.said[t]? = some (.served i, e))
    (hu : s.said[u]? = some (.completion i, e')) : t < u ∧ ¬ past.Overlap t u := by
  have hOrder := life.completion_last hConfined.1
  rw [List.pairwise_iff_getElem] at hOrder
  obtain ⟨hT, hServed⟩ := List.getElem?_eq_some_iff.mp ht
  obtain ⟨hU, hCompletion⟩ := List.getElem?_eq_some_iff.mp hu
  refine ⟨Nat.lt_of_not_le fun hLe => ?_, fun hOverlap => ?_⟩
  · rcases Nat.lt_or_eq_of_le hLe with hLt | rfl
    · exact hOrder u t hU hT hLt (by rw [hCompletion]) (by rw [hServed])
    · cases ht.symm.trans hu
  · obtain ⟨_, q, a, x, f, z, _, hMem, _, cause, hu', hUnderWay, hz, ht', _⟩ := life.overlap hOverlap
    cases hu.symm.trans hu'
    cases ht.symm.trans ht'
    have hReturns : a.returns i = true := by
      cases cause
      simp [Action.returns]
    exact not_served_of_isIdle (hConfined.2 _ hMem hReturns) hUnderWay hz

/-- A payload on a stream is said by its handler. -/
theorem Life.payload_speaker (life : Life (Session.new registry callTimeout capacity lifetime) past s)
    {z : Sender × Envelope} (hSaid : z ∈ s.said) (hPayload : (payloadBack? i z).isSome) :
    z.1 = .served i := by
  obtain ⟨sender, e⟩ := z
  obtain ⟨payload, hPayload⟩ := Option.isSome_iff_exists.mp hPayload
  obtain ⟨content, hSpeech, hPayload⟩ := Option.bind_eq_some_iff.mp hPayload
  obtain ⟨hSpeaker, hContent⟩ := speechOn?_eq_some.mp hSpeech
  cases sender with
  | served j =>
      cases hSpeaker
      rfl
  | completion j =>
      cases hSpeaker
      obtain ⟨_, value, _, _, hValue⟩ := life.completion_said.2 e hSaid
      cases hValue.symm.trans hContent
      cases value <;> cases hPayload
  | _ => cases hSpeaker

/-- When the last word of the handler is in the queue, so is everything that it sent. -/
theorem Life.acceptedBack_perm (life : Life (Session.new registry callTimeout capacity lifetime) past s)
    (hPatient : s.Patient (.served i)) (hConfined : past.Confined i)
    (hu : s.said[u]? = some (.completion i, e')) (hEntered : u ∈ (History.entered past).map Prod.fst) :
    (past.acceptedBack s i).Perm (past.sentBack i) := by
  rw [← life.payloadsBack rfl hConfined.1]
  refine life.queueing.accepted_perm fun t w ht hPayload => ?_
  obtain ⟨sender, e⟩ := w
  obtain rfl := life.payload_speaker (List.mem_of_getElem? ht) hPayload
  obtain ⟨hLt, hApart⟩ := life.served_before hConfined ht hu
  obtain hOverlap | hIn | ⟨w, hw, hState⟩ := life.entered_before hLt hEntered
  · exact absurd hOverlap hApart
  · exact hIn
  · have hSaid := Option.some.inj ((Session.said_of_sends hw).symm.trans ht)
    exact absurd hState (hPatient w (List.mem_of_getElem? hw) (Prod.mk.inj hSaid).1)

/-- And nothing that it sent gets in behind it. -/
theorem Life.silent_behind (life : Life (Session.new registry callTimeout capacity lifetime) past s)
    (hConfined : past.Confined i) (hu : s.said[u]? = some (.completion i, e')) {after : List Ticket}
    (hAfter : ∀ t ∈ after, u < t ∨ past.Overlap t u) :
    after.filterMap (fun t => (s.said[t]?.bind (speechOn? i)).bind Content.payload?) = [] := by
  refine List.filterMap_eq_nil_iff.mpr fun t ht => Option.eq_none_iff_forall_ne_some.mpr ?_
  intro payload hPayload
  obtain ⟨content, hSpeech, hPayload⟩ := Option.bind_eq_some_iff.mp hPayload
  obtain ⟨⟨sender, e⟩, hw, hSpeech⟩ := Option.bind_eq_some_iff.mp hSpeech
  obtain rfl := life.payload_speaker (i := i) (List.mem_of_getElem? hw)
    (by rw [payloadBack?, hSpeech, Option.bind_some, hPayload]; rfl)
  obtain ⟨hLt, hApart⟩ := life.served_before hConfined hw hu
  exact (hAfter t ht).elim (Nat.lt_asymm hLt) hApart

/-- The error of a stream in the queue is what its handler has returned. Everything that the handler sent is
in the queue before it. -/
theorem Life.failure_queued (life : Life (Session.new registry callTimeout capacity lifetime) past s)
    (found : s.servedStreams[i]? = some y) (hPatient : s.Patient (.served i)) (hConfined : past.Confined i)
    {front rest : List Content} {error : RemoteError}
    (hQueued : past.queuedOn s i = front ++ .error error :: rest) :
    (∃ failure, y.result = some (.error failure) ∧ error = failure.toRemote) ∧
      front.filterMap Content.payload? = past.acceptedBack s i ∧
      (past.acceptedBack s i).Perm (past.sentBack i) := by
  have hAccepted := hQueued
  rw [History.queuedOn, past.accepted_filterMap, List.filterMap_eq_append_iff] at hAccepted
  obtain ⟨before, tickets, hTickets, hFront, hTail⟩ := hAccepted
  obtain ⟨silent, u, after, rfl, hSilent, hError, hRest⟩ := List.filterMap_eq_cons_iff.mp hTail
  obtain ⟨⟨sender, e⟩, hu, hSpeech⟩ := Option.bind_eq_some_iff.mp hError
  obtain ⟨hSpeaker, hContent⟩ := speechOn?_eq_some.mp hSpeech
  have hSaid := List.mem_of_getElem? hu
  obtain rfl := life.completion_said.1 sender e error hSaid hSpeaker hContent
  obtain ⟨z, value, hz, hResult, hValue⟩ := life.completion_said.2 e hSaid
  cases hz.symm.trans found
  have hEntered : u ∈ (History.entered past).map Prod.fst := by
    rw [hTickets]
    exact List.mem_append_right _ (List.mem_append_right _ List.mem_cons_self)
  have hOrder := life.entered_order
  rw [hTickets, List.pairwise_append, List.pairwise_append, List.pairwise_cons] at hOrder
  obtain ⟨_, ⟨_, ⟨hAfter, _⟩, _⟩, _⟩ := hOrder
  refine ⟨?_, ?_, life.acceptedBack_perm hPatient hConfined hu hEntered⟩
  · have hSame : completion value = .error error := Option.some.inj (hValue.symm.trans hContent)
    cases value with
    | ok _ => cases hSame
    | error failure => exact ⟨failure, hResult, (Content.error.inj hSame).symm⟩
  · rw [← past.queuedOn_payloads, hQueued, List.filterMap_append, List.filterMap_cons, ← hRest,
      List.filterMap_filterMap, life.silent_behind hConfined hu hAfter]
    exact (List.append_nil _).symm

end

end

end Machine

end PeerLink
