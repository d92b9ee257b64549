import PeerLink.Proofs.Session.Receiving
import PeerLink.Proofs.Session.Speaking

/-! What a stream opened here puts into the queue. Its messages and its close are sent by whoever holds it,
in any number of sends that wait at the same time. Whether the stream is still open is looked at when a send
begins. So nothing gets in behind the close but what waited when the close was sent, and has been overtaken
by it. -/
namespace PeerLink

variable {M S : Type}

/-- The request with which a stream sends a message. -/
def ClientStream.message (x : ClientStream) (payload : Payload) : Envelope :=
  .request { id := x.id, method := x.method, payload, isStream := true }

/-- Some messages of the stream in the order in which they were sent, and behind them at most one close. -/
def ClientStream.Wording (x : ClientStream) (sent : List Payload) (words : List Envelope) : Prop :=
  ∃ payloads : List Payload, payloads.Sublist sent ∧
    (words = payloads.map x.message ∨ words = payloads.map x.message ++ [.streamClose x.id])

/-- Some messages of the stream and at most one close, in any order. -/
def ClientStream.Words (x : ClientStream) (sent : List Payload) (words : List Envelope) : Prop :=
  ∃ ordered, x.Wording sent ordered ∧ words.Perm ordered

/-- The envelope carries an id that this side has given out. The id of a response is one that the remote
peer has. -/
def Envelope.addresses (id : Int32) : Envelope → Bool
  | .request r => r.id = id
  | .streamClose i => i = id
  | _ => false

namespace ClientStream

theorem Wording.of_sublist {x : ClientStream} {sent : List Payload} {words words' : List Envelope}
    (h : x.Wording sent words) (hSub : words'.Sublist words) : x.Wording sent words' := by
  obtain ⟨payloads, hSent, rfl | rfl⟩ := h
  · obtain ⟨fewer, hFewer, rfl⟩ := List.sublist_map_iff.mp hSub
    exact ⟨fewer, hFewer.trans hSent, .inl rfl⟩
  · obtain ⟨messages, close, rfl, hMessages, hClose⟩ := List.sublist_append_iff.mp hSub
    obtain ⟨fewer, hFewer, rfl⟩ := List.sublist_map_iff.mp hMessages
    rcases List.sublist_singleton.mp hClose with rfl | rfl
    · exact ⟨fewer, hFewer.trans hSent, .inl (List.append_nil _)⟩
    · exact ⟨fewer, hFewer.trans hSent, .inr rfl⟩

theorem Keeps.message_eq {x y : ClientStream} (h : x.Keeps y) : y.message = x.message := by
  funext payload
  rw [message, message, h.id, h.method]

end ClientStream

namespace Machine

variable {m m' : Machine M S} {a : Action} {past : History M S} {c : ClientStreamId}

theorem Queueing.enteredBy_subperm {s : Session M S} (hQueue : Queueing past s) (x : Sender) :
    (past.enteredBy s x).Subperm (s.saidBy x) :=
  subperm_filterMap hQueue.accepted_subperm _

/-- Whoever waits for each of its sends finds its envelopes in the queue in the order in which it sent them. -/
theorem Life.enteredBy_sublist {registry : Registry M S} {callTimeout : Option Duration} {capacity : Nat}
    {lifetime : LifetimeId} {s : Session M S}
    (life : Life (Session.new registry callTimeout capacity lifetime) past s) {x : Sender}
    (hSerial : past.Serial s fun y => y.1 = x) : (past.enteredBy s x).Sublist (s.saidBy x) :=
  life.accepted_sublist hSerial fun _ hy => if_neg (of_decide_eq_false hy)

/-! ### What a stream says -/

/-- The stream has said some messages, and behind them its close if it was closed. -/
def Worded (x : ClientStream) (words : List Envelope) : Prop :=
  ∃ payloads : List Payload, words = payloads.map x.message ∨
    x.closeSent = true ∧ words = payloads.map x.message ++ [.streamClose x.id]

theorem Worded.keeps {x y : ClientStream} {words : List Envelope} (h : Worded x words)
    (hKeeps : x.Keeps y) : Worded y words := by
  obtain ⟨payloads, hOpen | ⟨hClosed, hWords⟩⟩ := h
  · exact ⟨payloads, .inl (by rw [hOpen, hKeeps.message_eq])⟩
  · exact ⟨payloads, .inr ⟨hKeeps.closeSent hClosed, by rw [hWords, hKeeps.message_eq, hKeeps.id]⟩⟩

theorem Worded.unclosed {x : ClientStream} {words : List Envelope} (h : Worded x words)
    (hUnclosed : x.closeSent = false) : ∃ payloads : List Payload, words = payloads.map x.message := by
  obtain ⟨payloads, hOpen | ⟨hClosed, _⟩⟩ := h
  · exact ⟨payloads, hOpen⟩
  · rw [hUnclosed] at hClosed
    cases hClosed

/-- Nothing was said on a stream that is yet to be opened. -/
theorem Life.saidBy_unopened {start s : Session M S} (hStart : start.said = [])
    (life : Life start past s) (hNone : s.clientStreams[c]? = none) : s.saidBy (.client c) = [] := by
  rw [Session.saidBy, List.filterMap_eq_nil_iff]
  rintro ⟨sender, e⟩ hMem
  refine if_neg ?_
  rintro rfl
  cases life.explained hStart _ e hMem with
  | message _ found =>
      rw [hNone] at found
      cases found
  | close found _ =>
      rw [hNone] at found
      cases found
  | served _ _ speaker => cases speaker

/-- A send of a stream begins with its message or its close, as long as it is not closed. -/
theorem Worded.said {x y : ClientStream} (hWorded : Worded x (m.session.saidBy (.client c)))
    (found : m.session.clientStreams[c]? = some x) (found' : m'.session.clientStreams[c]? = some y)
    (h : m.step? a = some m') : Worded y (m'.session.saidBy (.client c)) := by
  have hKeeps : x.Keeps y := (step?_grows h).clientStreams.rel found found'
  obtain ⟨begun, hSaid, rfl | ⟨sender, e, cause, rfl⟩, _⟩ := step?_flow h
  · rw [Session.saidBy, hSaid, List.append_nil]
    exact hWorded.keeps hKeeps
  · rw [saidBy_concat hSaid]
    split
    · next hSender =>
        subst hSender
        cases cause with
        | sendClient payload foundAgain unclosed _ =>
            cases found.symm.trans foundAgain
            obtain ⟨payloads, hWords⟩ := hWorded.unclosed unclosed
            refine ⟨payloads ++ [payload], .inl ?_⟩
            rw [hWords, hKeeps.message_eq, List.map_append]
            rfl
        | closeClient foundAgain unclosed =>
            cases found.symm.trans foundAgain
            obtain ⟨payloads, hWords⟩ := hWorded.unclosed unclosed
            have hClosed : y.closeSent = true := by
              have hExplained := (Says.closeClient found unclosed).explained h
              generalize x.id = id at hExplained
              cases hExplained with
              | close foundAgain closed =>
                  cases found'.symm.trans foundAgain
                  exact closed
            exact ⟨payloads, .inr ⟨hClosed, by rw [hWords, hKeeps.message_eq, hKeeps.id]⟩⟩
    · rw [List.append_nil]
      exact hWorded.keeps hKeeps

theorem Life.worded {start s : Session M S} (hStart : start.said = []) (hNone : start.clientStreams = [])
    (life : Life start past s) {x : ClientStream} (found : s.clientStreams[c]? = some x) :
    Worded x (s.saidBy (.client c)) := by
  induction life generalizing x with
  | refl =>
      rw [hNone] at found
      cases found
  | @step past s host a m' prior last ih =>
      cases hBefore : s.clientStreams[c]? with
      | some y => exact (ih hBefore).said (m := ⟨host, s⟩) hBefore found last
      | none =>
          refine ⟨[], .inl ?_⟩
          have hSilent := prior.saidBy_unopened hStart hBefore
          obtain ⟨begun, hSaid, rfl | ⟨sender, e, cause, rfl⟩, _⟩ := step?_flow last
          · rw [Session.saidBy, hSaid, List.append_nil]
            exact hSilent
          · rw [saidBy_concat hSaid, hSilent, if_neg]
            · rfl
            · rintro rfl
              cases cause with
              | sendClient _ found _ _ =>
                  rw [hBefore] at found
                  cases found
              | closeClient found _ =>
                  rw [hBefore] at found
                  cases found

/-- A stream says the messages that are sent on it, and at most one close behind them. -/
theorem Life.wording {start s : Session M S} (hStart : start.said = []) (hNone : start.clientStreams = [])
    (life : Life start past s) {x : ClientStream} (found : s.clientStreams[c]? = some x) :
    x.Wording (past.sentOn c) (s.saidBy (.client c)) := by
  have hSent : (s.saidBy (.client c)).filterMap Envelope.payload? = past.sentOn c := by
    rw [← life.payloads hStart c, Session.saidBy, List.filterMap_filterMap]
    congr 1
    funext y
    rw [payloadOn?]
    split <;> rfl
  obtain ⟨payloads, hWords | ⟨_, hWords⟩⟩ := life.worded hStart hNone found
  · have hSame : payloads = past.sentOn c := by
      rw [← hSent, hWords]
      simp [List.filterMap_map, Function.comp_def, ClientStream.message, Envelope.payload?]
    exact ⟨payloads, hSame ▸ List.Sublist.refl _, .inl hWords⟩
  · have hSame : payloads = past.sentOn c := by
      rw [← hSent, hWords]
      simp [List.filterMap_map, Function.comp_def, ClientStream.message, Envelope.payload?]
    exact ⟨payloads, hSame ▸ List.Sublist.refl _, .inr hWords⟩

/-- What a stream says behind its close is nothing. -/
theorem Life.closed_last {start s : Session M S} (hStart : start.said = [])
    (hNone : start.clientStreams = []) (life : Life start past s) {x : ClientStream}
    (found : s.clientStreams[c]? = some x) {t u : Ticket} {e : Envelope}
    (ht : s.said[t]? = some (.client c, .streamClose x.id)) (hu : s.said[u]? = some (.client c, e)) :
    u ≤ t := by
  have hWords : (s.saidBy (.client c)).Pairwise fun f _ => f ≠ .streamClose x.id := by
    obtain ⟨payloads, _, hWords | hWords⟩ := life.wording hStart hNone found
    · rw [hWords, List.pairwise_map]
      exact List.pairwise_of_forall fun _ _ => nofun
    · rw [hWords, List.pairwise_append, List.pairwise_map]
      refine ⟨List.pairwise_of_forall fun _ _ => nofun, List.pairwise_singleton _ _, fun f hf _ _ => ?_⟩
      obtain ⟨_, _, rfl⟩ := List.mem_map.mp hf
      nofun
  rw [Session.saidBy, List.pairwise_filterMap, List.pairwise_iff_getElem] at hWords
  by_contra hLt
  obtain ⟨hTLength, hT⟩ := List.getElem?_eq_some_iff.mp ht
  obtain ⟨hULength, hU⟩ := List.getElem?_eq_some_iff.mp hu
  exact hWords t u hTLength hULength (Nat.not_le.mp hLt) _ (by rw [hT, if_pos rfl]) e
    (by rw [hU, if_pos rfl]) rfl

/-- With an id of its own, a stream alone says something with that id. -/
theorem Life.addresses {start s : Session M S} (hStart : start.said = []) (life : Life start past s)
    {x : ClientStream} (found : s.clientStreams[c]? = some x) (hOwned : s.OwnedBy x.id (.stream c))
    {said : List (Sender × Envelope)} (hSaid : said ⊆ s.said) :
    (said.map Prod.snd).filter (Envelope.addresses x.id) =
      said.filterMap fun y => if y.1 = .client c then some y.2 else none := by
  rw [List.filter_map, ← List.filterMap_eq_filter, List.map_filterMap]
  refine List.filterMap_congr fun y hy => ?_
  obtain ⟨sender, e⟩ := y
  have hOther : ∀ {o id}, s.idOf? o = some id → o ≠ .stream c → id ≠ x.id := fun hId hne he =>
    hne (hOwned _ (he ▸ hId))
  cases life.explained hStart sender e (hSaid hy) with
  | @call d z payload hz =>
      have hne := hOther (o := .call d) (by rw [Session.idOf?, hz, Option.map_some])
        (by simp)
      simp [Envelope.addresses, hne]
  | @message d z payload hz =>
      by_cases hd : d = c
      · subst hd
        cases found.symm.trans hz
        simp [Envelope.addresses]
      · have hne := hOther (o := .stream d) (by rw [Session.idOf?, hz, Option.map_some])
          fun he => hd (Owner.stream.inj he)
        simp [Envelope.addresses, hne, hd]
  | @close d z hz _ =>
      by_cases hd : d = c
      · subst hd
        cases found.symm.trans hz
        simp [Envelope.addresses]
      · have hne := hOther (o := .stream d) (by rw [Session.idOf?, hz, Option.map_some])
          fun he => hd (Owner.stream.inj he)
        simp [Envelope.addresses, hne, hd]
  | served content _ speaker =>
      have hne : sender ≠ .client c := by
        rintro rfl
        cases speaker
      simp [Envelope.addresses, hne]
  | bye | refusal | run => simp [Envelope.addresses]

/-! ### Closed streams -/

/-- Once a stream is closed or its lifetime is cancelled, it sends no message, and says why. -/
theorem sendClient_closed {x : ClientStream} (found : m.session.clientStreams[c]? = some x)
    (hClosed : m.isCancelled x.lifetime = true ∨ x.closeSent = true) (payload : Payload) :
    m.sendClient c payload = .error (if m.isEnded then .sessionClosed else .ended) := by
  have hEither : (m.isCancelled x.lifetime || x.closeSent) = true := by simpa using hClosed
  simp only [sendClient, found, hEither, if_true]
  split <;> rfl

/-- A close that was begun is remembered. -/
theorem Execution.closeSent {start : Machine M S} (exec : Execution start past m) {x : ClientStream}
    (found : m.session.clientStreams[c]? = some x) {q : Machine M S}
    (hClose : (q, .closeClient c) ∈ past) : x.closeSent = true := by
  obtain ⟨before, after, rfl⟩ := List.append_of_mem hClose
  obtain ⟨_, q', hStep, hLater⟩ := exec.split
  have hGrows := (Life.grows hLater.life).clientStreams
  obtain ⟨y, hy, _, rfl⟩ := closeClient?_eq_some hStep
  have hFound : (q.session.modifyClient c fun x => { x with closeSent := true }).clientStreams[c]? =
      some { y with closeSent := true } := by
    simp [Session.modifyClient, hy]
  exact (hGrows.rel hFound found).closeSent rfl

/-- The remote peer's close or error of a stream was sorted. -/
def History.SortedLast (past : History M S) (c : ClientStreamId) : Prop :=
  ∃ q x content rest, (q, .pollClient c) ∈ past ∧ q.session.clientStreams[c]? = some x ∧
    x.responses = content :: rest ∧ content.isLast = true

theorem Execution.ended_of_sortedLast {start : Machine M S} (exec : Execution start past m)
    {x : ClientStream} (found : m.session.clientStreams[c]? = some x) (hLast : past.SortedLast c) :
    x.ended = true := by
  obtain ⟨q, y, content, rest, hMem, hy, hResponses, hContent⟩ := hLast
  obtain ⟨before, after, rfl⟩ := List.append_of_mem hMem
  obtain ⟨_, q', hStep, hLater⟩ := exec.split
  have hGrows := (Life.grows hLater.life).clientStreams
  obtain ⟨z, hz, _⟩ := (step?_grows hStep).clientStreams c y hy
  refine (hGrows.rel hz found).ended ?_
  obtain ⟨w, hw, _, ⟨_, rfl⟩ | ⟨last, others, hWaiting, rfl⟩⟩ := pollClient?_cases hStep
  · rw [endClient_clientStreams] at hz
    obtain ⟨hne, _⟩ | ⟨_, v, _, rfl⟩ := getElem?_modify_eq_some hz
    · exact absurd rfl hne
    · rfl
  · cases hy.symm.trans hw
    cases hResponses.symm.trans hWaiting
    rw [sortResponse_clientStreams] at hz
    obtain ⟨hne, _⟩ | ⟨_, v, _, rfl⟩ := getElem?_modify_eq_some hz
    · exact absurd rfl hne
    · simp [hContent]

section

variable {host : Host} {registry : Registry M S} {callTimeout : Option Duration} {capacity : Nat}

/-- What a stream puts into the queue: messages and at most one close, in the order in which they were sent
if its sends never overlap. What gets in behind a later send, or behind the close, was being sent when that
began. Among the requests and closes in the queue, nothing else has its id, unless that was given out again.
Once the session has ended or the last response of the stream was sorted, its lifetime is cancelled; from
then on, and from the first close on, no send on it begins. -/
theorem client_stream_on_wire
    (exec : Execution (Machine.new host registry callTimeout capacity) past m) {x : ClientStream}
    (found : m.session.clientStreams[c]? = some x) :
    x.Words (past.sentOn c) (past.enteredBy m.session (.client c)) ∧
    (past.Serial m.session (fun y => y.1 = .client c) →
      x.Wording (past.sentOn c) (past.enteredBy m.session (.client c))) ∧
    (∀ t u e e', m.session.said[t]? = some (.client c, e) → m.session.said[u]? = some (.client c, e') →
      [t, u].Sublist ((History.entered past).map Prod.fst) → u < t ∨ e = .streamClose x.id →
        past.Overlap u t) ∧
    (m.session.OwnedBy x.id (.stream c) →
      ((History.entered past).map Prod.snd).filter (Envelope.addresses x.id) =
        past.enteredBy m.session (.client c)) ∧
    (m.isEnded = true ∨ past.SortedLast c → m.isCancelled x.lifetime = true) ∧
    (m.isCancelled x.lifetime = true ∨ (∃ q, (q, .closeClient c) ∈ past) → ∀ payload,
      m.sendClient c payload = .error (if m.isEnded then .sessionClosed else .ended) ∧
        m.step? (.sendClient c payload) = none) := by
  have hWording := exec.life.wording rfl rfl found
  have hQueue := exec.life.queueing
  have hRooted := exec.rooted (rooted_new host registry callTimeout capacity)
  refine ⟨?_, fun hSerial => hWording.of_sublist (exec.life.enteredBy_sublist hSerial), ?_,
    fun hOwned => ?_, fun hOver => ?_, fun hClosed payload => ?_⟩
  · obtain ⟨words, hPerm, hSub⟩ := hQueue.enteredBy_subperm (.client c)
    exact ⟨words, hWording.of_sublist hSub, hPerm.symm⟩
  · intro t u e e' ht hu hBefore hEarlier
    have hOther : t ≠ u := by
      rintro rfl
      have hNodup := (List.nodup_append.mp hQueue.distinct).1.sublist hBefore
      simp at hNodup
    have hLt : u < t := hEarlier.elim id fun hClose =>
      Nat.lt_of_le_of_ne (exec.life.closed_last rfl rfl found (hClose ▸ ht) hu) (Ne.symm hOther)
    have hOrder := List.pairwise_iff_forall_sublist.mp exec.life.entered_order hBefore
    exact hOrder.resolve_left (Nat.lt_asymm hLt)
  · rw [← hQueue.accepted_envelopes]
    exact exec.life.addresses rfl found hOwned hQueue.accepted_subperm.subset
  · refine (hRooted.isCancelled_iff (mem_handles_client found)).mpr ?_
    rcases hOver with hEnded | hLast
    · exact .inr hEnded
    · have hEnded := exec.endedFlagged (rooted_new _ _ _ _) fun x hx => by cases hx
      exact .inl (hEnded x (List.mem_of_getElem? found) (exec.ended_of_sortedLast found hLast))
  · have hRefused : m.sendClient c payload = .error (if m.isEnded then .sessionClosed else .ended) := by
      refine sendClient_closed found ?_ payload
      rcases hClosed with hCancelled | ⟨q, hClose⟩
      · exact .inl hCancelled
      · exact .inr (exec.closeSent found hClose)
    exact ⟨hRefused, by rw [step?, hRefused]; rfl⟩

/-- A message of a stream fills the queue and is taken. Another one is given up, the close gets in, and the
remote peer closes the stream as well. Nothing more can be sent on it. -/
theorem client_stream_on_wire_of_closed : ∃ (past : History Unit Unit) (m : Machine Unit Unit)
    (x : ClientStream),
    Execution (Machine.new (Host.new false) Registry.empty none 0) past m ∧
      m.session.clientStreams[0]? = some x ∧
      (History.entered past).map Prod.snd = [x.message (.ofValue [1]), .streamClose x.id] ∧
      x.Wording (past.sentOn 0)
        (((History.entered past).map Prod.snd).filter (Envelope.addresses x.id)) ∧
      m.isCancelled x.lifetime = true ∧
      m.sendClient 0 (.ofValue [3]) = .error (if m.isEnded then .sessionClosed else .ended) := by
  have hPlay : ((Machine.new (Host.new false) (Registry.empty : Registry Unit Unit) none 0).play
      ([.openStream "A.b", .sendClient 0 (.ofValue [1]), .advance 0, .take, .advance 0,
        .sendClient 0 (.ofValue [2]), .giveUp 1, .closeClient 0, .advance 2,
        .receive (.response ⟨0, .close true⟩)] ++ .pollClient 0 :: [])).map
      (fun r => ((History.entered r.1).map Prod.snd,
        decide (History.Serial r.1 r.2.session fun y => y.1 = .client 0), r.2.session.allocated,
        r.2.session.clientStreams.map fun x => (x.id, x.method))) =
      some ([.request { id := 0, method := "A.b", payload := .ofValue [1], isStream := true },
        .streamClose 0], true, 1, [(0, "A.b")]) := by decide +kernel
  have hSorts : ((Machine.new (Host.new false) (Registry.empty : Registry Unit Unit) none 0).play
      [.openStream "A.b", .sendClient 0 (.ofValue [1]), .advance 0, .take, .advance 0,
        .sendClient 0 (.ofValue [2]), .giveUp 1, .closeClient 0, .advance 2,
        .receive (.response ⟨0, .close true⟩)]).map
      (fun r => r.2.session.clientStreams.map ClientStream.responses) = some [[.close true]] := by
    decide +kernel
  obtain ⟨⟨past, m⟩, hRun, hFacts⟩ := Option.map_eq_some_iff.mp hPlay
  simp only [Prod.mk.injEq] at hFacts
  obtain ⟨hEntered, hSerial, hAllocated, hStreams⟩ := hFacts
  have exec := Execution.refl.play hRun
  obtain ⟨x, hStream, hx⟩ := List.map_eq_singleton_iff.mp hStreams
  obtain ⟨hId, hMethod⟩ := Prod.mk.inj hx
  have found : m.session.clientStreams[0]? = some x := by rw [hStream]; rfl
  have hOwned : m.session.OwnedBy x.id (.stream 0) :=
    Session.ownedBy_of_nodup (exec.life.ids_nodup (by omega)) found
  obtain ⟨before, q, after, hBefore, rfl⟩ := play_at hRun
  rw [hBefore, Option.map_some, Option.some.injEq] at hSorts
  obtain ⟨y, hy, hResponses⟩ := List.map_eq_singleton_iff.mp hSorts
  have hLast : History.SortedLast (before ++ (q, .pollClient 0) :: after) 0 :=
    ⟨q, y, .close true, [], by simp, by rw [hy]; rfl, hResponses, rfl⟩
  obtain ⟨_, hWording, _, hAlone, hOver, hClosed⟩ := client_stream_on_wire exec found
  refine ⟨_, m, x, exec, found, ?_, ?_, hOver (.inr hLast), ?_⟩
  · rw [List.nil_append, hEntered, ClientStream.message, hId, hMethod]
  · rw [hAlone hOwned]
    exact hWording (of_decide_eq_true hSerial)
  · exact (hClosed (.inl (hOver (.inr hLast))) (.ofValue [3])).1

/-- The remote peer counts its ids on its own: a call of it is answered with the id that a stream has here.
And a close that is sent while a message waits may overtake that: the message gets in behind it. -/
theorem client_stream_answered_and_overtaken :
    (∃ (past : History Unit Unit) (m : Machine Unit Unit) (x : ClientStream),
      Execution (Machine.new (Host.new false) Registry.empty none 4) past m ∧
        m.session.clientStreams[0]? = some x ∧
        ¬ ∀ e ∈ (History.entered past).map Prod.snd, e.id = x.id →
          (∃ payload, e = x.message payload) ∨ e = .streamClose x.id) ∧
    ∃ (past : History Unit Unit) (m : Machine Unit Unit) (x : ClientStream),
      Execution (Machine.new (Host.new false) Registry.empty none 0) past m ∧
        m.session.clientStreams[0]? = some x ∧
        (History.entered past).map Prod.snd =
          [x.message (.ofValue [1]), .streamClose x.id, x.message (.ofValue [2])] := by
  constructor
  · have hPlay : ((Machine.new (Host.new false) (Registry.empty : Registry Unit Unit) none 4).play
        [.openStream "A.b",
          .receive (.request { id := 0, method := "A.b", payload := .ofValue [], isStream := false }),
          .startRefusal 0, .advance 0]).map
        (fun r => ((History.entered r.1).map Prod.snd, r.2.session.clientStreams.map ClientStream.id)) =
        some ([.response ⟨0, .error (.methodNotFound "A.b")⟩], [0]) := by decide +kernel
    obtain ⟨⟨past, m⟩, hRun, hFacts⟩ := Option.map_eq_some_iff.mp hPlay
    obtain ⟨hEntered, hStreams⟩ := Prod.mk.inj hFacts
    obtain ⟨x, hStream, hId⟩ := List.map_eq_singleton_iff.mp hStreams
    refine ⟨past, m, x, Execution.refl.play hRun, by rw [hStream]; rfl, fun hOnly => ?_⟩
    rw [hEntered] at hOnly
    obtain ⟨payload, he⟩ | he := hOnly _ (List.mem_singleton.mpr rfl) hId.symm
    · cases he
    · cases he
  · have hPlay : ((Machine.new (Host.new false) (Registry.empty : Registry Unit Unit) none 0).play
        [.openStream "A.b", .sendClient 0 (.ofValue [1]), .advance 0, .sendClient 0 (.ofValue [2]), .take,
          .advance 0, .closeClient 0, .advance 2, .take, .advance 2, .advance 1]).map
        (fun r => ((History.entered r.1).map Prod.snd,
          r.2.session.clientStreams.map fun x => (x.id, x.method))) =
        some ([.request { id := 0, method := "A.b", payload := .ofValue [1], isStream := true },
          .streamClose 0, .request { id := 0, method := "A.b", payload := .ofValue [2], isStream := true }],
          [(0, "A.b")]) := by decide +kernel
    obtain ⟨⟨past, m⟩, hRun, hFacts⟩ := Option.map_eq_some_iff.mp hPlay
    obtain ⟨hEntered, hStreams⟩ := Prod.mk.inj hFacts
    obtain ⟨x, hStream, hx⟩ := List.map_eq_singleton_iff.mp hStreams
    obtain ⟨hId, hMethod⟩ := Prod.mk.inj hx
    refine ⟨past, m, x, Execution.refl.play hRun, by rw [hStream]; rfl, ?_⟩
    rw [hEntered, ClientStream.message, ClientStream.message, hId, hMethod]

end

end Machine

end PeerLink
