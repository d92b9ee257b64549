import PeerLink.Proofs.Session.OpenStreams
import PeerLink.Proofs.Session.Sorting

/-! What the owner of a stream receives, against what was handled for the stream. As long as the session
goes on nothing is lost: a stream that its owner keeps ends by its own last response only. When the
session ends, the task of a stream stops where it stands, and the responses that it has not sorted by
then are lost (`History.CutOff`). -/
namespace PeerLink.Machine

variable {M S : Type} {m m' : Machine M S} {a : Action} {c : ClientStreamId} {past : History M S}

/-! ### Who cancels the lifetime of a stream -/

theorem mem_handles_client {x : ClientStream} (found : m.session.clientStreams[c]? = some x) :
    x.lifetime ∈ m.session.handles :=
  List.mem_append_left _ (List.mem_append_right _
    (List.mem_map_of_mem (List.mem_of_getElem? found)))

/-- The lifetime of a stream opened here is that of nothing else. -/
theorem Rooted.client_unique (hRooted : m.Rooted) {x : ClientStream}
    (found : m.session.clientStreams[c]? = some x) :
    x.lifetime ≠ m.session.lifetime ∧ x.lifetime ∉ m.session.runs.map Run.lifetime ∧
      x.lifetime ∉ m.session.servedStreams.map ServedStream.lifetime ∧
      ∀ (d : ClientStreamId) (y : ClientStream), m.session.clientStreams[d]? = some y →
        y.lifetime = x.lifetime → d = c := by
  have hMem : x.lifetime ∈ m.session.clientStreams.map ClientStream.lifetime :=
    List.mem_map_of_mem (List.mem_of_getElem? found)
  obtain ⟨hLeft, _, hServed⟩ := List.nodup_append.mp hRooted.nodup
  obtain ⟨_, hClients, hRuns⟩ := List.nodup_append.mp hLeft
  refine ⟨Nat.ne_of_gt (hRooted.above _ (mem_handles_client found)),
    fun hRun => hRuns _ hRun _ hMem rfl,
    fun hServes => hServed _ (List.mem_append_right _ hMem) _ hServes rfl, fun d y hy he => ?_⟩
  have hc : (m.session.clientStreams.map ClientStream.lifetime)[c]? = some x.lifetime := by
    rw [List.getElem?_map, found, Option.map_some]
  have hd : (m.session.clientStreams.map ClientStream.lifetime)[d]? = some x.lifetime := by
    rw [List.getElem?_map, hy, Option.map_some, he]
  exact (List.getElem?_inj (List.getElem?_eq_some_iff.mp hd).1 hClients).mp (hd.trans hc.symm)

/-- The task of a stream cancels its lifetime only when it ends. -/
theorem pollClient?_flags {x y : ClientStream} (h : m.pollClient? c = some m')
    (found : m.session.clientStreams[c]? = some x) (found' : m'.session.clientStreams[c]? = some y) :
    y.ended = true ∨ m'.lifetimes = m.lifetimes := by
  obtain ⟨z, hz, _, ⟨_, rfl⟩ | ⟨content, rest, _, rfl⟩⟩ := pollClient?_cases h
  · left
    rw [endClient_clientStreams, List.getElem?_modify_eq, found] at found'
    cases found'
    rfl
  · obtain ⟨messages, he | he⟩ := sortResponse_cases m c z content rest
    · right
      rw [he]
      rfl
    · left
      rw [he, endClient_clientStreams, List.getElem?_modify_eq] at found'
      obtain ⟨w, _, rfl⟩ := Option.map_eq_some_iff.mp found'
      rfl

/-- The owner of a stream keeps it: the stream is not dropped, and nobody cancels its lifetime by
name. -/
def History.Keeps (past : History M S) (c : ClientStreamId) (l : LifetimeId) : Prop :=
  ∀ x ∈ past, x.2 ≠ .dropClient c ∧ x.2 ≠ .cancel l

/-- The lifetime of a stream that goes on and that its owner keeps stays unflagged. -/
theorem step?_unflagged (h : m.step? a = some m') (hRooted : m.Rooted) (hFits : TableFits m.session)
    {x y : ClientStream} (found : m.session.clientStreams[c]? = some x)
    (found' : m'.session.clientStreams[c]? = some y) (hUnended : y.ended = false)
    (hKept : a ≠ .dropClient c ∧ a ≠ .cancel x.lifetime)
    (hUnflagged : m.lifetimes.isFlagged x.lifetime = false) :
    m'.lifetimes.isFlagged x.lifetime = false := by
  obtain ⟨hSession, hRun, hServed, hUnique⟩ := hRooted.client_unique found
  refine Bool.eq_false_iff.mpr fun hFlag => ?_
  -- Whatever sets a flag now belongs to something else.
  obtain hFlagged | he | he | he | ⟨d, z, cause, hz, he⟩ | ⟨i, z, _, hz, he⟩ :=
    step?_isFlagged h hFits hFlag
  · rw [hUnflagged] at hFlagged
    cases hFlagged
  · exact hKept.2 he
  · exact hSession he.2
  · exact hRun he
  · obtain rfl := hUnique d z hz he
    obtain rfl | rfl := cause
    · obtain hEnded | hSame := pollClient?_flags h found found'
      · rw [hUnended] at hEnded
        cases hEnded
      · rw [hSame, hUnflagged] at hFlag
        cases hFlag
    · exact hKept.1 rfl
  · exact hServed (he ▸ List.mem_map_of_mem (List.mem_of_getElem? hz))

/-- A session that has ended stays so. -/
theorem Rooted.isEnded_step (hRooted : m.Rooted) (h : m.step? a = some m')
    (hEnded : m.isEnded = true) : m'.isEnded = true := by
  unfold isEnded Host.isCancelled at hEnded ⊢
  rw [Lifetimes.isCancelled_root hRooted.root] at hEnded
  rw [Lifetimes.isCancelled_root (hRooted.step h).root, (step?_grows h).lifetime]
  exact (step?_lifetimes_grow h).isFlagged _ hEnded

/-- A session ends when it is closed, when it stops, or when its lifetime is cancelled by name. -/
theorem Rooted.cause_of_isEnded (hRooted : m.Rooted) (h : m.step? a = some m')
    (hFits : TableFits m.session) (hLive : m.isEnded = false) (hEnded : m'.isEnded = true) :
    a = .close ∨ (∃ exhausted, a = .stop exhausted) ∨ a = .cancel m.session.lifetime := by
  unfold isEnded Host.isCancelled at hLive hEnded
  rw [Lifetimes.isCancelled_root hRooted.root] at hLive
  rw [Lifetimes.isCancelled_root (hRooted.step h).root, (step?_grows h).lifetime] at hEnded
  -- What is handed out lies above the lifetime of the session.
  have hOwn : m.session.lifetime ∉ m.session.handles := fun hl =>
    Nat.lt_irrefl _ (hRooted.above _ hl)
  obtain hFlagged | hNamed | ⟨hEnds, _⟩ | hRun | ⟨d, z, _, hz, he⟩ | ⟨i, z, _, hz, he⟩ :=
    step?_isFlagged h hFits hEnded
  · rw [hLive] at hFlagged
    cases hFlagged
  · exact .inr (.inr hNamed)
  · exact hEnds.imp_right .inl
  · exact absurd (List.mem_append_left _ (List.mem_append_left _ hRun)) hOwn
  · exact absurd (he ▸ mem_handles_client hz) hOwn
  · exact absurd (he ▸ served_mem_handles hz) hOwn

/-! ### How a stream ends -/

/-- The task of the stream stopped because the session had ended, and left `lost` behind. -/
def History.CutOff (past : History M S) (c : ClientStreamId) (lost : List Content) : Prop :=
  ∃ before q after x, past = before ++ (q, .pollClient c) :: after ∧ q.isEnded = true ∧
    q.session.clientStreams[c]? = some x ∧ x.ended = false ∧ x.responses = lost

theorem History.CutOff.later {lost : List Content} (h : past.CutOff c lost) (e : Machine M S × Action) :
    History.CutOff (past ++ [e]) c lost := by
  obtain ⟨before, q, after, x, rfl, hFacts⟩ := h
  exact ⟨before, q, after ++ [e], x, by simp, hFacts⟩

/-- Where a stream that its owner keeps stands. Either its responses are still sorted, or its last
response was, or it was cut off by the end of the session. -/
inductive Fate (past : History M S) (m : Machine M S) (c : ClientStreamId) (x : ClientStream) :
    Prop where
  | going (unended : x.ended = false) (unflagged : m.lifetimes.isFlagged x.lifetime = false)
  | complete (ended : x.ended = true) (last : ∃ content ∈ past.answers c, content.isLast = true)
      (all : past.received c ++ x.messages = messagesOf (past.answers c))
  | cutOff (ended : x.ended = true) (gone : m.isEnded = true) (lost : List Content)
      (cut : past.CutOff c lost)
      (rest : past.received c ++ x.messages ++ messagesOf lost = messagesOf (past.answers c))

/-- What a stream whose responses are still sorted has yet to sort is all that is missing. -/
theorem Sorted.rest {x : ClientStream} {done : List Content} (hSorted : Sorted past c x done)
    (hUnended : x.ended = false) :
    past.received c ++ x.messages ++ messagesOf x.responses = messagesOf (past.answers c) := by
  rw [hSorted.messages, hSorted.complete hUnended, hSorted.arrived,
    messagesOf_append (hSorted.unended hUnended)]

/-- Once a stream has ended, its messages only go over to its owner. -/
theorem ended_messages (past : History M S) {x y : ClientStream} (hExact : m.session.TableExact)
    (found : m.session.clientStreams[c]? = some x) (hEnded : x.ended = true)
    (h : m.step? a = some m') (found' : m'.session.clientStreams[c]? = some y) :
    y.ended = true ∧
      History.received (past ++ [(m, a)]) c ++ y.messages = past.received c ++ x.messages := by
  have hSame : ∀ z : ClientStream, m.session.clientStreams[c]? = some z → z = x := fun z hz =>
    Option.some.inj (hz.symm.trans found)
  rw [History.received_concat]
  cases step?_client h found' with
  | opened _ _ new =>
      rw [new, List.getElem?_eq_none (Nat.le_refl _)] at found
      cases found
  | kept z hz _ receipt _ messages ended =>
      cases hSame z hz
      exact ⟨ended.trans hEnded, by simp [receipt, messages]⟩
  | arrived z content hz arrival =>
      cases hSame z hz
      rw [arrival?_eq hExact found, hEnded] at arrival
      cases arrival
  | received z message hz _ receipt _ messages ended =>
      cases hSame z hz
      exact ⟨ended.trans hEnded, by simp [receipt, messages]⟩
  | sorted z content hz _ unended =>
      cases hSame z hz
      rw [hEnded] at unended
      cases unended
  | stopped z hz _ unended =>
      cases hSame z hz
      rw [hEnded] at unended
      cases unended

/-- A session that has ended handles no more responses. -/
theorem answer?_of_ended (h : m.step? a = some m') (hEnded : m.isEnded = true) :
    answer? c (m, a) = none := by
  cases a with
  | receive e =>
      obtain ⟨_, hOpen, _⟩ := receive?_eq_some h
      rw [hEnded] at hOpen
      cases hOpen
  | _ => rfl

theorem Fate.step {x y : ClientStream} {done : List Content} (hFate : Fate past m c x)
    (hSorted : Sorted past c x done) (hExact : m.session.TableExact) (hRooted : m.Rooted)
    (hFits : TableFits m.session) (hKept : a ≠ .dropClient c ∧ a ≠ .cancel x.lifetime)
    (found : m.session.clientStreams[c]? = some x) (h : m.step? a = some m')
    (found' : m'.session.clientStreams[c]? = some y) : Fate (past ++ [(m, a)]) m' c y := by
  cases hFate with
  | complete ended last all =>
      obtain ⟨hEnded, hMessages⟩ := ended_messages past hExact found ended h found'
      obtain ⟨content, hContent, hLast⟩ := last
      refine .complete hEnded ⟨content, ?_, hLast⟩ ?_
      · rw [History.answers_concat]
        exact List.mem_append_left _ hContent
      · rw [hMessages, all, History.answers_concat,
          messagesOf_append_of_last ⟨content, hContent, hLast⟩]
  | cutOff ended gone lost cut rest =>
      obtain ⟨hEnded, hMessages⟩ := ended_messages past hExact found ended h found'
      refine .cutOff hEnded (hRooted.isEnded_step h gone) lost (cut.later _) ?_
      rw [hMessages, rest, History.answers_concat, answer?_of_ended h gone]
      simp
  | going unended unflagged =>
      have hLifetime : y.lifetime = x.lifetime := ((step?_clientStreams h).rel found found').lifetime
      cases hEnded : y.ended with
      | false =>
          refine .going hEnded ?_
          rw [hLifetime]
          exact step?_unflagged h hRooted hFits found found' hEnded hKept unflagged
      | true =>
          have hSame : ∀ z : ClientStream, m.session.clientStreams[c]? = some z → z = x :=
            fun z hz => Option.some.inj (hz.symm.trans found)
          have hGoesOn : y.ended = x.ended → False := fun he => by
            rw [hEnded, unended] at he
            cases he
          cases step?_client h found' with
          | opened _ _ _ _ _ open' => exact absurd (hEnded.symm.trans open') nofun
          | kept z hz _ _ _ _ ended => cases hSame z hz; exact (hGoesOn ended).elim
          | arrived z _ hz _ _ _ _ ended => cases hSame z hz; exact (hGoesOn ended).elim
          | received z _ hz _ _ _ _ ended => cases hSame z hz; exact (hGoesOn ended).elim
          | sorted z content hz cause _ responses messages ended =>
              cases hSame z hz
              have hLast : content.isLast = true := ended.symm.trans hEnded
              have hHead : messagesOf x.responses = messagesOf [content] := by
                rw [responses]
                exact messagesOf_append_of_last ⟨content, List.mem_singleton.mpr rfl, hLast⟩ _
              have hRest := hSorted.rest unended
              refine .complete hEnded ⟨content, ?_, hLast⟩ ?_
              · rw [History.answers_concat, hSorted.complete unended, hSorted.arrived, responses]
                simp
              · rw [History.answers_concat, History.received_concat, cause, messages]
                simpa [receipt?, answer?, hHead] using hRest
          | stopped z hz cause _ cancelled responses messages _ =>
              cases hSame z hz
              have hOver : m.isEnded = true := by
                obtain hFlag | hOver := (hRooted.isCancelled_iff (mem_handles_client found)).mp cancelled
                · rw [unflagged] at hFlag
                  cases hFlag
                · exact hOver
              refine .cutOff hEnded (hRooted.isEnded_step h hOver) x.responses
                ⟨past, m, [], x, by rw [cause], hOver, found, unended, rfl⟩ ?_
              rw [History.answers_concat, History.received_concat, cause, messages]
              simpa [receipt?, answer?] using hSorted.rest unended

theorem Execution.fate {host : Host} {registry : Registry M S} {callTimeout : Option Duration}
    {capacity : Nat} (exec : Execution (Machine.new host registry callTimeout capacity) past m)
    (hRoom : past.HasRoom) {x : ClientStream} (found : m.session.clientStreams[c]? = some x)
    (hKept : past.Keeps c x.lifetime) : Fate past m c x := by
  induction exec generalizing x with
  | refl => simp [Machine.new, Session.new] at found
  | @step past m m' a prior last ih =>
      obtain ⟨hRoomBefore, _⟩ := List.forall_mem_append.mp hRoom
      obtain ⟨hKeptBefore, hKeptNow⟩ := List.forall_mem_append.mp hKept
      cases hOld : m.session.clientStreams[c]? with
      | some w =>
          have hLifetime := ((step?_clientStreams last).rel hOld found).lifetime
          rw [hLifetime] at hKeptBefore hKeptNow
          obtain ⟨done, hSorted⟩ := (prior.life.sorted hRoomBefore).1 c w hOld
          exact (ih hRoomBefore hOld hKeptBefore).step hSorted (prior.life.tableExact hRoomBefore)
            (prior.rooted (rooted_new _ _ _ _)) prior.life.servingExact.fits
            (hKeptNow _ (List.mem_singleton.mpr rfl)) hOld last found
      | none =>
          cases step?_client last found with
          | opened method cause =>
              subst cause
              cases last
              obtain hFound | ⟨_, rfl⟩ := getElem?_concat_eq_some found
              · cases hOld.symm.trans hFound
              · refine .going rfl (Bool.eq_false_iff.mpr fun hFlag => ?_)
                exact Nat.lt_irrefl _ (Lifetimes.lt_next_of_isFlagged
                  ((Lifetimes.isFlagged_add m.lifetimes (some m.session.lifetime) _).symm.trans hFlag))
          | kept _ found | arrived _ _ found | received _ _ found | sorted _ _ found
          | stopped _ found =>
              rw [hOld] at found
              cases found

/-- In a settled state nothing is left to sort. -/
theorem Settled.responses_eq_nil (hSettled : m.Settled) {x : ClientStream}
    (found : m.session.clientStreams[c]? = some x) (hUnended : x.ended = false) :
    x.responses = [] := by
  have hStuck := hSettled.clientStreams c
  simp only [pollClient?, found, hUnended, Bool.false_eq_true, if_false] at hStuck
  split at hStuck
  · cases hStuck
  · split at hStuck
    · assumption
    · cases hStuck

/-- The owner of a stream receives what was handled for the stream, in order. When the stream has
nothing more for it, in a settled state or because the stream has ended, the owner has received every
payload up to the first error or close, and the error, or else the session has ended and the task of the
stream stopped at that: then what the owner has not received are the responses that were not sorted by
then, and no others. -/
theorem client_messages_kept {host : Host} {registry : Registry M S} {callTimeout : Option Duration}
    {capacity : Nat} (exec : Execution (Machine.new host registry callTimeout capacity) past m)
    (hRoom : past.HasRoom) {x : ClientStream} (found : m.session.clientStreams[c]? = some x)
    (hKept : past.Keeps c x.lifetime) :
    past.received c <+: messagesOf (past.answers c) ∧
    (m.Settled ∨ (m.receiveClient c).1 = .ended →
      (∃ message, (m.receiveClient c).1 = .message message ∧
        past.received c ++ [message] <+: messagesOf (past.answers c)) ∨
      past.received c = messagesOf (past.answers c) ∨
      m.isEnded = true ∧ ∃ lost, past.CutOff c lost ∧
        past.received c ++ messagesOf lost = messagesOf (past.answers c)) := by
  obtain ⟨done, hSorted⟩ := (exec.life.sorted hRoom).1 c x found
  have hPrefix : past.received c ++ x.messages <+: messagesOf (past.answers c) := by
    obtain ⟨later, hLater⟩ := hSorted.answers
    rw [hSorted.messages, ← hLater, hSorted.arrived, List.append_assoc]
    exact messagesOf_le_append _ _
  refine ⟨(List.prefix_append _ _).trans hPrefix, fun hDone => ?_⟩
  cases hMessages : x.messages with
  | cons message rest =>
      refine .inl ⟨message, by simp [receiveClient, found, hMessages], ?_⟩
      rw [hMessages, List.append_cons] at hPrefix
      exact (List.prefix_append _ _).trans hPrefix
  | nil =>
      right
      cases exec.fate hRoom found hKept with
      | going unended _ =>
          left
          have hSettled : m.Settled := hDone.resolve_right fun hEnded => by
            simp [receiveClient, found, hMessages, unended] at hEnded
          have hRest := hSorted.rest unended
          rw [hMessages, hSettled.responses_eq_nil found unended] at hRest
          simpa [messagesOf] using hRest
      | complete _ _ all =>
          left
          simpa [hMessages] using all
      | cutOff _ gone lost cut rest =>
          right
          exact ⟨gone, lost, cut, by simpa [hMessages] using rest⟩

/-- Two payloads are handled for a stream. One is sorted before the session is closed, and received
after that; the other is cut off. -/
theorem client_messages_kept_of_closed : ∃ (past : History Unit Unit) (m : Machine Unit Unit)
    (x : ClientStream),
    Execution (Machine.new (Host.new false) Registry.empty none 4) past m ∧ past.HasRoom ∧
      m.session.clientStreams[0]? = some x ∧ past.Keeps 0 x.lifetime ∧ m.Settled ∧
      past.received 0 = [.ok (.ofValue [1])] ∧
      ∃ lost, past.CutOff 0 lost ∧
        past.received 0 ++ messagesOf lost = [.ok (.ofValue [1]), .ok (.ofValue [2])] := by
  let actions : List Action :=
    [.openStream "A.b", .receive (.response ⟨0, .payload (.ofValue [1])⟩), .pollClient 0,
      .receive (.response ⟨0, .payload (.ofValue [2])⟩), .close, .pollClient 0, .stop false,
      .receiveClient 0]
  have hPlay : ((Machine.new (Host.new false) (Registry.empty : Registry Unit Unit) none 4).play
      actions).map (fun r => (r.2.isSettled,
        r.2.session.clientStreams.map fun x => x.messages.length, decide (History.HasRoom r.1),
        (History.received r.1 0).length, History.answers r.1 0)) =
      some (true, [0], true, 1, [.payload (.ofValue [1]), .payload (.ofValue [2])]) := by
    decide +kernel
  obtain ⟨⟨past, m⟩, hRun, hFacts⟩ := Option.map_eq_some_iff.mp hPlay
  simp only [Prod.mk.injEq] at hFacts
  obtain ⟨hSettled, hStreams, hSizes, hLength, hAnswers⟩ := hFacts
  have exec := Execution.refl.play hRun
  rw [List.nil_append] at exec
  obtain ⟨x, hStream, hWaiting⟩ := List.map_eq_singleton_iff.mp hStreams
  have found : m.session.clientStreams[0]? = some x := by rw [hStream]; rfl
  have hRoom : History.HasRoom past := of_decide_eq_true hSizes
  have hKept : History.Keeps past 0 x.lifetime := fun e he => by
    have hAction : e.2 ∈ actions := play_actions hRun ▸ List.mem_map_of_mem he
    simp only [actions, List.mem_cons, List.not_mem_nil, or_false] at hAction
    rcases hAction with h | h | h | h | h | h | h | h <;> simp [h]
  obtain ⟨hPrefix, hRest⟩ := client_messages_kept exec hRoom found hKept
  rw [hAnswers] at hPrefix hRest
  have hReceived : History.received past 0 = [.ok (.ofValue [1])] := by
    have hTake := List.prefix_iff_eq_take.mp hPrefix
    rw [hLength] at hTake
    exact hTake
  have hDone := isSettled_iff.mp hSettled
  obtain ⟨message, hMessage, _⟩ | hAll | ⟨_, lost, hCut, hLost⟩ := hRest (.inl hDone)
  · simp only [receiveClient, found, List.length_eq_zero_iff.mp hWaiting] at hMessage
    split at hMessage <;> cases hMessage
  · rw [hReceived] at hAll
    cases hAll
  · exact ⟨past, m, x, exec, hRoom, found, hKept, hDone, hReceived, lost, hCut, hLost⟩

/-- A payload is handled for a stream, and then the peer goes away. The stream ends, and its owner gets
nothing. -/
theorem client_message_lost : ∃ (past : History Unit Unit) (m : Machine Unit Unit) (x : ClientStream),
    Execution (Machine.new (Host.new false) Registry.empty none 4) past m ∧ past.HasRoom ∧
      m.session.clientStreams[0]? = some x ∧ past.Keeps 0 x.lifetime ∧ m.Settled ∧
      past.answers 0 = [.payload (.ofValue [1])] ∧ past.received 0 = [] ∧
      (m.receiveClient 0).1 = .ended := by
  let actions : List Action :=
    [.openStream "A.b", .receive (.response ⟨0, .payload (.ofValue [1])⟩), .stop true, .pollClient 0,
      .receiveClient 0]
  have hPlay : ((Machine.new (Host.new false) (Registry.empty : Registry Unit Unit) none 4).play
      actions).map (fun r => (r.2.isSettled,
        r.2.session.clientStreams.map fun x => x.ended && x.messages.isEmpty,
        decide (History.HasRoom r.1),
        (History.received r.1 0).length, History.answers r.1 0)) =
      some (true, [true], true, 0, [.payload (.ofValue [1])]) := by
    decide +kernel
  obtain ⟨⟨past, m⟩, hRun, hFacts⟩ := Option.map_eq_some_iff.mp hPlay
  simp only [Prod.mk.injEq] at hFacts
  obtain ⟨hSettled, hStreams, hSizes, hLength, hAnswers⟩ := hFacts
  obtain ⟨x, hStream, hStands⟩ := List.map_eq_singleton_iff.mp hStreams
  obtain ⟨hEnded, hWaiting⟩ := Bool.and_eq_true_iff.mp hStands
  have found : m.session.clientStreams[0]? = some x := by rw [hStream]; rfl
  refine ⟨past, m, x, Execution.refl.play hRun, of_decide_eq_true hSizes, found, fun e he => ?_,
    isSettled_iff.mp hSettled, hAnswers, List.length_eq_zero_iff.mp hLength, ?_⟩
  · have hAction : e.2 ∈ actions := play_actions hRun ▸ List.mem_map_of_mem he
    simp only [actions, List.mem_cons, List.not_mem_nil, or_false] at hAction
    rcases hAction with h | h | h | h | h <;> simp [h]
  · simp [receiveClient, found, List.isEmpty_iff.mp hWaiting, hEnded]

end PeerLink.Machine
