import PeerLink.Proofs.Session.Ending
import PeerLink.Proofs.Session.Speaking

/-! The input of a stream that is served: the message that opens it, and every later one that is handled
while the table leads from its id to the stream. Its handler receives all of that, in order, and nothing
else (`served_input_complete`). Messages are only ever added at the end of the inbox and taken from its
front, and once the stream has left the table none is added. A receive looks at the inbox and at the
lifetime in one action. -/
namespace PeerLink.Machine

variable {M S : Type} {m m' : Machine M S} {a : Action} {past after : History M S} {s : Session M S}
  {i : ServedStreamId} {x y : ServedStream S}

/-- The message that an action adds to the input of an open stream: that of any stream request with its
id, as long as the table leads from the id to the stream. -/
def routed? (id : Int32) (i : ServedStreamId) (x : Machine M S × Action) : Option Payload :=
  match x.2 with
  | .receive (.request r) =>
    if r.isStream ∧ r.id = id ∧ x.1.session.openStreams.get? id = some i then some r.payload else none
  | _ => none

/-- The request opened the stream, and the rest was done after that. -/
structure OpenedBy (past : History M S) (i : ServedStreamId) (x : ServedStream S) (r : Request)
    (after : History M S) : Prop where
  split : ∃ before q, past = before ++ (q, .receive (.request r)) :: after ∧
    q.session.openStreams.get? r.id = none ∧ q.session.servedStreams.length = i
  isStream : r.isStream = true
  id : r.id = x.id

/-- What ends the input of a stream before its handler returns. -/
inductive Action.EndsInput (id : Int32) : Action → Prop where
  | close : EndsInput id (.receive (.streamClose id))
  | bye : EndsInput id (.receive .bye)
  | stop (exhausted : Bool) : EndsInput id (.stop exhausted)

/-- The session has ended, or something else ended the input while the table led to the stream. -/
def InputEnded (past : History M S) (m : Machine M S) (i : ServedStreamId) (id : Int32) : Prop :=
  m.isEnded = true ∨
    ∃ q a, (q, a) ∈ past ∧ q.session.openStreams.get? id = some i ∧ Action.EndsInput id a

/-! ### One action -/

theorem routed?_receive {r : Request} (isStream : r.isStream = true)
    (entry : m.session.openStreams.get? r.id = some i) :
    routed? r.id i (m, .receive (.request r)) = some r.payload :=
  if_pos ⟨isStream, rfl, entry⟩

theorem routed?_passed {id : Int32} (passed : ∀ r, a = .receive (.request r) → r.isStream = true →
    m.session.openStreams.get? r.id ≠ some i) : routed? id i (m, a) = none := by
  cases a with
  | receive e =>
      cases e with
      | request r =>
          refine if_neg ?_
          rintro ⟨isStream, rfl, entry⟩
          exact passed r rfl isStream entry
      | _ => rfl
  | _ => rfl

/-- What was received and what waits grow together by what is routed to the stream. -/
theorem step?_input (hFits : TableFits m.session) (found : m.session.servedStreams[i]? = some x)
    (h : m.step? a = some m') (found' : m'.session.servedStreams[i]? = some y) :
    History.delivered (past ++ [(m, a)]) i ++ y.inbox =
      past.delivered i ++ x.inbox ++ (routed? x.id i (m, a)).toList := by
  rw [History.delivered_concat]
  have hSame : ∀ z : ServedStream S, m.session.servedStreams[i]? = some z → z = x := fun z hz =>
    Option.some.inj (hz.symm.trans found)
  cases step?_record h found' with
  | opened _ _ _ _ new =>
      rw [new, List.getElem?_eq_none (Nat.le_refl _)] at found
      cases found
  | kept z hz passed delivery inbox =>
      rw [delivery, inbox, hSame z hz, routed?_passed passed]
      simp
  | arrived z r hz cause isStream entry inbox =>
      subst cause
      obtain ⟨w, hw, hId⟩ := hFits.id r.id i entry
      rw [inbox, hSame z hz, ← hSame w hw, hId, routed?_receive isStream entry]
      simp [delivery?]
  | received z message hz cause delivery inbox =>
      subst cause
      rw [delivery, ← hSame z hz, inbox]
      simp [routed?]
  | closed z hz cause inbox =>
      subst cause
      rw [inbox, hSame z hz]
      simp [routed?, delivery?]
  | returned z value hz cause _ inbox =>
      subst cause
      rw [inbox, hSame z hz]
      simp [routed?, delivery?]

/-- A receive takes the message in front. -/
theorem receiveServed_message_iff (found : m.session.servedStreams[i]? = some x) {message : Payload} :
    (m.receiveServed i).1 = .message message ↔ [message] <+: x.inbox := by
  cases hInbox : x.inbox with
  | nil =>
      simp only [receiveServed, found, hInbox, List.prefix_nil, List.cons_ne_nil, iff_false]
      split <;> simp
  | cons first rest => simp [receiveServed, found, hInbox, eq_comm]

theorem receiveServed_ended_iff (found : m.session.servedStreams[i]? = some x) :
    (m.receiveServed i).1 = .ended ↔
      x.inbox = [] ∧ (x.inboxClosed = true ∨ m.isCancelled x.lifetime = true) := by
  cases hInbox : x.inbox with
  | nil => cases hClosed : x.inboxClosed <;> simp [receiveServed, found, hInbox, hClosed]
  | cons first rest => simp [receiveServed, found, hInbox]

theorem OpenedBy.step {r : Request} (h : OpenedBy past i x r after) (hId : y.id = x.id)
    (e : Machine M S × Action) : OpenedBy (past ++ [e]) i y r (after ++ [e]) where
  split := by
    obtain ⟨before, q, rfl, hFree, hLength⟩ := h.split
    exact ⟨before, q, by simp, hFree, hLength⟩
  isStream := h.isStream
  id := h.id.trans hId.symm

/-! ### Whole runs -/

section

variable {registry : Registry M S} {callTimeout : Option Duration} {capacity : Nat}
  {lifetime : LifetimeId}

/-- What the handler of a stream has received and what waits for it is its input. -/
theorem Life.routed (life : Life (Session.new registry callTimeout capacity lifetime) past s)
    (found : s.servedStreams[i]? = some x) :
    ∃ r after, OpenedBy past i x r after ∧
      past.delivered i ++ x.inbox = r.payload :: after.filterMap (routed? x.id i) := by
  induction life generalizing x with
  | refl => simp [Session.new] at found
  | @step past s host a m' prior last ih =>
      cases hOld : s.servedStreams[i]? with
      | some w =>
          have hId := ((step?_servedStreams last).rel hOld found).id
          obtain ⟨r, after, hOpened, hInput⟩ := ih hOld
          refine ⟨r, _, hOpened.step hId _, ?_⟩
          rw [step?_input (m := ⟨host, s⟩) prior.servingExact.fits hOld last found, hInput,
            filterMap_concat, hId, List.cons_append]
      | none =>
          cases step?_record last found with
          | opened r cause isStream _ new id inbox =>
              obtain ⟨_, cause', _, hFree, _⟩ := step?_new_served last hOld found
              cases cause.symm.trans cause'
              subst cause
              refine ⟨r, [], ⟨⟨past, _, rfl, hFree, new.symm⟩, isStream, id.symm⟩, ?_⟩
              rw [History.delivered_concat, prior.undelivered hOld, inbox]
              rfl
          | kept _ hx | arrived _ _ hx | received _ _ hx | closed _ hx | returned _ _ hx =>
              rw [hOld] at hx
              cases hx

/-- When a stream has left the table, something has ended it while it was in there. -/
theorem Life.left (life : Life (Session.new registry callTimeout capacity lifetime) past s)
    (found : s.servedStreams[i]? = some x) (hGone : s.openStreams.get? x.id ≠ some i) :
    ∃ q a, (q, a) ∈ past ∧ q.session.openStreams.get? x.id = some i ∧ q.Ends a i := by
  induction life generalizing x with
  | refl => simp [Session.new] at found
  | @step past s host a m' prior last ih =>
      have hEnded := (prior.step last).servingExact.ended i x found
      rw [History.ended_append] at hEnded
      have hNow := not_not.mp fun hNot => hGone (hEnded.mpr hNot)
      cases hOld : s.servedStreams[i]? with
      | some w =>
          have hId := ((step?_servedStreams last).rel hOld found).id
          by_cases hOpen : s.openStreams.get? w.id = some i
          · have hBefore := (prior.servingExact.ended i w hOld).mp hOpen
            exact ⟨⟨host, s⟩, a, List.mem_append_right _ (List.mem_singleton.mpr rfl), hId ▸ hOpen,
              hNow.resolve_left hBefore⟩
          · obtain ⟨q, b, hMem, hEntry, hEnds⟩ := ih hOld hOpen
            exact ⟨q, b, List.mem_append_left _ hMem, hId ▸ hEntry, hEnds⟩
      | none =>
          obtain ⟨r, rfl, _, _, _, hi, _⟩ := step?_new_served last hOld found
          rcases hNow with hBefore | hEnds
          · exact absurd (prior.servingExact.bounded i hBefore) (Nat.not_lt.mpr (Nat.le_of_eq hi.symm))
          · exact hEnds.elim

/-- The table has been in order at any time of the past. -/
theorem Life.fitted (life : Life (Session.new registry callTimeout capacity lifetime) past s)
    {q : Machine M S} (h : (q, a) ∈ past) : TableFits q.session := by
  induction life with
  | refl => cases h
  | step prior _ ih =>
      rcases List.mem_append.mp h with h | h
      · exact ih h
      · obtain ⟨rfl, rfl⟩ := Prod.mk.inj (List.mem_singleton.mp h)
        exact prior.servingExact.fits

/-- While its handler runs, only what ends the input of a stream takes it from the table. -/
theorem Life.input_ended (life : Life (Session.new registry callTimeout capacity lifetime) past s)
    (found : s.servedStreams[i]? = some x) (hRunning : x.result = none) :
    s.openStreams.get? x.id ≠ some i ↔
      ∃ q a, (q, a) ∈ past ∧ q.session.openStreams.get? x.id = some i ∧ Action.EndsInput x.id a := by
  constructor
  · intro hGone
    obtain ⟨q, a, hMem, hEntry, hEnds⟩ := life.left found hGone
    refine ⟨q, a, hMem, hEntry, ?_⟩
    cases a with
    | finishServed j value =>
        cases (show j = i from hEnds)
        obtain ⟨z, hz, hResult⟩ := life.returned hMem
        cases hz.symm.trans found
        rw [hRunning] at hResult
        cases hResult
    | stop exhausted => exact .stop exhausted
    | receive e =>
        cases e with
        | bye => exact .bye
        | streamClose id =>
            obtain ⟨z, hz, rfl⟩ := hEnds
            rw [((life.grows_since hMem).servedStreams.rel hz found).id]
            exact .close
        | _ => exact hEnds.elim
    | _ => exact hEnds.elim
  · rintro ⟨q, a, hMem, hEntry, hEnds⟩ hOpen
    refine (life.servingExact.ended i x found).mp hOpen ⟨q, a, hMem, ?_⟩
    obtain ⟨z, hz, hId⟩ := (life.fitted hMem).id x.id i hEntry
    cases hEnds with
    | close => exact ⟨z, hz, hId⟩
    | bye | stop => exact (List.getElem?_eq_some_iff.mp hz).1

end

section

variable {host : Host} {registry : Registry M S} {callTimeout : Option Duration} {capacity : Nat}

/-- Nothing waits for the handler, and nothing more will. -/
structure Exhausted (m : Machine M S) (i : ServedStreamId) (x : ServedStream S) : Prop where
  found : m.session.servedStreams[i]? = some x
  inbox : x.inbox = []
  cutOff : m.session.openStreams.get? x.id ≠ some i ∨ m.isEnded = true

theorem Exhausted.ended (h : m.Exhausted i x) (hExact : ServingExact past m.session)
    (hRooted : m.Rooted) : (m.receiveServed i).1 = .ended := by
  refine (receiveServed_ended_iff h.found).mpr ⟨h.inbox, h.cutOff.imp (hExact.gone i x h.found) ?_⟩
  exact fun hEnded => (hRooted.isCancelled_iff (served_mem_handles h.found)).mpr (.inr hEnded)

/-- A stream is cut off by what ends its input, or by the return of its handler. -/
theorem Life.cutOff_iff {lifetime : LifetimeId}
    (life : Life (Session.new registry callTimeout capacity lifetime) past m.session)
    (found : m.session.servedStreams[i]? = some x) :
    m.session.openStreams.get? x.id ≠ some i ∨ m.isEnded = true ↔
      InputEnded past m i x.id ∨ x.result.isSome = true := by
  cases hResult : x.result with
  | none => simp [InputEnded, ← life.input_ended found hResult, or_comm]
  | some value =>
      have hGone : m.session.openStreams.get? x.id ≠ some i := fun hOpen => by
        rw [(life.servingExact.here i x found hOpen).1] at hResult
        cases hResult
      simp [hGone]

/-- What ends a receive is final, unless somebody has cancelled the lifetime of the stream by name. -/
theorem Exhausted.of_ended
    (exec : Execution (Machine.new host registry callTimeout capacity) past m)
    (found : m.session.servedStreams[i]? = some x)
    (hKept : ∀ q, (q, .cancel x.lifetime) ∈ past → q.session.servedStreams[i]? = none)
    (h : (m.receiveServed i).1 = .ended) : m.Exhausted i x := by
  have hRooted := exec.rooted (rooted_new _ _ _ _)
  obtain ⟨hInbox, hOver⟩ := (receiveServed_ended_iff found).mp h
  refine ⟨found, hInbox, or_iff_not_imp_left.mpr fun hOpen => ?_⟩
  have hEntry := not_not.mp hOpen
  rw [(exec.life.servingExact.here i x found hEntry).2] at hOver
  rcases hOver with hClosed | hCancelled
  · cases hClosed
  · rw [hRooted.isCancelled_iff (served_mem_handles found), exec.unflagged found hKept hEntry]
      at hCancelled
    exact hCancelled.resolve_left Bool.false_ne_true

theorem Exhausted.step (h : m.Exhausted i x) (hExact : ServingExact past m.session)
    (hRooted : m.Rooted) (hStep : m.step? a = some m') : ∃ y, m'.Exhausted i y := by
  obtain ⟨y, found', hKeeps⟩ := step?_servedStreams hStep i x h.found
  have hSame : ∀ z : ServedStream S, m.session.servedStreams[i]? = some z → z = x := fun z hz =>
    Option.some.inj (hz.symm.trans h.found)
  refine ⟨y, found', ?_, ?_⟩
  · cases step?_record hStep found' with
    | opened _ _ _ _ new =>
        have hNone := h.found
        rw [new, List.getElem?_eq_none (Nat.le_refl _)] at hNone
        cases hNone
    | kept z hz _ _ inbox => rw [inbox, hSame z hz, h.inbox]
    | arrived z r hz cause isStream entry =>
        subst cause
        obtain ⟨_, hGoesOn, _⟩ := receive?_eq_some hStep
        obtain ⟨w, hw, hId⟩ := hExact.fits.id r.id i entry
        rcases h.cutOff with hGone | hEnded
        · exact absurd (hId ▸ entry) (hSame w hw ▸ hGone)
        · rw [hEnded] at hGoesOn
          cases hGoesOn
    | received z message hz _ _ inbox =>
        rw [hSame z hz, h.inbox] at inbox
        cases inbox
    | closed z hz _ inbox => rw [inbox, hSame z hz, h.inbox]
    | returned z _ hz _ _ inbox => rw [inbox, hSame z hz, h.inbox]
  · refine h.cutOff.imp (fun hGone hOpen => hGone ?_) (hRooted.isEnded_step hStep)
    rw [hKeeps.id] at hOpen
    exact step?_entry hStep hExact.fits (List.getElem?_eq_some_iff.mp h.found).1 hOpen

theorem Exhausted.later (h : m.Exhausted i x)
    (exec : Execution (Machine.new host registry callTimeout capacity) past m)
    {later : History M S} (hLater : Execution m later m') : (m'.receiveServed i).1 = .ended := by
  have hLasts : ∃ y, m'.Exhausted i y := by
    induction hLater with
    | refl => exact ⟨x, h⟩
    | step prior last ih =>
        obtain ⟨y, hy⟩ := ih
        have hBefore := exec.append prior
        exact hy.step hBefore.life.servingExact (hBefore.rooted (rooted_new _ _ _ _)) last
  obtain ⟨y, hy⟩ := hLasts
  have hReached := exec.append hLater
  exact hy.ended hReached.life.servingExact (hReached.rooted (rooted_new _ _ _ _))

/-- The handler of a stream receives its input completely and in order. What it has received is always a
prefix of the message that opened the stream and of those that were routed to it since, under whatever
method. The next receive returns the next of them if there is one. If there is none, then it returns the end
exactly if the input has ended: by a close with the id, by a bye, or with the session, or, on a handle that
outlives it, by the return of the handler. After that it returns the end forever. A receive that returns
neither leaves everything as it is, so that one that is given up loses nothing. The lifetime of the stream
must not have been cancelled by name. -/
theorem served_input_complete
    (exec : Execution (Machine.new host registry callTimeout capacity) past m)
    (found : m.session.servedStreams[i]? = some x)
    (hKept : ∀ q, (q, .cancel x.lifetime) ∈ past → q.session.servedStreams[i]? = none) :
    ∃ r after, OpenedBy past i x r after ∧
      let input := r.payload :: after.filterMap (routed? x.id i)
      past.delivered i <+: input ∧
      (∀ message, (m.receiveServed i).1 = .message message ↔
        past.delivered i ++ [message] <+: input) ∧
      ((m.receiveServed i).1 = .ended → past.delivered i = input ∧
        ∀ later m', Execution m later m' → (m'.receiveServed i).1 = .ended) ∧
      ((m.receiveServed i).1 = .ended ↔
        past.delivered i = input ∧ (InputEnded past m i x.id ∨ x.result.isSome = true)) ∧
      ((m.receiveServed i).1 = .blocked → (m.receiveServed i).2 = m) := by
  have hExact := exec.life.servingExact
  obtain ⟨r, after, hOpened, hInput⟩ := exec.life.routed found
  have hAll : past.delivered i = r.payload :: after.filterMap (routed? x.id i) ↔ x.inbox = [] := by
    rw [← hInput, List.self_eq_append_right]
  have hEnded : (m.receiveServed i).1 = .ended ↔ m.Exhausted i x :=
    ⟨.of_ended exec found hKept, fun h => h.ended hExact (exec.rooted (rooted_new _ _ _ _))⟩
  refine ⟨r, after, hOpened, ?_, fun message => ?_, fun h => ?_, ?_, fun h => ?_⟩
  · exact hInput ▸ List.prefix_append _ _
  · rw [receiveServed_message_iff found, ← hInput, List.prefix_append_right_inj]
  · exact ⟨hAll.mpr (hEnded.mp h).inbox, fun later m' hLater => (hEnded.mp h).later exec hLater⟩
  · rw [hEnded, hAll, ← exec.life.cutOff_iff found]
    exact ⟨fun h => ⟨h.inbox, h.cutOff⟩, fun h => ⟨found, h.1, h.2⟩⟩
  · obtain ⟨w, message, rest, _, _, he⟩ | ⟨_, hSame⟩ := receiveServed_cases m i
    · rw [he] at h
      cases h
    · exact hSame

end

/-- A stream is opened and its handler receives the message, and then looks in vain. A message of another
method follows with the same id, then a close, and then the id opens another stream. The first handler
still receives its second message before the end. -/
theorem served_input_complete_of_closed : ∃ (past : History Unit Unit) (m : Machine Unit Unit),
    Execution (Machine.new (Host.new false) ⟨[], [⟨"A.c", (), true, true⟩]⟩ none 4) past m ∧
      m.isServing 0 = true ∧ m.isEnded = false ∧ past.heard.length = 4 ∧
      past.delivered 0 = [.ofValue [1], .ofValue [2]] ∧ InputEnded past m 0 7 ∧
      ∀ later m', Execution m later m' → (m'.receiveServed 0).1 = .ended := by
  let message (method : String) (n : UInt8) : Envelope :=
    .request { id := 7, method, payload := .ofValue [n], isStream := true }
  let actions : List Action :=
    [.receive (message "A.c" 1), .receiveServed 0, .receiveServed 0, .receive (message "B.d" 2),
      .receive (.streamClose 7), .receive (message "A.c" 3), .receiveServed 0, .receiveServed 0]
  have hPlay : ((Machine.new (Host.new false) (⟨[], [⟨"A.c", (), true, true⟩]⟩ : Registry Unit Unit)
      none 4).play actions).map (fun r => (r.2.isServing 0 && !r.2.isEnded && r.1.heard.length == 4,
        r.1.delivered 0, r.2.session.servedStreams[0]?.map fun x =>
          (x.id, x.inbox.isEmpty, x.inboxClosed))) =
      some (true, [.ofValue [1], .ofValue [2]], some (7, true, true)) := by decide +kernel
  obtain ⟨⟨past, m⟩, hRun, hFacts⟩ := Option.map_eq_some_iff.mp hPlay
  simp only [Prod.mk.injEq, Option.map_eq_some_iff, Bool.and_eq_true, Bool.not_eq_true', beq_iff_eq,
    List.isEmpty_iff] at hFacts
  obtain ⟨⟨⟨hServing, hGoesOn⟩, hHeard⟩, hDelivered, x, found, hId, hInbox, hClosed⟩ := hFacts
  have exec := Execution.refl.play hRun
  have hKept : ∀ q, (q, .cancel x.lifetime) ∈ past → q.session.servedStreams[0]? = none := by
    intro q hMem
    have hAction : Action.cancel x.lifetime ∈ actions := play_actions hRun ▸ List.mem_map_of_mem hMem
    simp [actions] at hAction
  obtain ⟨r, after, _, _, _, hFinal, hEnd, _⟩ := served_input_complete exec found hKept
  have hOver := (receiveServed_ended_iff found).mpr ⟨hInbox, .inl hClosed⟩
  have hRunning : ¬ x.result.isSome = true := fun hReturned => by
    obtain ⟨z, hz, hNone⟩ := isServing_iff.mp hServing
    cases hz.symm.trans found
    rw [hNone] at hReturned
    cases hReturned
  exact ⟨past, m, exec, hServing, hGoesOn, hHeard, hDelivered,
    hId ▸ (hEnd.mp hOver).2.resolve_right hRunning, (hFinal hOver).2⟩

end PeerLink.Machine
