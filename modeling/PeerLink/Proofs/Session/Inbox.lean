import PeerLink.Proofs.Session.Reopening

/-! What the handler of a stream receives, against the messages that were handled with its id. Messages
wait in the inbox of the stream and are taken out in order. Which stream gets a message is decided by the
table, and the first stream with an id gets all of its messages as long as it is in there, so it has the
first of them (`Life.inbox`). -/
namespace PeerLink

variable {M S : Type}

/-- The payload of a stream message with this id. -/
def Envelope.message? (id : Int32) : Envelope → Option Payload
  | .request r => if r.isStream ∧ r.id = id then some r.payload else none
  | _ => none

/-- The stream is the first one that was served with its id. -/
structure Session.ServedFirst (s : Session M S) (i : ServedStreamId) (y : ServedStream S) : Prop where
  found : s.servedStreams[i]? = some y
  first : ∀ (j : ServedStreamId) (z : ServedStream S), s.servedStreams[j]? = some z → z.id = y.id →
    i ≤ j

theorem Session.ServedFirst.of_grows {s s' : Session M S} {i : ServedStreamId} {x y : ServedStream S}
    (hFirst : s'.ServedFirst i y) (hGrows : s.Grows s') (found : s.servedStreams[i]? = some x) :
    s.ServedFirst i x := by
  refine ⟨found, fun j z hz hId => ?_⟩
  have hKeeps := hGrows.servedStreams.rel found hFirst.found
  obtain ⟨w, hw, hKeepsZ⟩ := hGrows.servedStreams j z hz
  exact hFirst.first j w hw (hKeepsZ.id.trans (hId.trans hKeeps.id.symm))

namespace Machine

variable {m m' : Machine M S} {a : Action} {past : History M S} {s : Session M S} {i : ServedStreamId}

/-- The message that an action returns to the handler of the stream. -/
def delivery? (i : ServedStreamId) (x : Machine M S × Action) : Option Payload :=
  match x.2 with
  | .receiveServed j =>
    if j = i then
      match (x.1.receiveServed i).1 with
      | .message message => some message
      | _ => none
    else none
  | _ => none

/-- The messages that the handler of the stream has received. -/
def History.delivered (past : History M S) (i : ServedStreamId) : List Payload :=
  past.filterMap (delivery? i)

theorem History.delivered_concat (past : History M S) (x : Machine M S × Action)
    (i : ServedStreamId) :
    History.delivered (past ++ [x]) i = past.delivered i ++ (delivery? i x).toList :=
  filterMap_concat _ _ _

/-! ### One action -/

theorem delivery?_eq_some {message : Payload} :
    delivery? i (m, a) = some message ↔
      a = .receiveServed i ∧ (m.receiveServed i).1 = .message message := by
  cases a with
  | receiveServed j =>
      by_cases hj : j = i
      · subst hj
        simp only [delivery?, if_true, true_and]
        cases (m.receiveServed j).1 <;> simp
      · simp [delivery?, hj]
  | _ => simp [delivery?]

/-- What one action does to the record of a stream. Whether its input is closed is left out. -/
inductive RecordStep (m : Machine M S) (a : Action) (i : ServedStreamId) (y : ServedStream S) :
    Prop where
  | opened (r : Request) (cause : a = .receive (.request r)) (isStream : r.isStream = true)
      (registered : (m.session.registry.stream? r.method).isSome)
      (new : i = m.session.servedStreams.length) (id : y.id = r.id) (inbox : y.inbox = [r.payload])
      (unclosed : y.closeSent = false) (running : y.result = none)
  | kept (x : ServedStream S) (found : m.session.servedStreams[i]? = some x)
      (passed : ∀ r, a = .receive (.request r) → r.isStream = true →
        m.session.openStreams.get? r.id ≠ some i)
      (delivery : delivery? i (m, a) = none) (inbox : y.inbox = x.inbox)
      (closeSent : y.closeSent = x.closeSent) (result : y.result = x.result)
  | arrived (x : ServedStream S) (r : Request) (found : m.session.servedStreams[i]? = some x)
      (cause : a = .receive (.request r)) (isStream : r.isStream = true)
      (entry : m.session.openStreams.get? r.id = some i) (inbox : y.inbox = x.inbox ++ [r.payload])
      (closeSent : y.closeSent = x.closeSent) (result : y.result = x.result)
  | received (x : ServedStream S) (message : Payload) (found : m.session.servedStreams[i]? = some x)
      (cause : a = .receiveServed i) (delivery : delivery? i (m, a) = some message)
      (inbox : x.inbox = message :: y.inbox) (closeSent : y.closeSent = x.closeSent)
      (result : y.result = x.result)
  | closed (x : ServedStream S) (found : m.session.servedStreams[i]? = some x)
      (cause : a = .closeServed i) (inbox : y.inbox = x.inbox) (result : y.result = x.result)
  | returned (x : ServedStream S) (value : Except Failure Unit)
      (found : m.session.servedStreams[i]? = some x) (cause : a = .finishServed i value)
      (running : x.result = none) (inbox : y.inbox = x.inbox) (result : y.result = some value)

theorem RecordStep.same {y : ServedStream S} (found : m.session.servedStreams[i]? = some y)
    (passed : ∀ r, a = .receive (.request r) → r.isStream = true →
      m.session.openStreams.get? r.id ≠ some i)
    (delivery : delivery? i (m, a) = none) : m.RecordStep a i y :=
  .kept y found passed delivery rfl rfl rfl

theorem RecordStep.of_closes {m₁ : Machine M S} {ended : List ServedStreamId} {y : ServedStream S}
    (closes : m.Closes m₁ ended) (found : m₁.session.servedStreams[i]? = some y)
    (passed : ∀ r, a ≠ .receive (.request r)) (delivery : delivery? i (m, a) = none) :
    m.RecordStep a i y := by
  rw [closes.streams] at found
  obtain ⟨x, hx, rfl⟩ := Option.map_eq_some_iff.mp found
  refine .kept x hx (fun r hr => absurd hr (passed r)) delivery ?_ ?_ ?_
  all_goals split <;> rfl

theorem handleStream_record {r : Request} (isStream : r.isStream = true) {y : ServedStream S}
    (found : (m.handleStream r).session.servedStreams[i]? = some y) :
    m.RecordStep (.receive (.request r)) i y := by
  have hPassed : m.session.openStreams.get? r.id ≠ some i → ∀ r', Action.receive (.request r) =
      .receive (.request r') → r'.isStream = true → m.session.openStreams.get? r'.id ≠ some i := by
    intro hne r' hr'
    cases hr'
    exact fun _ => hne
  obtain ⟨k, hk, he⟩ | ⟨hFree, _, he⟩ | ⟨method, hFree, hMethod, he⟩ := handleStream_cases m r
  · rw [he] at found
    obtain ⟨hne, hOld⟩ | ⟨rfl, x, hx, rfl⟩ := getElem?_modify_eq_some found
    · exact .same hOld (hPassed fun hi => hne (Option.some.inj (hi.symm.trans hk))) rfl
    · exact .arrived x r hx rfl isStream hk rfl rfl rfl
  · rw [he] at found
    exact .same found (hPassed (by rw [hFree]; nofun)) rfl
  · rw [he] at found
    obtain hOld | ⟨rfl, rfl⟩ := getElem?_concat_eq_some found
    · exact .same hOld (hPassed (by rw [hFree]; nofun)) rfl
    · exact .opened r rfl isStream (by rw [hMethod]; rfl) rfl rfl rfl rfl rfl

theorem handle_record {e : Envelope} {y : ServedStream S}
    (found : (m.handle e).session.servedStreams[i]? = some y) : m.RecordStep (.receive e) i y := by
  cases e with
  | request r =>
      cases hStream : r.isStream with
      | true =>
          simp only [handle, hStream, if_true] at found
          exact handleStream_record hStream found
      | false =>
          simp only [handle, hStream, Bool.false_eq_true, if_false] at found
          have hOld : m.session.servedStreams[i]? = some y := by
            obtain ⟨_, he⟩ | ⟨_, _, he⟩ := handleCall_cases m r
            · rw [he] at found
              exact found
            · rw [he] at found
              exact found
          refine .same hOld (fun r' hr' hStream' => ?_) rfl
          cases hr'
          rw [hStream] at hStream'
          cases hStream'
  | streamClose id =>
      simp only [handle, handleStreamClose] at found
      split at found
      · next k _ => exact .of_closes (closes_closeServed m k) found (fun _ hr => by cases hr) rfl
      · exact .same found (fun _ hr => by cases hr) rfl
  | bye => exact .of_closes (closes_closeOpenStreams m) found (fun _ hr => by cases hr) rfl
  | _ =>
      rw [handle_session] at found
      exact .same found (fun _ hr => by cases hr) rfl

theorem step?_record (h : m.step? a = some m') {y : ServedStream S}
    (found : m'.session.servedStreams[i]? = some y) : m.RecordStep a i y := by
  cases a with
  | closeServed j =>
      obtain ⟨_, _, _, rfl⟩ := closeByHandler?_eq_some h
      obtain ⟨_, hOld⟩ | ⟨rfl, x, hx, rfl⟩ := getElem?_modify_eq_some found
      · exact .same hOld (fun _ hr => by cases hr) rfl
      · exact .closed x hx rfl rfl rfl
  | receiveServed j =>
      cases h
      obtain ⟨x, message, rest, hx, hInbox, he⟩ | ⟨hNothing, he⟩ := receiveServed_cases m j
      · rw [he] at found
        obtain ⟨hne, hOld⟩ | ⟨rfl, z, hz, rfl⟩ := getElem?_modify_eq_some found
        · exact .same hOld (fun _ hr => by cases hr) (if_neg (Ne.symm hne))
        · cases hx.symm.trans hz
          exact .received x message hx rfl (delivery?_eq_some.mpr ⟨rfl, by rw [he]⟩) hInbox rfl rfl
      · rw [he] at found
        refine .same found (fun _ hr => by cases hr) (Option.eq_none_iff_forall_ne_some.mpr fun message hSome => ?_)
        obtain ⟨hSame, hMessage⟩ := delivery?_eq_some.mp hSome
        cases hSame
        exact hNothing message hMessage
  | finishServed j result =>
      obtain ⟨x, hx, hRunning, rfl⟩ := step?_finishServed_eq_some h
      obtain ⟨_, _, _, hStreams⟩ := finishServed_effect hx result
      rw [hStreams, (closes_removeServed m j x.id).streams, Option.map_map] at found
      obtain ⟨z, hz, rfl⟩ := Option.map_eq_some_iff.mp found
      simp only [Function.comp_apply]
      by_cases hi : i = j
      · subst hi
        cases hx.symm.trans hz
        simp only [if_true]
        refine .returned x result hx rfl hRunning ?_ rfl
        split <;> rfl
      · simp only [if_neg hi]
        refine .kept z hz (fun _ hr => by cases hr) rfl ?_ ?_ ?_
        all_goals split <;> rfl
  | receive e =>
      obtain ⟨_, _, rfl⟩ := receive?_eq_some h
      exact handle_record found
  | stop exhausted =>
      obtain ⟨_, _, rfl⟩ := stopConsuming?_eq_some h
      exact .of_closes (closes_closeOpenStreams m) found (fun _ hr => by cases hr) rfl
  | _ =>
      rw [step?_frame h] at found
      exact .same found (fun _ hr => by cases hr) rfl

/-- A handler returns by its own return only, and until then nobody else closes its stream. -/
theorem step?_marks (h : m.step? a = some m') {x y : ServedStream S}
    (found : m.session.servedStreams[i]? = some x) (found' : m'.session.servedStreams[i]? = some y)
    (hFinish : ∀ value, a ≠ .finishServed i value) :
    y.result = x.result ∧ (a ≠ .closeServed i → y.closeSent = x.closeSent) := by
  have hSame : ∀ z : ServedStream S, m.session.servedStreams[i]? = some z → z = x := fun z hz =>
    Option.some.inj (hz.symm.trans found)
  cases step?_record h found' with
  | opened _ _ _ _ new =>
      rw [new, List.getElem?_eq_none (Nat.le_refl _)] at found
      cases found
  | kept z hz _ _ _ closeSent result => exact hSame z hz ▸ ⟨result, fun _ => closeSent⟩
  | arrived z _ hz _ _ _ _ closeSent result => exact hSame z hz ▸ ⟨result, fun _ => closeSent⟩
  | received z _ hz _ _ _ closeSent result => exact hSame z hz ▸ ⟨result, fun _ => closeSent⟩
  | closed z hz cause _ result => exact hSame z hz ▸ ⟨result, fun hClose => absurd cause hClose⟩
  | returned _ value _ cause => exact absurd cause (hFinish value)

/-- A stream that was there before does not come back to the table. -/
theorem step?_entry (h : m.step? a = some m') (hFits : TableFits m.session)
    (hOld : i < m.session.servedStreams.length) {id : Int32}
    (entry : m'.session.openStreams.get? id = some i) : m.session.openStreams.get? id = some i := by
  cases step?_served h with
  | kept _ _ _ table _ => exact table ▸ entry
  | opened r _ _ _ _ _ next =>
      rw [next] at entry
      simp only [session_onSession, session_addLifetime, IdTable.get?_insert] at entry
      split at entry
      · exact absurd (Option.some.inj entry) (Nat.ne_of_gt hOld)
      · exact entry
  | ended _ _ _ _ _ _ table _ => exact ((table hFits id i).mp entry).1
  | finished j result x _ found _ next =>
      rw [next, (finishServed_effect found result).1, removeServed_openStreams] at entry
      split at entry
      · rw [IdTable.get?_erase] at entry
        split at entry
        · cases entry
        · exact entry
      · exact entry

/-- Nobody has received anything from a stream that is yet to be opened. -/
theorem Life.undelivered {start : Session M S} (life : Life start past s)
    (hNone : s.servedStreams[i]? = none) : past.delivered i = [] := by
  induction life with
  | refl => rfl
  | @step past s host a m' prior last ih =>
      have hOld : s.servedStreams[i]? = none := by
        rw [List.getElem?_eq_none_iff] at hNone ⊢
        exact Nat.le_trans (step?_grows last).servedStreams.length_le hNone
      have hNothing : delivery? i (⟨host, s⟩, a) = none :=
        Option.eq_none_iff_forall_ne_some.mpr fun message hSome => by
          have hMessage := (delivery?_eq_some.mp hSome).2
          simp only [receiveServed, hOld] at hMessage
          cases hMessage
      rw [History.delivered_concat, ih hOld, hNothing]
      rfl

/-! ### The first stream with an id -/

/-- The messages of the stream, received or waiting, against those that were handled with its id. -/
structure Hears (past : History M S) (s : Session M S) (i : ServedStreamId) (y : ServedStream S) :
    Prop where
  first : past.delivered i ++ y.inbox <+: (History.heard past).filterMap (Envelope.message? y.id)
  all : s.openStreams.get? y.id = some i →
    past.delivered i ++ y.inbox = (History.heard past).filterMap (Envelope.message? y.id)

/-- What was heard more by an action, if it is a message with the id. -/
theorem messages_concat (past : History M S) (id : Int32) :
    (History.heard (past ++ [(m, a)])).filterMap (Envelope.message? id) =
      (History.heard past).filterMap (Envelope.message? id) ++
        (History.heard [(m, a)]).filterMap (Envelope.message? id) := by
  rw [History.heard_append, List.filterMap_append]

theorem messages_other {id : Int32} (hNot : ∀ r, a = .receive (.request r) → r.isStream = true →
    r.id ≠ id) : (History.heard [(m, a)]).filterMap (Envelope.message? id) = [] := by
  cases a with
  | receive e =>
      cases e with
      | request r =>
          have hNone : Envelope.message? id (.request r) = none :=
            if_neg fun h => hNot r rfl h.1 h.2
          simp [History.heard, hNone]
      | _ => rfl
  | _ => rfl

theorem messages_receive {r : Request} (isStream : r.isStream = true) :
    (History.heard [(m, .receive (.request r))]).filterMap (Envelope.message? r.id) = [r.payload] := by
  simp [History.heard, Envelope.message?, isStream]

theorem Hears.step {x y : ServedStream S} (hHears : Hears past m.session i x)
    (hFits : TableFits m.session) (found : m.session.servedStreams[i]? = some x)
    (h : m.step? a = some m') (found' : m'.session.servedStreams[i]? = some y) :
    Hears (past ++ [(m, a)]) m'.session i y := by
  have hId : y.id = x.id := ((step?_servedStreams h).rel found found').id
  have hSame : ∀ z : ServedStream S, m.session.servedStreams[i]? = some z → z = x := fun z hz =>
    Option.some.inj (hz.symm.trans found)
  have hEntry : m'.session.openStreams.get? x.id = some i → m.session.openStreams.get? x.id = some i :=
    step?_entry h hFits (List.getElem?_eq_some_iff.mp found).1
  have hOpen : ∀ {r : Request}, m.session.openStreams.get? r.id = some i → r.id = x.id := by
    intro r hr
    obtain ⟨z, hz, hz'⟩ := hFits.id r.id i hr
    rw [← hz', hSame z hz]
  rw [hId.symm] at hEntry
  -- As long as it is in the table, a stream gets every message with its id.
  have hKept : (∀ r, a = .receive (.request r) → r.isStream = true →
      m.session.openStreams.get? r.id ≠ some i) →
      History.delivered (past ++ [(m, a)]) i ++ y.inbox = past.delivered i ++ x.inbox →
      Hears (past ++ [(m, a)]) m'.session i y := by
    intro hPassed hMessages
    refine ⟨?_, fun hIn => ?_⟩
    · rw [hMessages, messages_concat, hId]
      exact hHears.first.trans (List.prefix_append _ _)
    · have hWas := hEntry hIn
      rw [hId] at hWas
      rw [hMessages, messages_concat, hId, hHears.all hWas, messages_other, List.append_nil]
      rintro r hr isStream hrId
      exact hPassed r hr isStream (hrId ▸ hWas)
  cases step?_record h found' with
  | opened _ _ _ _ new =>
      rw [new, List.getElem?_eq_none (Nat.le_refl _)] at found
      cases found
  | kept z hz passed delivery inbox =>
      cases hSame z hz
      refine hKept passed ?_
      rw [History.delivered_concat, delivery, inbox, Option.toList_none, List.append_nil]
  | arrived z r hz cause isStream entry inbox =>
      cases hSame z hz
      subst cause
      have hrId := hOpen entry
      have hAll : History.delivered (past ++ [(m, .receive (.request r))]) i ++ y.inbox =
          (History.heard (past ++ [(m, .receive (.request r))])).filterMap
            (Envelope.message? y.id) := by
        rw [History.delivered_concat, messages_concat, hId, ← hrId, messages_receive isStream, hrId,
          ← hHears.all (hrId ▸ entry), inbox]
        simp [delivery?]
      exact ⟨hAll ▸ List.prefix_refl _, fun _ => hAll⟩
  | received z message hz cause delivery inbox =>
      cases hSame z hz
      refine hKept (fun r hr => absurd (cause.symm.trans hr) nofun) ?_
      rw [History.delivered_concat, delivery, inbox]
      simp
  | closed z hz cause inbox =>
      cases hSame z hz
      subst cause
      refine hKept nofun ?_
      rw [History.delivered_concat, inbox]
      exact congrArg (· ++ _) (List.append_nil _)
  | returned z value hz cause _ inbox =>
      cases hSame z hz
      subst cause
      refine hKept nofun ?_
      rw [History.delivered_concat, inbox]
      exact congrArg (· ++ _) (List.append_nil _)

section

variable {registry : Registry M S} {callTimeout : Option Duration} {capacity : Nat}
  {lifetime : LifetimeId}

/-- As long as no stream is served with an id, the messages with this id name no registered stream. -/
theorem Life.unserved (life : Life (Session.new registry callTimeout capacity lifetime) past s)
    {id : Int32} (hNone : ∀ (j : ServedStreamId) (z : ServedStream S),
      s.servedStreams[j]? = some z → z.id ≠ id) {r : Request}
    (hHeard : .request r ∈ History.heard past) (isStream : r.isStream = true) (hId : r.id = id) :
    s.registry.stream? r.method = none := by
  induction life with
  | refl => cases hHeard
  | @step past s host a m' prior last ih =>
      have hGrows := step?_grows last
      rw [History.heard_append] at hHeard
      rcases List.mem_append.mp hHeard with hHeard | hHeard
      · rw [hGrows.registry]
        refine ih (fun j z hz hzId => ?_) hHeard
        obtain ⟨y, hy, hKeeps⟩ := hGrows.servedStreams j z hz
        exact hNone j y hy (hKeeps.id.trans hzId)
      · obtain ⟨⟨q, b⟩, hMem, hReceive⟩ := List.mem_filterMap.mp hHeard
        cases List.mem_singleton.mp hMem
        cases a with
        | receive e =>
            cases hReceive
            obtain ⟨_, _, rfl⟩ := receive?_eq_some last
            simp only [handle, isStream, if_true] at hNone ⊢
            obtain ⟨k, hk, he⟩ | ⟨_, hMethod, he⟩ | ⟨_, _, _, he⟩ := handleStream_cases ⟨host, s⟩ r
            · obtain ⟨z, hz, hzId⟩ := prior.servingExact.fits.id r.id k hk
              rw [he] at hNone
              refine absurd (hzId.trans hId) (hNone k { z with inbox := z.inbox ++ [r.payload] } ?_)
              simp [Session.modifyServed, hz]
            · rw [he]
              exact hMethod
            · rw [he] at hNone
              exact absurd hId (hNone s.servedStreams.length _ List.getElem?_concat_length)
        | _ => cases hReceive

/-- The handler of the first stream with an id receives the first messages with this id, in order and
without a gap. -/
theorem Life.inbox (life : Life (Session.new registry callTimeout capacity lifetime) past s)
    {y : ServedStream S} (hFirst : s.ServedFirst i y)
    (hMethod : SameMethod (History.heard past) y.id) : Hears past s i y := by
  induction life generalizing y with
  | refl =>
      obtain ⟨hFound, _⟩ := hFirst
      simp [Session.new] at hFound
  | @step past s host a m' prior last ih =>
      have hGrows := step?_grows last
      cases hOld : s.servedStreams[i]? with
      | some x =>
          have hWas := hFirst.of_grows hGrows hOld
          rw [(hGrows.servedStreams.rel hOld hFirst.found).id] at hMethod
          have hHears := ih hWas fun r r' hr hr' =>
            hMethod r r' (History.mem_heard_of_mem hr _) (History.mem_heard_of_mem hr' _)
          exact hHears.step (m := ⟨host, s⟩) prior.servingExact.fits hOld last hFirst.found
      | none =>
          cases step?_record last hFirst.found with
          | opened r cause isStream registered new id inbox =>
              subst cause
              -- A message before this one would have opened a stream as well.
              have hNone : (History.heard past).filterMap (Envelope.message? y.id) = [] := by
                refine List.filterMap_eq_nil_iff.mpr fun e he => ?_
                cases e with
                | request r' =>
                    refine if_neg fun h => ?_
                    have hUnserved : s.registry.stream? r'.method = none := by
                      refine prior.unserved (fun j z hz hzId => ?_) he h.1 h.2
                      have hLt := (List.getElem?_eq_some_iff.mp hz).1
                      obtain ⟨w, hw, hKeeps⟩ := hGrows.servedStreams j z hz
                      have hLe := hFirst.first j w hw (hKeeps.id.trans hzId)
                      rw [new] at hLe
                      exact absurd hLt (Nat.not_lt.mpr hLe)
                    rw [hMethod r' r (History.mem_heard_of_mem he _) (History.mem_heard_receive _)
                      h.1 isStream h.2 id.symm] at hUnserved
                    rw [hUnserved] at registered
                    cases registered
                | _ => rfl
              have hDelivered := prior.undelivered hOld
              have hAll : History.delivered (past ++ [(⟨host, s⟩, .receive (.request r))]) i ++
                  y.inbox = (History.heard (past ++ [(⟨host, s⟩, .receive (.request r))])).filterMap
                    (Envelope.message? y.id) := by
                rw [History.delivered_concat, messages_concat, hNone, hDelivered, inbox, id,
                  messages_receive isStream]
                rfl
              exact ⟨hAll ▸ List.prefix_refl _, fun _ => hAll⟩
          | kept _ found | arrived _ _ found | received _ _ found | closed _ found
          | returned _ _ found =>
              rw [hOld] at found
              cases found

end

end Machine

end PeerLink
