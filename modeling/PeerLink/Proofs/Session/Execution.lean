import PeerLink.Session.Machine

/-! Runs of one session in any order. The program that owns the session, its handlers and its transport
act whenever they like; the tasks of the session move on only when they can. No fairness is assumed, and
nothing is said about which of several possible actions comes first. -/
namespace PeerLink

/-- Somebody may stop waiting for the send alone. The request of a call is given up together with its
call, and what a session sends from a task of its own is never given up. -/
def Sender.canGiveUp : Sender → Bool
  | .served _ => true
  | .client _ => true
  | .bye => true
  | _ => false

namespace Machine

/-- What can happen to a session in one go. -/
inductive Action where
  /-- The program calls a method of the remote peer. -/
  | call (method : String) (payload : Payload) (timeout : Option Duration)
    (lifetime : Option LifetimeId)
  | dropCall (c : CallId)
  | openStream (method : String)
  | sendClient (c : ClientStreamId) (payload : Payload)
  | closeClient (c : ClientStreamId)
  | receiveClient (c : ClientStreamId)
  | dropClient (c : ClientStreamId)
  | bye
  | close
  /-- Somebody cancels a lifetime, be it one of the session or another. -/
  | cancel (l : LifetimeId)
  | addLifetime (parent : Option LifetimeId)
  | tick (d : Duration)
  /-- Another session counts or notes something. -/
  | others (meter : Meter) (journal : List LogEvent)
  /-- Somebody stops waiting for a send. -/
  | giveUp (t : Ticket)
  /-- A call looks whether it can return. -/
  | pollCall (c : CallId)
  /-- The task that sorts the responses of a stream moves on. -/
  | pollClient (c : ClientStreamId)
  | startRefusal (k : RefusalId)
  /-- A sender moves on. Which of those that wait is left to the schedule. -/
  | advance (t : Ticket)
  /-- The handler of a call returns. -/
  | finishRun (r : RunId) (result : Except HandlerError Payload)
  | sendServed (i : ServedStreamId) (payload : Payload)
  | readyServed (i : ServedStreamId)
  | closeServed (i : ServedStreamId)
  | receiveServed (i : ServedStreamId)
  /-- The handler of a stream returns. -/
  | finishServed (i : ServedStreamId) (result : Except Failure Unit)
  /-- The session handles an envelope of the remote peer. -/
  | receive (e : Envelope)
  /-- The session stops taking envelopes: it has ended, or no more will come. -/
  | stop (exhausted : Bool)
  /-- The transport takes an envelope. -/
  | take
  /-- The transport will take no more envelopes. -/
  | abandon

variable {M S : Type}

/-- The handler of a call has not returned. -/
def isRunning (m : Machine M S) (r : RunId) : Bool :=
  m.session.runs[r]?.any fun run => run.result.isNone

/-- The handler of a stream has not returned. -/
def isServing (m : Machine M S) (i : ServedStreamId) : Bool :=
  m.session.servedStreams[i]?.any fun stream => stream.result.isNone

theorem isRunning_iff {m : Machine M S} {r : RunId} :
    m.isRunning r = true ↔ ∃ run, m.session.runs[r]? = some run ∧ run.result = none := by
  simp [isRunning, Option.any_eq_true]

theorem isServing_iff {m : Machine M S} {i : ServedStreamId} :
    m.isServing i = true ↔
      ∃ stream, m.session.servedStreams[i]? = some stream ∧ stream.result = none := by
  simp [isServing, Option.any_eq_true]

/-- What an action makes of a session, `none` if it cannot happen now. -/
def step? (m : Machine M S) : Action → Option (Machine M S)
  | .call method payload timeout lifetime =>
    (m.startCall method payload timeout lifetime).toOption
  | .dropCall c => some (m.dropCall c)
  | .openStream method => some (m.openStream method)
  | .sendClient c payload => (m.sendClient c payload).toOption
  | .closeClient c => m.closeClient? c
  | .receiveClient c => some (m.receiveClient c).2
  | .dropClient c => some (m.dropClient c)
  | .bye => some m.bye
  | .close => some m.close
  | .cancel l => some (m.cancel l)
  | .addLifetime parent => some (m.addLifetime parent)
  | .tick d => some (m.tick d)
  | .others meter journal => some (m.onHost fun h => { h with meter, journal })
  | .giveUp t =>
    if m.session.sends[t]?.any fun x => x.sender.canGiveUp then
      some (m.onSession fun s => s.giveUp t)
    else none
  | .pollCall c => m.pollCall? c
  | .pollClient c => m.pollClient? c
  | .startRefusal k => m.startRefusal? k
  | .advance t => m.advanceOutbound? t
  | .finishRun r result => if m.isRunning r then some (m.finishRun r result) else none
  | .sendServed i payload => some (m.sendServed i (.payload payload))
  | .readyServed i => some (m.sendServed i (.ready true))
  | .closeServed i => m.closeByHandler? i
  | .receiveServed i => some (m.receiveServed i).2
  | .finishServed i result => if m.isServing i then some (m.finishServed i result) else none
  | .receive e => m.receive? e
  | .stop exhausted => m.stopConsuming? exhausted
  | .take => m.takeOutbound?.map Prod.snd
  | .abandon => some m.abandonOutbound

/-- What has happened, in order: every action with the state in which it was done. -/
abbrev History (M S : Type) := List (Machine M S × Action)

/-- The envelopes of the remote peer that were handled, in order. -/
def History.heard (past : History M S) : List Envelope :=
  past.filterMap fun x => match x.2 with
    | .receive e => some e
    | _ => none

/-- The session gets from `start` to a state by the actions of a history. -/
inductive Execution (start : Machine M S) : History M S → Machine M S → Prop where
  | refl : Execution start [] start
  | step {past : History M S} {m m' : Machine M S} {a : Action}
      (prior : Execution start past m) (last : m.step? a = some m') :
      Execution start (past ++ [(m, a)]) m'

/-- A session among others: between two of its actions anything may happen to what it shares with them.
Only facts that are about the session alone survive that. -/
inductive Life (start : Session M S) : History M S → Session M S → Prop where
  | refl : Life start [] start
  | step {past : History M S} {s : Session M S} {host : Host} {a : Action} {m' : Machine M S}
      (prior : Life start past s) (last : (Machine.mk host s).step? a = some m') :
      Life start (past ++ [(⟨host, s⟩, a)]) m'.session

theorem Execution.life {start m : Machine M S} {past : History M S}
    (exec : Execution start past m) : Life start.session past m.session := by
  induction exec with
  | refl => exact .refl
  | step _ last ih => exact ih.step last

/-- What was done could be done. -/
theorem Life.happened {start s : Session M S} {past : History M S} (life : Life start past s)
    {q : Machine M S} {a : Action} (h : (q, a) ∈ past) : ∃ q', q.step? a = some q' := by
  induction life with
  | refl => cases h
  | step _ last ih =>
      rcases List.mem_append.mp h with h | h
      · exact ih h
      · cases List.mem_singleton.mp h
        exact ⟨_, last⟩

/-- What was done at some time was done in a state that the session had reached, and the rest is an
execution from there. -/
theorem Execution.split {start m q : Machine M S} {before after : History M S} {a : Action}
    (exec : Execution start (before ++ (q, a) :: after) m) :
    Execution start before q ∧ ∃ q', q.step? a = some q' ∧ Execution q' after m := by
  generalize hPast : before ++ (q, a) :: after = past at exec
  induction exec generalizing after with
  | refl => simp at hPast
  | @step past m m' b prior last ih =>
      obtain rfl | ⟨rest, x, rfl⟩ := List.eq_nil_or_concat after
      · obtain ⟨rfl, hLast⟩ := List.append_inj' hPast rfl
        obtain ⟨rfl, rfl⟩ := Prod.mk.inj (List.singleton_inj.mp hLast)
        exact ⟨prior, m', last, .refl⟩
      · rw [List.concat_eq_append, ← List.cons_append, ← List.append_assoc] at hPast
        obtain ⟨hBefore, hLast⟩ := List.append_inj' hPast rfl
        obtain ⟨hReached, q', hStep, hLater⟩ := ih hBefore
        rw [List.concat_eq_append, List.singleton_inj.mp hLast]
        exact ⟨hReached, q', hStep, hLater.step last⟩

/-- The same of a session among others. -/
theorem Life.split {start s : Session M S} {q : Machine M S} {before after : History M S} {a : Action}
    (life : Life start (before ++ (q, a) :: after) s) :
    Life start before q.session ∧ ∃ q', q.step? a = some q' ∧ Life q'.session after s := by
  generalize hPast : before ++ (q, a) :: after = past at life
  induction life generalizing after with
  | refl => simp at hPast
  | @step past s host b m' prior last ih =>
      obtain rfl | ⟨rest, x, rfl⟩ := List.eq_nil_or_concat after
      · obtain ⟨rfl, hLast⟩ := List.append_inj' hPast rfl
        obtain ⟨rfl, rfl⟩ := Prod.mk.inj (List.singleton_inj.mp hLast)
        exact ⟨prior, m', last, .refl⟩
      · rw [List.concat_eq_append, ← List.cons_append, ← List.append_assoc] at hPast
        obtain ⟨hBefore, hLast⟩ := List.append_inj' hPast rfl
        obtain ⟨hReached, q', hStep, hLater⟩ := ih hBefore
        rw [List.concat_eq_append, List.singleton_inj.mp hLast]
        exact ⟨hReached, q', hStep, hLater.step last⟩

/-- What follows an execution makes a longer one. -/
theorem Execution.append {start q m : Machine M S} {before after : History M S}
    (exec : Execution start before q) (later : Execution q after m) :
    Execution start (before ++ after) m := by
  induction later with
  | refl => simpa using exec
  | step _ last ih =>
      rw [← List.append_assoc]
      exact ih.step last

/-- What follows a life makes a longer one. -/
theorem Life.append {start s s' : Session M S} {past later : History M S} (life : Life start past s)
    (rest : Life s later s') : Life start (past ++ later) s' := by
  induction rest with
  | refl => simpa using life
  | step _ last ih =>
      rw [← List.append_assoc]
      exact ih.step last

/-- Do some actions one after another, if each of them can happen in its turn. -/
def play (m : Machine M S) : List Action → Option (History M S × Machine M S)
  | [] => some ([], m)
  | a :: rest =>
    match m.step? a with
    | none => none
    | some m' => (m'.play rest).map fun x => ((m, a) :: x.1, x.2)

/-- Playing actions is an execution, so concrete runs need no derivation by hand. -/
theorem Execution.play {start m final : Machine M S} {past later : History M S}
    (exec : Execution start past m) {actions : List Action}
    (h : m.play actions = some (later, final)) : Execution start (past ++ later) final := by
  induction actions generalizing m past later with
  | nil =>
      obtain ⟨rfl, rfl⟩ := Prod.mk.inj (Option.some.inj h)
      simpa using exec
  | cons a rest ih =>
      cases hStep : m.step? a with
      | none => simp [Machine.play, hStep] at h
      | some m' =>
          simp only [Machine.play, hStep, Option.map_eq_some_iff] at h
          obtain ⟨⟨tail, last⟩, hTail, he⟩ := h
          obtain ⟨rfl, rfl⟩ := Prod.mk.inj he
          simpa using ih (exec.step hStep) hTail

theorem play_actions {m final : Machine M S} {later : History M S} {actions : List Action}
    (h : m.play actions = some (later, final)) : later.map Prod.snd = actions := by
  induction actions generalizing m later with
  | nil =>
      obtain ⟨rfl, rfl⟩ := Prod.mk.inj (Option.some.inj h)
      rfl
  | cons a rest ih =>
      cases hStep : m.step? a with
      | none => simp [play, hStep] at h
      | some m' =>
          simp only [play, hStep, Option.map_eq_some_iff] at h
          obtain ⟨⟨tail, last⟩, hTail, he⟩ := h
          obtain ⟨rfl, rfl⟩ := Prod.mk.inj he
          rw [List.map_cons, ih hTail]

/-- An action that is played is done in the state to which those before it lead. -/
theorem play_at {m final : Machine M S} {past : History M S} {actions : List Action} {a : Action}
    {rest : List Action} (h : m.play (actions ++ a :: rest) = some (past, final)) :
    ∃ before q after, m.play actions = some (before, q) ∧ past = before ++ (q, a) :: after := by
  induction actions generalizing m past with
  | nil =>
      rw [List.nil_append, play] at h
      split at h
      · cases h
      · obtain ⟨⟨tail, last⟩, _, he⟩ := Option.map_eq_some_iff.mp h
        obtain ⟨rfl, rfl⟩ := Prod.mk.inj he
        exact ⟨[], m, tail, rfl, rfl⟩
  | cons b actions ih =>
      rw [List.cons_append, play] at h
      split at h
      · cases h
      · next m' hStep =>
          obtain ⟨⟨tail, last⟩, hTail, he⟩ := Option.map_eq_some_iff.mp h
          obtain ⟨rfl, rfl⟩ := Prod.mk.inj he
          obtain ⟨before, q, after, hBefore, rfl⟩ := ih hTail
          exact ⟨(m, b) :: before, q, after, by simp [play, hStep, hBefore], rfl⟩

theorem advanceOutbound?_eq_none_iff {m : Machine M S} {t : Ticket} :
    m.advanceOutbound? t = none ↔ m.session.outbound.advance? t = none := by
  unfold advanceOutbound?
  split
  · next hNone => simp [hNone]
  · next hSome =>
      rw [hSome]
      split <;> simp

/-- Only who has a send that has not ended can go on with it. -/
theorem advanceOutbound?_eq_none_of_notMem {m : Machine M S} {t : Ticket}
    (h : t ∉ m.session.outbound.tickets) : m.advanceOutbound? t = none := by
  rw [advanceOutbound?_eq_none_iff]
  refine Classical.byContradiction fun hMoves => h ?_
  obtain ⟨_, hFlushing | ⟨_, hWaits⟩⟩ := Outbound.advance?_ne_none_iff.mp hMoves
  · simp [Outbound.tickets, hFlushing]
  · exact List.mem_append_right _ hWaits

/-- No task of the session can move on by itself. Handlers, the program and the remote peer may still
act, and time may pass. -/
structure Settled (m : Machine M S) : Prop where
  outbound : ∀ t, m.advanceOutbound? t = none
  calls : ∀ c, m.pollCall? c = none
  clientStreams : ∀ c, m.pollClient? c = none
  refusals : ∀ k, m.startRefusal? k = none
  consumer : m.stopConsuming? false = none

/-- Whether a session is settled can be found out: only what exists can move on. -/
def isSettled (m : Machine M S) : Bool :=
  m.session.outbound.tickets.all (fun t => (m.advanceOutbound? t).isNone) &&
    (List.range m.session.calls.length).all (fun c => (m.pollCall? c).isNone) &&
    (List.range m.session.clientStreams.length).all (fun c => (m.pollClient? c).isNone) &&
    (List.range m.session.refusals.length).all (fun k => (m.startRefusal? k).isNone) &&
    (m.stopConsuming? false).isNone

theorem isSettled_iff {m : Machine M S} : m.isSettled = true ↔ m.Settled := by
  have hCall : ∀ c, m.session.calls.length ≤ c → m.pollCall? c = none := fun c hc => by
    simp [pollCall?, List.getElem?_eq_none hc]
  have hStream : ∀ c, m.session.clientStreams.length ≤ c → m.pollClient? c = none := fun c hc => by
    simp [pollClient?, List.getElem?_eq_none hc]
  have hRefusal : ∀ k, m.session.refusals.length ≤ k → m.startRefusal? k = none := fun k hk => by
    simp [startRefusal?, List.getElem?_eq_none hk]
  simp only [isSettled, Bool.and_eq_true, List.all_eq_true, List.mem_range,
    Option.isNone_iff_eq_none]
  constructor
  · rintro ⟨⟨⟨⟨hOutbound, hCalls⟩, hStreams⟩, hRefusals⟩, hConsumer⟩
    refine ⟨fun t => ?_, fun c => ?_, fun c => ?_, fun k => ?_, hConsumer⟩
    · by_cases ht : t ∈ m.session.outbound.tickets
      · exact hOutbound t ht
      · exact advanceOutbound?_eq_none_of_notMem ht
    · exact (Nat.lt_or_ge c m.session.calls.length).elim (hCalls c) (hCall c)
    · exact (Nat.lt_or_ge c m.session.clientStreams.length).elim (hStreams c) (hStream c)
    · exact (Nat.lt_or_ge k m.session.refusals.length).elim (hRefusals k) (hRefusal k)
  · rintro ⟨hOutbound, hCalls, hStreams, hRefusals, hConsumer⟩
    exact ⟨⟨⟨⟨fun t _ => hOutbound t, fun c _ => hCalls c⟩, fun c _ => hStreams c⟩, fun k _ => hRefusals k⟩,
      hConsumer⟩

/-! ### What the parts of an operation leave alone -/

@[simp] theorem session_onSession (m : Machine M S) (f : Session M S → Session M S) :
    (m.onSession f).session = f m.session := rfl

@[simp] theorem toHost_onSession (m : Machine M S) (f : Session M S → Session M S) :
    (m.onSession f).toHost = m.toHost := rfl

@[simp] theorem session_onHost (m : Machine M S) (f : Host → Host) :
    (m.onHost f).session = m.session := rfl

@[simp] theorem session_log (m : Machine M S) (e : LogEvent) : (m.log e).session = m.session := rfl

@[simp] theorem lifetimes_log (m : Machine M S) (e : LogEvent) :
    (m.log e).lifetimes = m.lifetimes := rfl

@[simp] theorem session_cancel (m : Machine M S) (l : LifetimeId) :
    (m.cancel l).session = m.session := rfl

@[simp] theorem lifetimes_cancel (m : Machine M S) (l : LifetimeId) :
    (m.cancel l).lifetimes = m.lifetimes.cancel l := rfl

@[simp] theorem session_addLifetime (m : Machine M S) (parent : Option LifetimeId) :
    (m.addLifetime parent).session = m.session := rfl

@[simp] theorem lifetimes_addLifetime (m : Machine M S) (parent : Option LifetimeId) :
    (m.addLifetime parent).lifetimes = m.lifetimes.add parent := rfl

end Machine

end PeerLink
