import PeerLink.Proofs.Link.Direct
import PeerLink.Proofs.Link.Inbound
import PeerLink.Proofs.Session.Unnoted

/-! A session over a transport and a session over queues of envelopes. The second is fed the envelopes whose
packets have arrived at the first. It can do all that the first does, step for step, and so neither the
pieces of the bytes nor the tasks and queues of the transport make any difference to the session. Only the
counts tell them apart: a transport counts the envelopes that have no packet, and a websocket the pings. -/
namespace PeerLink

variable {M S : Type}

/-- The counts with so many more failures and pings. -/
def Meter.raised (m : Meter) (failures pings : Nat) : Meter :=
  if m.active then { m with failures := m.failures + failures, pings := m.pings + pings } else m

namespace Meter

variable (m : Meter) (failures pings : Nat)

theorem raised_zero : m.raised 0 0 = m := by
  unfold raised
  split <;> rfl

theorem failure_raised : (m.raised failures pings).failure = m.raised (failures + 1) pings := by
  obtain ⟨active, _, _, _⟩ := m
  cases active <;> rfl

theorem ping_raised : (m.raised failures pings).ping = m.raised failures (pings + 1) := by
  obtain ⟨active, _, _, _⟩ := m
  cases active <;> rfl

theorem counted_raised {ε α : Type} (result : Except ε α) :
    (m.raised failures pings).counted result = (m.counted result).raised failures pings := by
  obtain ⟨active, successes, _, _⟩ := m
  cases active with
  | false => cases result <;> rfl
  | true =>
      cases result with
      | ok _ => rfl
      | error e =>
          simp only [counted, raised, failure, if_true, Nat.add_right_comm]

/-- What a session counts does not depend on what was counted before. -/
theorem count_raised {a : Machine.Action} (hOwn : ∀ meter journal, a ≠ .others meter journal) :
    a.count (m.raised failures pings) = (a.count m).raised failures pings := by
  cases a with
  | finishRun r result => exact counted_raised m failures pings result
  | finishServed i result => exact counted_raised m failures pings result
  | others meter journal => exact absurd rfl (hOwn meter journal)
  | _ => rfl

end Meter

namespace Linked

/-- The sessions are in the same state, and so are the clocks and the lifetimes around them. -/
structure Alike (l r : Linked M S) : Prop where
  session : r.session = l.session
  now : r.now = l.now
  lifetimes : r.lifetimes = l.lifetimes

/-- What a step of a session over a transport is for one over queues, when these envelopes have arrived
whole in it. -/
def counterpart? (l : Linked M S) (landing : List Envelope) : Action → Option Direct.Action
  | .act a => some (.link (.act a))
  | .read => none
  | .consume => some (.link .consume)
  | .write =>
    match l.view .write with
    | some .take => some (.link .write)
    | some .abandon => some .drop
    | _ => none
  | .outside _ => some (.link (.outside (.envelopes landing)))

/-- The envelopes that have arrived whole in the last step. -/
def History.landing (past : History M S) (packets : List (Envelope × Bytes)) (t : Transport)
    (x : Linked M S × Action) : List Envelope :=
  (History.landed (past ++ [x]) packets t).drop (past.landed packets t).length

/-- A run over queues goes along with a run over a transport, step for step, and their sessions are in the
same state after each of them. -/
inductive InStep (packets : List (Envelope × Bytes)) (start queues : Linked M S) :
    History M S → Linked M S → Direct.History M S → Linked M S → Prop where
  | refl : InStep packets start queues [] start [] queues
  /-- The step is none for the session. -/
  | stay {past : History M S} {l l' : Linked M S} {along : Direct.History M S} {r : Linked M S}
      {x : Action} (prior : InStep packets start queues past l along r) (last : l.step? x = some l')
      (counterpart : l.counterpart? (past.landing packets start.transport (l, x)) x = none)
      (alike : l'.Alike r) : InStep packets start queues (past ++ [(l, x)]) l' along r
  | move {past : History M S} {l l' : Linked M S} {along : Direct.History M S} {r r' : Linked M S}
      {x : Action} {y : Direct.Action} (prior : InStep packets start queues past l along r)
      (last : l.step? x = some l')
      (counterpart : l.counterpart? (past.landing packets start.transport (l, x)) x = some y)
      (step : Direct.step? r y = some r') (alike : l'.Alike r') :
      InStep packets start queues (past ++ [(l, x)]) l' (along ++ [(r, y)]) r'

variable {packets : List (Envelope × Bytes)} {start queues l l' r : Linked M S}
  {past : History M S} {along : Direct.History M S}

theorem InStep.execution (h : InStep packets start queues past l along r) :
    Execution start past l := by
  induction h with
  | refl => exact .refl
  | stay _ last _ _ ih => exact ih.step last
  | move _ last _ _ _ ih => exact ih.step last

theorem InStep.direct (h : InStep packets start queues past l along r) :
    Direct.Execution queues along r := by
  induction h with
  | refl => exact .refl
  | stay _ _ _ _ ih => exact ih
  | move _ _ _ step _ ih => exact ih.step step

theorem alike_of_unnoted (h : l.toMachine.unnoted = r.toMachine.unnoted) : l.Alike r where
  session := (Machine.session_of_unnoted h).symm
  now := (congrArg (fun m => m.now) h).symm
  lifetimes := (congrArg (fun m => m.lifetimes) h).symm

/-- Neither the session nor its transport can move on. -/
structure AtRest (l : Linked M S) : Prop where
  session : l.Settled
  read : l.step? .read = none
  consume : l.step? .consume = none
  write : l.step? .write = none

/-- The session is the only one that counts something. -/
def History.Alone (past : History M S) : Prop :=
  ∀ x ∈ past, ∀ meter journal, x.2 ≠ .act (.others meter journal)

end Linked

theorem Machine.Noted.unnoted {m m' : Machine M S} (h : m.Noted m') : m'.unnoted = m.unnoted := by
  obtain ⟨_, _, rfl⟩ := h
  rfl

theorem Envelope.counted_raised (e : Envelope) (meter : Meter) (taken : List Envelope) (pings : Nat) :
    e.counted (meter.raised (taken.countP isUnencodable) pings) =
      meter.raised ((taken ++ [e]).countP isUnencodable) pings := by
  rw [counted, List.countP_append, List.countP_singleton]
  split
  · rw [Meter.failure_raised]
  · rfl

/-- A session that stops at the end of what comes stops at no other time before. -/
theorem Machine.stopConsuming?_eq_none {m : Machine M S} {exhausted : Bool}
    (h : m.stopConsuming? exhausted = none) : m.stopConsuming? false = none := by
  unfold stopConsuming? at h ⊢
  split at h
  · cases h
  · next hGoing =>
      refine if_neg fun hStops => hGoing ?_
      rw [Bool.or_false] at hStops
      rw [(Bool.and_eq_true_iff.mp hStops).1, (Bool.and_eq_true_iff.mp hStops).2]
      rfl

namespace Transport

variable {t t' : Transport} {m m' : Machine M S}

theorem consume?_unlooked (h : t.consume? m = some (m', t')) : t'.unlooked = t.unlooked := by
  cases t with
  | webSocket w =>
      obtain ⟨_, hSame⟩ | ⟨e, queued, _, _, hNext⟩ := consume?_mailbox h rfl
      · exact unlooked_of_mailbox hSame
      · exact unlooked_of_mailbox hNext
  | paired => cases h
  | _ =>
      obtain ⟨_, _, he⟩ := Option.map_eq_some_iff.mp h
      cases he
      rfl

theorem write?_unlooked (h : t.write? m = some (m', t')) : t'.unlooked = t.unlooked := by
  cases t with
  | webSocket w => exact unlooked_of_mailbox (write?_mailbox h rfl)
  | paired => cases h
  | _ =>
      obtain ⟨_, _, he⟩ := Option.map_eq_some_iff.mp h
      cases he
      rfl

end Transport

namespace Linked

variable {packets : List (Envelope × Bytes)} {start queues l l' r : Linked M S} {x : Action}
  {past : History M S} {along : Direct.History M S} {incoming taken : List Envelope} {pings : Nat}

theorem History.taken_other (h : ∀ a, l.view x = some a → a ≠ .take) :
    (History.session (past ++ [(l, x)])).taken = past.session.taken := by
  rw [History.session_append]
  cases hView : l.view x with
  | none => rw [Option.map_none, Option.toList_none, List.append_nil]
  | some a =>
      rw [Option.map_some, Option.toList_some, Machine.History.taken_append,
        Machine.History.taken_other (h a hView), List.append_nil]

theorem History.taken_take {e : Envelope} {m : Machine M S} (hView : l.view x = some .take)
    (hTake : l.takeOutbound? = some (e, m)) :
    (History.session (past ++ [(l, x)])).taken = past.session.taken ++ [e] := by
  rw [History.session_append, hView, Option.map_some, Option.toList_some,
    Machine.History.taken_append, Machine.History.taken_take hTake]

/-- Where the two runs stand. -/
structure Beside (packets : List (Envelope × Bytes)) (start queues : Linked M S) (past : History M S)
    (l : Linked M S) (along : Direct.History M S) (r : Linked M S) (incoming taken : List Envelope)
    (pings : Nat) : Prop where
  inStep : InStep packets start queues past l along r
  same : l.toMachine.unnoted = r.toMachine.unnoted
  transport : r.transport = .queues { incoming, incomingEnded := false, flow := .free, taken }
  fed : along.fed = past.landed packets start.transport
  /-- What the session has not handled yet waits in the queue. -/
  landed : past.landed packets start.transport = past.session.heard ++ incoming
  collected : past.session.taken = taken
  counts : l.meter = r.meter.raised (taken.countP Envelope.isUnencodable) pings
  pinged : pings + l.transport.unlooked.countP start.transport.isPing =
    past.messages.countP start.transport.isPing

/-- A step in which nothing arrives, and which is none for the session. -/
theorem Beside.stay {pings' : Nat}
    (hBeside : Beside packets start queues past l along r incoming taken pings)
    (h : l.step? x = some l') (hEvent : ∀ event, x ≠ .outside event)
    (hCounterpart : l.counterpart? (past.landing packets start.transport (l, x)) x = none)
    (hSame : l'.toMachine.unnoted = l.toMachine.unnoted) (hView : l.view x = none)
    (hCounts : l'.meter = r.meter.raised (taken.countP Envelope.isUnencodable) pings')
    (hPinged : pings' + l'.transport.unlooked.countP start.transport.isPing =
      past.messages.countP start.transport.isPing) :
    Beside packets start queues (past ++ [(l, x)]) l' along r incoming taken pings' where
  inStep := hBeside.inStep.stay h hCounterpart (alike_of_unnoted (hSame.trans hBeside.same))
  same := hSame.trans hBeside.same
  transport := hBeside.transport
  fed := by
    rw [History.landed_other hEvent]
    exact hBeside.fed
  landed := by
    rw [History.landed_other hEvent, History.heard_other (by simp [hView])]
    exact hBeside.landed
  collected := by
    rw [History.taken_other (by simp [hView])]
    exact hBeside.collected
  counts := hCounts
  pinged := by
    rw [History.messages_other fun message => hEvent (.message message)]
    exact hPinged

theorem Beside.read (hBeside : Beside packets start queues past l along r incoming taken pings)
    (hInbound : Inbound packets start.transport past l) (h : l.step? .read = some l') :
    ∃ pings', Beside packets start queues (past ++ [(l, .read)]) l' along r incoming taken pings' := by
  have hSame : l'.toMachine.unnoted = l.toMachine.unnoted := by
    obtain ⟨⟨m, t⟩, hRead, rfl⟩ := Option.map_eq_some_iff.mp h
    exact (Transport.read?_frame hRead).1.unnoted
  have hPinged := hBeside.pinged
  obtain ⟨hUnlooked, hMeter⟩ | ⟨y, hUnlooked, hMeter⟩ := hInbound.counted l' h
  · exact ⟨pings, hBeside.stay h nofun rfl hSame rfl (hMeter.trans hBeside.counts)
      (hUnlooked ▸ hPinged)⟩
  · rw [hUnlooked, List.countP_cons] at hPinged
    by_cases hPing : start.transport.isPing y = true
    · refine ⟨pings + 1, hBeside.stay h nofun rfl hSame rfl ?_ ?_⟩
      · rw [hMeter, if_pos hPing, hBeside.counts, Meter.ping_raised]
      · rw [if_pos hPing] at hPinged
        omega
    · refine ⟨pings, hBeside.stay h nofun rfl hSame rfl ?_ ?_⟩
      · rw [hMeter, if_neg hPing, hBeside.counts]
      · rwa [if_neg hPing] at hPinged

/-- A step that the session over queues does as well, and in which nothing arrives. -/
theorem Beside.move {y : Direct.Action} {r' : Linked M S} {incoming' taken' : List Envelope}
    (hBeside : Beside packets start queues past l along r incoming taken pings)
    (h : l.step? x = some l') (hEvent : ∀ event, x ≠ .outside event)
    (hCounterpart : l.counterpart? (past.landing packets start.transport (l, x)) x = some y)
    (hStep : Direct.step? r y = some r') (hSame : l'.toMachine.unnoted = r'.toMachine.unnoted)
    (hTransport : r'.transport =
      .queues { incoming := incoming', incomingEnded := false, flow := .free, taken := taken' })
    (hFed : Direct.History.fed [(r, y)] = [])
    (hHeard : (History.session (past ++ [(l, x)])).heard ++ incoming' = past.session.heard ++ incoming)
    (hCollected : (History.session (past ++ [(l, x)])).taken = taken')
    (hCounts : l'.meter = r'.meter.raised (taken'.countP Envelope.isUnencodable) pings)
    (hUnlooked : l'.transport.unlooked = l.transport.unlooked) :
    Beside packets start queues (past ++ [(l, x)]) l' (along ++ [(r, y)]) r' incoming' taken' pings where
  inStep := hBeside.inStep.move h hCounterpart hStep (alike_of_unnoted hSame)
  same := hSame
  transport := hTransport
  fed := by
    rw [History.landed_other hEvent, Direct.History.fed_append, hFed, List.append_nil]
    exact hBeside.fed
  landed := by
    rw [History.landed_other hEvent, hHeard]
    exact hBeside.landed
  collected := hCollected
  counts := hCounts
  pinged := by
    rw [hUnlooked, History.messages_other fun message => hEvent (.message message)]
    exact hBeside.pinged

theorem Beside.act {a : Machine.Action}
    (hBeside : Beside packets start queues past l along r incoming taken pings)
    (hAlone : ∀ meter journal, a ≠ .others meter journal) (h : l.step? (.act a) = some l') :
    ∃ along' r', Beside packets start queues (past ++ [(l, .act a)]) l' along' r' incoming taken pings := by
  have hMoved := h
  rw [step?] at h
  split at h
  · next hLocal =>
      obtain ⟨m, hStep, rfl⟩ := Option.map_eq_some_iff.mp h
      obtain ⟨q, hAlong, hSame⟩ := Machine.step?_of_unnoted hBeside.same hStep
      have hDirect : Direct.step? r (.link (.act a)) = some ⟨q, r.transport⟩ := by
        rw [Direct.step?, step?, if_pos hLocal, hAlong, Option.map_some]
      refine ⟨_, _, hBeside.move hMoved (by simp) rfl hDirect hSame hBeside.transport rfl ?_ ?_ ?_ rfl⟩
      · rw [History.heard_other]
        rintro e hView
        cases hView
        cases hLocal
      · rw [History.taken_other, hBeside.collected]
        rintro _ hView rfl
        cases hView
        cases hLocal
      · have hCounts := hBeside.counts
        dsimp only at hCounts ⊢
        rw [(Machine.step?_shared hStep).2, (Machine.step?_shared hAlong).2, hCounts,
          Meter.count_raised _ _ _ hAlone]
  · cases h

theorem Beside.consume (hBeside : Beside packets start queues past l along r incoming taken pings)
    (hInbound : Inbound packets start.transport past l)
    (hHeard : (History.session (past ++ [(l, .consume)])).heard <+:
      past.landed packets start.transport) (h : l.step? .consume = some l') :
    ∃ along' r' incoming',
      Beside packets start queues (past ++ [(l, .consume)]) l' along' r' incoming' taken pings := by
  have hMoved := h
  obtain ⟨⟨m, t⟩, hConsume, rfl⟩ := Option.map_eq_some_iff.mp h
  obtain ⟨a, hView, hStep, _⟩ := Transport.consume?_frame hConsume
  have hViewed : l.view .consume = some a := hView
  have hUnlooked := Transport.consume?_unlooked hConsume
  have hCollected : a ≠ .take → (History.session (past ++ [(l, .consume)])).taken = taken :=
    fun hOther => by
      rw [History.taken_other fun b hb hTake => ?_, hBeside.collected]
      rw [hViewed] at hb
      exact hOther ((Option.some.inj hb).trans hTake)
  have hMeter : ∀ q, r.toMachine.step? a = some q → (∀ meter journal, a ≠ .others meter journal) →
      m.meter = q.meter.raised (taken.countP Envelope.isUnencodable) pings := fun q hAlong hOwn => by
    rw [(Machine.step?_shared hStep).2, (Machine.step?_shared hAlong).2, hBeside.counts,
      Meter.count_raised _ _ _ hOwn]
  obtain ⟨rfl, m', hStop⟩ | ⟨e, rfl, hGoing⟩ := Transport.consumes_cases hView
  · -- If the session stops since nothing more will come, then it has ended, and so it stops at any rate.
    have hStops : ∀ q : Machine M S, q.isEnded = l.isEnded →
        q.stopConsuming? l.transport.isExhausted = q.stopConsuming? false := fun q hEnded => by
      cases hExhausted : l.transport.isExhausted with
      | false => rfl
      | true =>
          rw [Machine.stopConsuming?, Machine.stopConsuming?, hEnded, hInbound.exhausted hExhausted]
          rfl
    obtain ⟨q, hAlong, hSame⟩ := Machine.step?_of_unnoted hBeside.same hStep
    have hStopped : r.toMachine.stopConsuming? false = some q := by
      rw [← hStops r.toMachine (Machine.isEnded_of_unnoted hBeside.same).symm]
      exact hAlong
    refine ⟨_, _, incoming, hBeside.move hMoved (by simp) rfl
      (Direct.step?_stop hBeside.transport hStopped) hSame hBeside.transport rfl ?_
      (hCollected (by simp)) (hMeter q hAlong (by simp)) hUnlooked⟩
    rw [History.heard_other (by simp [hViewed])]
  · obtain ⟨q, hAlong, hSame⟩ := Machine.step?_of_unnoted hBeside.same hStep
    have hGoes : r.toMachine.stopConsuming? false = none :=
      Machine.step?_eq_none_of_unnoted (a := .stop false) hBeside.same
        (Machine.stopConsuming?_eq_none hGoing)
    rw [History.heard_receive hViewed, hBeside.landed, List.prefix_append_right_inj] at hHeard
    obtain ⟨rest, rfl⟩ := hHeard
    refine ⟨_, _, rest, hBeside.move hMoved (by simp) rfl
      (Direct.step?_receive hBeside.transport hGoes hAlong) hSame rfl rfl ?_ (hCollected (by simp))
      (hMeter q hAlong (by simp)) hUnlooked⟩
    rw [History.heard_receive hViewed, List.append_assoc]

theorem Beside.write {o : Outlet}
    (hBeside : Beside packets start queues past l along r incoming taken pings)
    (hOutlet : l.transport.outlet? = some o) (hAccepts : o.refuses = false)
    (h : l.step? .write = some l') :
    ∃ along' r' taken',
      Beside packets start queues (past ++ [(l, .write)]) l' along' r' incoming taken' pings := by
  obtain ⟨o', _, hStep⟩ := step?_write h hOutlet
  have hMoved := h
  obtain ⟨⟨m, t⟩, hWrite, rfl⟩ := Option.map_eq_some_iff.mp h
  have hUnlooked : t.unlooked = l.transport.unlooked := Transport.write?_unlooked hWrite
  have hPinged : pings + t.unlooked.countP start.transport.isPing =
      past.messages.countP start.transport.isPing := by
    rw [hUnlooked]
    exact hBeside.pinged
  have hQuiet : ∀ e, l.view .write ≠ some (.receive e) := fun e => Transport.write?_quiet hWrite
  generalize hView : l.view .write = a? at hStep
  have hStays : a? = none →
      l.counterpart? (past.landing packets start.transport (l, .write)) .write = none := fun hNone => by
    rw [counterpart?, hView, hNone]
  dsimp only at hStep
  cases hStep with
  | took e hand? m₁ _ isOpen hand live take packet noted meter =>
      obtain ⟨q, hAlong, hSame⟩ := Machine.takeOutbound?_of_unnoted hBeside.same take
      have hCounterpart : l.counterpart? (past.landing packets start.transport (l, .write)) .write =
          some (.link .write) := by rw [counterpart?, hView]
      refine ⟨_, _, taken ++ [e], hBeside.move hMoved nofun hCounterpart
        (Direct.step?_take hBeside.transport hAlong) (noted.unnoted.trans hSame) rfl rfl ?_ ?_ ?_ hUnlooked⟩
      · rw [History.heard_other hQuiet]
      · rw [History.taken_take hView take, hBeside.collected]
      · have hMeter : q.meter = r.meter :=
          (Machine.step?_shared (Machine.takeOutbound?_step hAlong)).2
        rw [meter, hBeside.counts, Envelope.counted_raised]
        exact congrArg (fun meter : Meter => meter.raised _ pings) hMeter.symm
  | put packet packets' isOpen hand flow accepts written =>
      exact ⟨_, _, taken, hBeside.stay hMoved nofun (hStays rfl) rfl hView hBeside.counts hPinged⟩
  | refused packet m₁ hand refuses =>
      rw [hAccepts] at refuses
      cases refuses
  | noticed isOpen hand ended =>
      exact ⟨_, _, taken, hBeside.stay hMoved nofun (hStays rfl) rfl hView hBeside.counts hPinged⟩
  | closing a? m' _ shut _ _ _ _ session =>
      obtain ⟨rfl, rfl⟩ | ⟨rfl, rfl⟩ := session
      · exact ⟨_, _, taken, hBeside.stay hMoved nofun (hStays rfl) rfl hView hBeside.counts hPinged⟩
      · have hCounterpart : l.counterpart? (past.landing packets start.transport (l, .write)) .write =
            some .drop := by rw [counterpart?, hView]
        obtain ⟨q, hAlong, hSame⟩ :=
          Machine.step?_of_unnoted (a := .abandon) hBeside.same rfl
        cases hAlong
        refine ⟨_, _, taken, hBeside.move hMoved nofun hCounterpart rfl hSame hBeside.transport rfl ?_ ?_
          hBeside.counts hUnlooked⟩
        · rw [History.heard_other hQuiet]
        · rw [History.taken_other (by simp [hView]), hBeside.collected]

theorem History.landed_append {x : Linked M S × Action} (t : Transport) :
    History.landed (past ++ [x]) packets t = past.landed packets t ++ past.landing packets t x :=
  (List.prefix_iff_eq_append.mp (History.landed_prefix t)).symm

theorem Beside.outside {event : Event}
    (hBeside : Beside packets start queues past l along r incoming taken pings)
    (hInbound : Inbound packets start.transport past l) (hOpen : event ≠ .ended)
    (h : l.step? (.outside event) = some l') : ∃ along' r' incoming',
      Beside packets start queues (past ++ [(l, .outside event)]) l' along' r' incoming' taken pings := by
  have hArriving := hInbound.arriving event l' hOpen h
  have hMoved := h
  obtain ⟨t, _, rfl⟩ := Option.map_eq_some_iff.mp h
  let landing := past.landing packets start.transport (l, .outside event)
  have hDirect : Direct.step? r (.link (.outside (.envelopes landing))) = some ⟨r.toMachine, .queues
      { incoming := incoming ++ landing, incomingEnded := false, flow := .free, taken }⟩ := by
    rw [Direct.step?, step?, hBeside.transport]
    rfl
  refine ⟨_, _, incoming ++ landing, hBeside.inStep.move hMoved rfl hDirect
    (alike_of_unnoted hBeside.same), hBeside.same, rfl, ?_, ?_, ?_, hBeside.counts, ?_⟩
  · have hFed : Direct.History.fed [(r, .link (.outside (.envelopes landing)))] = landing :=
      List.append_nil landing
    rw [Direct.History.fed_append, hBeside.fed, hFed, History.landed_append]
  · rw [History.landed_append, hBeside.landed, History.heard_other (by simp [view]), List.append_assoc]
  · rw [History.taken_other (by simp [view]), hBeside.collected]
  · rw [hArriving, History.messages_append, List.countP_append, ← hBeside.pinged]
    exact (Nat.add_assoc _ _ _).symm

section Runs

variable {host : Host} {registry : Registry M S} {callTimeout : Option Duration} {capacity : Nat}
  {transport : Transport}

theorem Execution.isEnded_of_mem
    (run : Execution (new host registry callTimeout capacity transport) past l)
    {q : Linked M S} (hMem : (q, x) ∈ past) (hEnded : q.isEnded = true) : l.isEnded = true := by
  induction run with
  | refl => cases hMem
  | step prior last ih =>
      have hRooted := prior.reaches.rooted (Machine.rooted_new host registry callTimeout capacity)
      refine isEnded_step hRooted last ?_
      obtain hMem | hMem := List.mem_append.mp hMem
      · exact ih hMem
      · cases List.mem_singleton.mp hMem
        exact hEnded

theorem Execution.beside (fresh : transport.Fresh)
    (run : Execution (new host registry callTimeout capacity transport) past l)
    (hPackets : ∀ y ∈ packets, Wire.Carries y.1 y.2) (hAccepted : past.Accepted)
    (hAlone : past.Alone) (hOpen : past.Open) (hFed : past.Fed packets transport) :
    ∃ along r incoming taken pings,
      Beside packets (new host registry callTimeout capacity transport)
        (new host registry callTimeout capacity (.queues .new)) past l along r incoming taken pings := by
  induction run with
  | refl =>
      have hEmpty : History.landed ([] : History M S) packets transport = [] := by
        cases fresh with
        | framed room => exact Wire.whole_zero hPackets
        | webSocket room pingMessage => rfl
      have hUnlooked : transport.unlooked = [] := by
        cases fresh with
        | framed room => rfl
        | webSocket room pingMessage => rfl
      exact ⟨[], _, [], [], 0, .refl, rfl, rfl, hEmpty.symm, hEmpty, rfl, (Meter.raised_zero _).symm, by
        rw [new, hUnlooked]
        rfl⟩
  | @step past l l' x prior last ih =>
      have hLast : (l, x) ∈ past ++ [(l, x)] := List.mem_append_right _ (List.mem_singleton.mpr rfl)
      have hBefore : past.Accepted := fun y hy => hAccepted y (List.mem_append_left _ hy)
      have hOpenBefore : past.Open := fun y hy => hOpen y (List.mem_append_left _ hy)
      obtain ⟨along, r, incoming, taken, pings, hBeside⟩ :=
        ih hBefore (fun y hy => hAlone y (List.mem_append_left _ hy)) hOpenBefore hFed.before
      have hInbound := prior.inbound fresh hPackets hOpenBefore hFed.before
      have hAfter := (prior.step last).inbound fresh hPackets hOpen hFed
      cases x with
      | act a =>
          have hOwn : ∀ meter journal, a ≠ .others meter journal := fun meter journal he =>
            hAlone _ hLast meter journal (congrArg Action.act he)
          obtain ⟨along', r', hMoved⟩ := hBeside.act hOwn last
          exact ⟨along', r', incoming, taken, pings, hMoved⟩
      | read =>
          obtain ⟨pings', hMoved⟩ := hBeside.read hInbound last
          exact ⟨along, r, incoming, taken, pings', hMoved⟩
      | consume =>
          have hHeard := hAfter.heard
          rw [History.landed_other (by simp)] at hHeard
          obtain ⟨along', r', incoming', hMoved⟩ := hBeside.consume hInbound hHeard last
          exact ⟨along', r', incoming', taken, pings, hMoved⟩
      | write =>
          obtain ⟨o, hWriting⟩ := prior.writing fresh hBefore
          obtain ⟨along', r', taken', hMoved⟩ :=
            hBeside.write hWriting.outlet hWriting.sound.accepts last
          exact ⟨along', r', incoming, taken', pings, hMoved⟩
      | outside event =>
          have hNotEnded : event ≠ .ended := fun he => hOpen _ hLast (congrArg Action.outside he)
          obtain ⟨along', r', incoming', hMoved⟩ := hBeside.outside hInbound hNotEnded last
          exact ⟨along', r', incoming', taken, pings, hMoved⟩

/-- A session over queues is at rest when the one over the transport is, unless that has ended. -/
theorem Beside.atRest (hBeside : Beside packets start queues past l along r incoming taken pings)
    (hRest : l.AtRest) (hIncoming : incoming = []) (hQueued : l.session.outbound.queued = []) :
    r.AtRest := by
  subst hIncoming
  have hSettled := hRest.session.of_unnoted hBeside.same
  have hTake : r.takeOutbound? = none := by
    have hNone : l.toMachine.step? .take = none := by
      simp [Machine.step?, Machine.takeOutbound?, Outbound.take?, hQueued]
    exact Option.map_eq_none_iff.mp (Machine.step?_eq_none_of_unnoted hBeside.same hNone)
  refine ⟨hSettled, ?_, ?_, ?_⟩
  · simp only [step?, Transport.read?, hBeside.transport, Option.map_none]
  · simp only [step?, Transport.consume?, Link.Queues.consume?, hBeside.transport, Bool.and_false,
      hSettled.consumer, Option.map_none]
  · simp only [step?, Transport.write?, Link.Queues.write?, hBeside.transport, hTake, Option.map_none,
      ite_self]

/-- A session over a transport does nothing that it would not do over queues. While the packets of some
envelopes arrive, as bytes in any pieces or as messages, and the sink accepts what is written, some run over
queues goes along with that over the transport, step for step. It is fed the envelopes that have arrived
whole, the sessions are always in the same state, and what is written are the packets of the envelopes that
are taken from the queue. The counts are the same but for the envelopes that have no packet and the pings
that were looked at. When nothing moves on in a live session, all that has arrived was handled in both. -/
theorem transport_goes_along (fresh : transport.Fresh)
    (hEncode : ∀ y ∈ packets, Wire.Streamable y.1 y.2)
    (hErrors : ∀ y ∈ packets, ∀ id error, y.1 = .response ⟨id, .error error⟩ →
      error.name ≠ "" ∧ error.message ≠ "")
    (run : Execution (new host registry callTimeout capacity transport) past l)
    (hAccepted : past.Accepted) (hAlone : past.Alone) (hOpen : past.Open)
    (hFed : past.Fed packets transport) :
    ∃ along r incoming taken pings,
      InStep packets (new host registry callTimeout capacity transport)
        (new host registry callTimeout capacity (.queues .new)) past l along r ∧
      l.Alike r ∧
      along.fed = past.landed packets transport ∧
      r.transport = .queues { incoming, incomingEnded := false, flow := .free, taken } ∧
      l.meter = r.meter.raised (taken.countP Envelope.isUnencodable) pings ∧
      pings + l.transport.unlooked.countP transport.isPing = past.messages.countP transport.isPing ∧
      written past l ++ l.hand = taken.filterMap Envelope.packet? ∧
      (l.AtRest → l.isFlowing = true → l.hand = [] ∧
        (l.isEnded = false → incoming = [] ∧ l.transport.unlooked = [] ∧ r.AtRest)) := by
  have hPackets : ∀ y ∈ packets, Wire.Carries y.1 y.2 := fun y hy =>
    ⟨hEncode y hy, Wire.delivered_of_complete (hErrors y hy)⟩
  obtain ⟨along, r, incoming, taken, pings, hBeside⟩ :=
    run.beside fresh hPackets hAccepted hAlone hOpen hFed
  obtain ⟨o, hWriting⟩ := run.writing fresh hAccepted
  refine ⟨along, r, incoming, taken, pings, hBeside.inStep, alike_of_unnoted hBeside.same, hBeside.fed,
    hBeside.transport, hBeside.counts, hBeside.pinged, ?_, fun hRest hFlowing => ?_⟩
  · rw [hand_eq hWriting.outlet, hWriting.written_hand, History.collected, hBeside.collected]
  · have hWrite := Option.map_eq_none_iff.mp hRest.write
    rw [isFlowing_eq hWriting.outlet] at hFlowing
    have hIdle := fun hWriter => Transport.write?_eq_none hWrite hWriting.outlet hWriter hFlowing
    refine ⟨?_, fun hLive => ?_⟩
    · rw [hand_eq hWriting.outlet]
      cases hWriter : o.isOpen with
      | true => rw [(hIdle hWriter).1, Option.toList_none]
      | false => rw [hWriting.sound.hand hWriter, Option.toList_none]
    · -- A writer stops only when the session has ended.
      have hWriter : o.isOpen = true := by
        by_contra hShut
        obtain ⟨before, q, after, rfl, _, hEnded, _⟩ := hWriting.noticed (Bool.eq_false_iff.mpr hShut)
        rw [run.isEnded_of_mem (List.mem_append_right _ List.mem_cons_self) hEnded] at hLive
        cases hLive
      obtain ⟨hUnlooked, hHeard⟩ :=
        (run.inbound fresh hPackets hOpen hFed).rest hLive hRest.read hRest.consume
      have hIncoming : incoming = [] := by
        have hLanded := hBeside.landed
        rwa [hHeard, new, List.self_eq_append_right] at hLanded
      exact ⟨hIncoming, hUnlooked, hBeside.atRest hRest hIncoming (hIdle hWriter).2⟩

end Runs

theorem mem_of_play {final : Linked M S} {actions : List Action} {y : Linked M S × Action}
    (h : l.play actions = some (past, final)) (hy : y ∈ past) : y.2 ∈ actions := by
  rw [← play_actions h]
  exact List.mem_map_of_mem hy

theorem atRest_iff : l.AtRest ↔ (l.isSettled && (l.step? .read).isNone && (l.step? .consume).isNone &&
    (l.step? .write).isNone) = true := by
  simp only [Bool.and_eq_true, Machine.isSettled_iff, Option.isNone_iff_eq_none]
  exact ⟨fun ⟨hSession, hRead, hConsume, hWrite⟩ => ⟨⟨⟨hSession, hRead⟩, hConsume⟩, hWrite⟩,
    fun ⟨⟨⟨hSession, hRead⟩, hConsume⟩, hWrite⟩ => ⟨hSession, hRead, hConsume, hWrite⟩⟩

/-- A call of a method that nobody serves arrives in two pieces, and its refusal is written. -/
theorem transport_goes_along_of_refusal :
    ∃ (packets : List (Envelope × Bytes)) (past : History Unit Unit) (l : Linked Unit Unit)
      (along : Direct.History Unit Unit) (r : Linked Unit Unit),
      (Transport.framed (.new 8)).Fresh ∧
      (∀ y ∈ packets, Wire.Streamable y.1 y.2) ∧
      (∀ y ∈ packets, ∀ id error, y.1 = .response ⟨id, .error error⟩ →
        error.name ≠ "" ∧ error.message ≠ "") ∧
      Execution (new (Host.new true) Registry.empty none 8 (.framed (.new 8))) past l ∧
      past.Accepted ∧ past.Alone ∧ past.Open ∧ past.Fed packets (.framed (.new 8)) ∧
      l.AtRest ∧ l.isFlowing = true ∧ l.isEnded = false ∧
      InStep packets (new (Host.new true) Registry.empty none 8 (.framed (.new 8)))
        (new (Host.new true) Registry.empty none 8 (.queues .new)) past l along r ∧
      along.fed = packets.map Prod.fst ∧ r.AtRest ∧ (written past l).length = 1 := by
  let call : Envelope :=
    .request { id := 0, method := "A.b", payload := ⟨"", [5]⟩, isStream := false }
  let packet : Bytes := [1, 0, 0, 0, 8, 0, 0, 0, 0, 0, 3, 65, 46, 98, 0, 0, 5]
  let start : Linked Unit Unit := new (Host.new true) Registry.empty none 8 (.framed (.new 8))
  have hStreamable : ∀ y ∈ [(call, packet)], Wire.Streamable y.1 y.2 := by
    intro y hy
    cases List.mem_singleton.mp hy
    refine ⟨by decide +kernel, fun bytes hBody => ?_⟩
    have hBytes : Wire.body call = .ok (packet.drop 9) := by decide +kernel
    rw [hBytes] at hBody
    cases hBody
    decide
  have hErrors : ∀ y ∈ [(call, packet)], ∀ id error, y.1 = .response ⟨id, .error error⟩ →
      error.name ≠ "" ∧ error.message ≠ "" := by
    intro y hy id error he
    cases List.mem_singleton.mp hy
    cases he
  have hPlay : (start.play [.outside (.source (.chunk (packet.take 4))), .read,
      .outside (.source (.chunk (packet.drop 4))), .read, .read, .consume, .act (.startRefusal 0),
      .act (.advance 0), .write, .write]).map (fun x => (x.1.arrived, x.2.isSettled &&
        (x.2.step? .read).isNone && (x.2.step? .consume).isNone && (x.2.step? .write).isNone,
        x.2.isFlowing, x.2.isEnded, (written x.1 x.2).length)) =
      some ([.chunk (packet.take 4), .chunk (packet.drop 4)], true, true, false, 1) := by
    decide +kernel
  obtain ⟨⟨past, l⟩, hRun, hFacts⟩ := Option.map_eq_some_iff.mp hPlay
  simp only [Prod.mk.injEq] at hFacts
  obtain ⟨hArrived, hRest, hFlowing, hLive, hWritten⟩ := hFacts
  have run := Execution.refl.play hRun
  rw [List.nil_append] at run
  have hAccepted : past.Accepted := accepted_of_play hRun (by simp)
  have hAlone : past.Alone := fun y hy meter journal he => by
    have hMem := mem_of_play hRun hy
    simp [he] at hMem
  have hOpen : past.Open := fun y hy he => by
    have hMem := mem_of_play hRun hy
    simp [he] at hMem
  have hFed : past.Fed [(call, packet)] (.framed (.new 8)) := by
    rw [History.Fed, hArrived]
    exact ⟨rfl, ⟨[], rfl⟩⟩
  have hRest := atRest_iff.mpr hRest
  have hFresh := Transport.Fresh.framed 8
  obtain ⟨along, r, incoming, taken, pings, hInStep, _, hAll, _, _, _, _, hEnd⟩ :=
    transport_goes_along hFresh hStreamable hErrors run hAccepted hAlone hOpen hFed
  have hLanded : past.landed [(call, packet)] (.framed (.new 8)) = [call] :=
    landed_of_bytes (by rw [hArrived]; rfl)
  exact ⟨[(call, packet)], past, l, along, r, hFresh, hStreamable, hErrors, run, hAccepted, hAlone, hOpen,
    hFed, hRest, hFlowing, hLive, hInStep, hAll.trans hLanded, ((hEnd hRest hFlowing).2 hLive).2.2,
    hWritten⟩

/-! ### What only a websocket counts -/

/-- A text that is the agreed ping is counted over a websocket, and whatever happens over queues it is not
counted there. -/
theorem ping_counted_over_webSocket : ∃ (past : History Unit Unit) (l : Linked Unit Unit),
    Execution (new (Host.new true) Registry.empty none 8 (.webSocket (.new 8 "__ping__"))) past l ∧
    past.map Prod.snd = [.outside (.message (.text "__ping__")), .read] ∧
    past.Fed [] (.webSocket (.new 8 "__ping__")) ∧ l.AtRest ∧ l.isEnded = false ∧ l.meter.pings = 1 ∧
    ∀ (along : Direct.History Unit Unit) (r : Linked Unit Unit),
      Direct.Execution (new (Host.new true) Registry.empty none 8 (.queues .new)) along r →
      (∀ x ∈ along, ∀ meter journal, x.2 ≠ .link (.act (.others meter journal))) →
      r.meter.pings ≠ l.meter.pings := by
  let start : Linked Unit Unit :=
    new (Host.new true) Registry.empty none 8 (.webSocket (.new 8 "__ping__"))
  have hPlay : (start.play [.outside (.message (.text "__ping__")), .read]).map
      (fun x => (x.1.messages, x.2.isSettled && (x.2.step? .read).isNone &&
        (x.2.step? .consume).isNone && (x.2.step? .write).isNone, x.2.isEnded, x.2.meter.pings)) =
      some ([.text "__ping__"], true, false, 1) := by decide +kernel
  obtain ⟨⟨past, l⟩, hRun, hFacts⟩ := Option.map_eq_some_iff.mp hPlay
  simp only [Prod.mk.injEq] at hFacts
  obtain ⟨hMessages, hRest, hLive, hPings⟩ := hFacts
  have run := Execution.refl.play hRun
  rw [List.nil_append] at run
  refine ⟨past, l, run, play_actions hRun, ?_, atRest_iff.mpr hRest, hLive, hPings,
    fun along r queues hAlone => ?_⟩
  · rw [History.Fed, hMessages]
    exact ⟨by simp, List.nil_prefix⟩
  · rw [(pings_over_queues queues hAlone).2, hPings]
    decide

end Linked

end PeerLink
