import PeerLink.Proofs.Link.Reading
import PeerLink.Proofs.Link.Writing

/-! What a writer sends. It writes one packet for each envelope that has one. An envelope that has none is
counted as a failure, and the writer goes on. A write that fails is the last one, and the session ends with
it. Otherwise the writer goes on until the session has ended, and then closes the sink, once and after
everything else. A websocket gets a close message before that. -/
namespace PeerLink

variable {M S : Type}

namespace Link

/-- How many steps the writer can make at most once the session has ended. -/
def SocketWriter.stepsLeft : SocketWriter → Nat
  | .writing _ => 5
  | .idle => 4
  | .sendingClose => 3
  | .closing true => 2
  | .closing false => 1
  | .stopped => 0

namespace Dispatch

/-- The packet that the sink refuses when the writer moves on. -/
def rejects? (d : Dispatch) : Option Written :=
  match d.writer with
  | .writing packet => if d.sink.failure?.isSome then some packet else none
  | _ => none

/-- The sink refuses the close message when the writer moves on. -/
def rejectsClose (d : Dispatch) : Bool :=
  match d.writer with
  | .sendingClose => d.sink.failure?.isSome
  | .closing true => d.sink.failure?.isSome
  | _ => false

/-- The writer closes the sink when it moves on. -/
def isClosing (d : Dispatch) : Bool :=
  d.writer == .closing false

end Dispatch

/-- What became of all that a writer had for its sink. -/
structure Account where
  output : List SocketOutput
  /-- The packets of the envelopes that the writer took. -/
  packets : List Written
  rejected : List Written
  /-- How many close messages were refused. -/
  rejectedCloses : Nat
  /-- How many times the sink was closed, or was to be closed and failed. -/
  closes : Nat

namespace Account

/-- The account after a step of the writer, which took some packets and wrote some output. -/
def next (a : Account) (d : Dispatch) (taken : List Written) (put : List SocketOutput) : Account :=
  { output := a.output ++ put, packets := a.packets ++ taken
    rejected := a.rejected ++ d.rejects?.toList
    rejectedCloses := a.rejectedCloses + if d.rejectsClose then 1 else 0
    closes := a.closes + if d.isClosing then 1 else 0 }

/-- The accounts that a writer can have at each stage, if it sends `farewell` before it closes the sink. -/
inductive At (farewell : List SocketOutput) : SocketWriter → Account → Prop where
  | idle (ps : List Written) : At farewell .idle ⟨ps.map .binary, ps, [], 0, 0⟩
  | writing (ps : List Written) (p : Written) :
      At farewell (.writing p) ⟨ps.map .binary, ps ++ [p], [], 0, 0⟩
  | sendingClose (ps : List Written) : At farewell .sendingClose ⟨ps.map .binary, ps, [], 0, 0⟩
  | unsent (ps : List Written) : At farewell (.closing true) ⟨ps.map .binary, ps, [], 1, 0⟩
  | parted (ps : List Written) (refusals : Nat) (once : refusals ≤ 1) :
      At farewell (.closing false) ⟨ps.map .binary ++ farewell, ps, [], refusals, 0⟩
  | closed (ps : List Written) (refusals : Nat) (once : refusals ≤ 1) :
      At farewell .stopped ⟨ps.map .binary ++ farewell, ps, [], refusals, 1⟩
  | refused (ps : List Written) (p : Written) :
      At farewell .stopped ⟨ps.map .binary, ps ++ [p], [p], 0, 0⟩
  | gaveUp (ps : List Written) : At farewell .stopped ⟨ps.map .binary, ps, [], 2, 0⟩

variable {farewell : List SocketOutput} {writer : SocketWriter} {a : Account}

end Account

end Link

open Link in
/-- A step of the writer leads from an account of its stage to one of the next. -/
theorem DispatchStep.account {m m' : Machine M S} {d d' : Dispatch} {a? : Option Machine.Action}
    (h : DispatchStep m d a? m' d') : ∃ taken put,
      d'.sink.taken = d.sink.taken ++ put ∧ d'.farewell = d.farewell ∧
      ((a? ≠ some .take ∧ taken = []) ∨
        ∃ e m₁, a? = some .take ∧ m.takeOutbound? = some (e, m₁) ∧ taken = e.packet?.toList) ∧
      ∀ a : Account, a.At d.farewell d.writer → (a.next d taken put).At d.farewell d'.writer := by
  obtain ⟨writer, sink, farewell⟩ := d
  have hKept : sink.taken = sink.taken ++ [] := (List.append_nil _).symm
  cases h with
  | took e data m₁ idle live take encoded =>
      cases idle
      refine ⟨[⟨e.id, data⟩], [], hKept, rfl,
        .inr ⟨e, _, rfl, take, by rw [Envelope.packet?_of_ok encoded, Option.toList_some]⟩,
        fun a hAt => ?_⟩
      cases hAt with
      | idle ps =>
          simpa [Account.next, Dispatch.rejects?, Dispatch.rejectsClose, Dispatch.isClosing]
            using @Account.At.writing farewell ps ⟨e.id, data⟩
  | skipped e cause m₁ idle live take unencoded =>
      cases idle
      refine ⟨[], [], hKept, rfl,
        .inr ⟨e, _, rfl, take, by rw [Envelope.packet?_of_error unencoded, Option.toList_none]⟩,
        fun a hAt => ?_⟩
      cases hAt with
      | idle ps =>
          simpa [Account.next, Dispatch.rejects?, Dispatch.rejectsClose, Dispatch.isClosing]
            using @Account.At.idle farewell ps
  | put packet writing flow accepts =>
      cases writing
      have hAccepts : sink.failure? = none := accepts
      refine ⟨[], [.binary packet], rfl, rfl, .inl ⟨nofun, rfl⟩, fun a hAt => ?_⟩
      cases hAt with
      | writing ps =>
          simpa [Account.next, Dispatch.rejects?, Dispatch.rejectsClose, Dispatch.isClosing, hAccepts]
            using @Account.At.idle farewell (ps ++ [packet])
  | refused packet m₁ writing refuses noted =>
      cases writing
      have hRefuses : sink.failure?.isSome = true := refuses
      refine ⟨[], [], hKept, rfl, .inl ⟨nofun, rfl⟩, fun a hAt => ?_⟩
      cases hAt with
      | writing ps =>
          simpa [Account.next, Dispatch.rejects?, Dispatch.rejectsClose, Dispatch.isClosing, hRefuses]
            using @Account.At.refused farewell ps packet
  | noticed writer' idle ended next =>
      cases idle
      refine ⟨[], [], hKept, rfl, .inl ⟨nofun, rfl⟩, fun a hAt => ?_⟩
      cases hAt with
      | idle ps =>
          simp only [Account.next, Dispatch.rejects?, Dispatch.rejectsClose, Dispatch.isClosing]
          obtain ⟨hFarewell, rfl⟩ | ⟨_, rfl⟩ := next
          · have hParted := @Account.At.parted farewell ps 0 (Nat.zero_le 1)
            rw [show farewell = [] from hFarewell] at hParted ⊢
            simpa using hParted
          · simpa using @Account.At.sendingClose farewell ps
  | said parting message flow accepts =>
      have hAccepts : sink.failure? = none := accepts
      refine ⟨[], [.close], rfl, rfl, .inl ⟨nofun, rfl⟩, fun a hAt => ?_⟩
      simp only [show farewell = [.close] from message] at hAt ⊢
      obtain rfl | rfl := parting
      · cases hAt with
        | sendingClose ps =>
            simpa [Account.next, Dispatch.rejects?, Dispatch.rejectsClose, Dispatch.isClosing, hAccepts]
              using @Account.At.parted [.close] ps 0 (Nat.zero_le 1)
      · cases hAt with
        | unsent ps =>
            simpa [Account.next, Dispatch.rejects?, Dispatch.rejectsClose, Dispatch.isClosing, hAccepts]
              using @Account.At.parted [.close] ps 1 (Nat.le_refl 1)
  | unsaid parting refuses =>
      cases parting
      have hRefuses : sink.failure?.isSome = true := refuses
      refine ⟨[], [], hKept, rfl, .inl ⟨nofun, rfl⟩, fun a hAt => ?_⟩
      cases hAt with
      | sendingClose ps =>
          simpa [Account.next, Dispatch.rejects?, Dispatch.rejectsClose, Dispatch.isClosing, hRefuses]
            using @Account.At.unsent farewell ps
  | gaveUp parting refuses =>
      cases parting
      have hRefuses : sink.failure?.isSome = true := refuses
      refine ⟨[], [], hKept, rfl, .inl ⟨nofun, rfl⟩, fun a hAt => ?_⟩
      cases hAt with
      | unsent ps =>
          simpa [Account.next, Dispatch.rejects?, Dispatch.rejectsClose, Dispatch.isClosing, hRefuses]
            using @Account.At.gaveUp farewell ps
  | closed parted =>
      cases parted
      refine ⟨[], [], sink.close_taken.trans hKept, rfl, .inl ⟨nofun, rfl⟩, fun a hAt => ?_⟩
      cases hAt with
      | parted ps refusals once =>
          simpa [Account.next, Dispatch.rejects?, Dispatch.rejectsClose, Dispatch.isClosing]
            using @Account.At.closed farewell ps refusals once

/-- What the writer of a transport sends before it closes its sink. -/
def Transport.farewell : Transport → List Link.SocketOutput
  | .webSocket _ => [.close]
  | _ => []

namespace DispatchStep

variable {m m' : Machine M S} {d d' : Link.Dispatch} {a? : Option Machine.Action}

/-- A writer stops writing when the session has ended, or a failed write ends it. -/
theorem shut (h : DispatchStep m d a? m' d') (hRooted : m.Rooted) (hShut : d'.writer.isOpen = false) :
    d.writer.isOpen = false ∨ m'.isEnded = true := by
  have hCoarse := h.writeStep
  cases h with
  | took e data m₁ idle live take encoded => cases hShut
  | skipped e cause m₁ idle live take unencoded => exact .inl hShut
  | put packet writing flow accepts => cases hShut
  | refused packet m₁ writing refuses noted =>
      have hOpen : d.outlet.isOpen = true := by
        rw [Link.Dispatch.outlet, writing, Link.SocketWriter.isOpen]
      have hHand : d.outlet.hand? = some packet := by
        rw [Link.Dispatch.outlet, writing, Link.SocketWriter.hand?]
      exact .inr (hCoarse.isEnded hRooted hOpen hHand refuses)
  | noticed writer' idle ended next => exact .inr ended
  | said parting message flow accepts =>
      obtain hParting | hParting := parting
      · exact .inl (by rw [hParting]; rfl)
      · exact .inl (by rw [hParting]; rfl)
  | unsaid parting refuses => exact .inl (by rw [parting]; rfl)
  | gaveUp parting refuses => exact .inl (by rw [parting]; rfl)
  | closed parted => exact .inl (by rw [parted]; rfl)

theorem isClosing_of_closed (h : DispatchStep m d a? m' d') (hClosed : d'.sink.closed = true) :
    d.sink.closed = true ∨ d.isClosing = true := by
  cases h with
  | closed parted => exact .inr (by rw [Link.Dispatch.isClosing, parted]; rfl)
  | _ => exact .inl hClosed

/-- What the writer makes of the envelope that it takes. -/
theorem takes (h : DispatchStep m d (some .take) m' d') : ∃ e m₁, m.takeOutbound? = some (e, m₁) ∧
    m'.session = m₁.session ∧ m'.isEnded = false ∧
      (∀ data, Wire.encode e = .ok data → d'.writer = .writing ⟨e.id, data⟩ ∧ m'.meter = m.meter) ∧
      ∀ cause, Wire.encode e = .error cause → d' = d ∧ m'.meter = m.meter.failure := by
  cases h with
  | took e data m₁ idle live take encoded =>
      have hTake := take
      obtain ⟨rest, _, rfl⟩ := Machine.takeOutbound?_eq_some take
      refine ⟨e, _, hTake, rfl, live, fun data' hEncode => ?_, fun cause hEncode => ?_⟩
      · rw [encoded] at hEncode
        cases hEncode
        exact ⟨rfl, rfl⟩
      · rw [encoded] at hEncode
        cases hEncode
  | skipped e cause m₁ idle live take unencoded =>
      have hTake := take
      obtain ⟨rest, _, rfl⟩ := Machine.takeOutbound?_eq_some take
      refine ⟨e, _, hTake, rfl, live, fun data hEncode => ?_, fun _ _ => ⟨rfl, rfl⟩⟩
      rw [unencoded] at hEncode
      cases hEncode

/-- Nothing else is counted. -/
theorem meter_of_other (h : DispatchStep m d a? m' d') (hOther : a? ≠ some .take) :
    m'.meter = m.meter := by
  cases h with
  | took | skipped => exact absurd rfl hOther
  | refused packet m₁ writing refuses noted =>
      obtain rfl | ⟨event, rfl⟩ := noted <;> rfl
  | _ => rfl

/-- A writer whose session has ended comes to an end itself. -/
theorem stepsLeft (h : DispatchStep m d a? m' d') (hEnded : m.isEnded = true) :
    d'.writer.stepsLeft < d.writer.stepsLeft := by
  cases h with
  | took e data m₁ idle live | skipped e cause m₁ idle live =>
      rw [hEnded] at live
      cases live
  | put packet writing => simp [Link.SocketWriter.stepsLeft, writing]
  | refused packet m₁ writing => simp [Link.SocketWriter.stepsLeft, writing]
  | noticed writer' idle ended next =>
      obtain ⟨_, rfl⟩ | ⟨_, rfl⟩ := next
      · simp [Link.SocketWriter.stepsLeft, idle]
      · simp [Link.SocketWriter.stepsLeft, idle]
  | said parting =>
      obtain hParting | hParting := parting
      · simp [Link.SocketWriter.stepsLeft, hParting]
      · simp [Link.SocketWriter.stepsLeft, hParting]
  | unsaid parting => simp [Link.SocketWriter.stepsLeft, parting]
  | gaveUp parting => simp [Link.SocketWriter.stepsLeft, parting]
  | closed parted => simp [Link.SocketWriter.stepsLeft, parted]

end DispatchStep

namespace Linked

variable {l l' : Linked M S} {x : Action} {past : History M S} {d : Link.Dispatch}

/-- What is in the sink and was not looked at. -/
def outputs (l : Linked M S) : List Link.SocketOutput :=
  (l.transport.dispatch?.map fun d => d.sink.taken).getD []

/-- What was looked at, in order. -/
def History.shown (past : History M S) : List Link.SocketOutput :=
  past.flatMap fun x => match x.2 with
    | .outside .looked => x.1.outputs
    | _ => []

/-- All that was written, in order. A buffer of a byte transport stands for a binary message. -/
def output (past : History M S) (l : Linked M S) : List Link.SocketOutput :=
  past.shown ++ l.outputs

/-- Where the writer was, each time before it moved on. -/
def History.writes (past : History M S) : List Link.Dispatch :=
  past.filterMap fun x => match x.2 with
    | .write => x.1.transport.dispatch?
    | _ => none

/-- The packets that the sink refused. -/
def History.rejected (past : History M S) : List Link.Written :=
  past.writes.filterMap Link.Dispatch.rejects?

/-- How many close messages the sink refused. -/
def History.rejectedCloses (past : History M S) : Nat :=
  past.writes.countP Link.Dispatch.rejectsClose

/-- How often the writer closed the sink. -/
def History.closes (past : History M S) : Nat :=
  past.writes.countP Link.Dispatch.isClosing

/-- What became of all that the writer had. -/
def account (past : History M S) (l : Linked M S) : Link.Account :=
  { output := output past l, packets := past.collected, rejected := past.rejected
    rejectedCloses := past.rejectedCloses, closes := past.closes }

theorem History.shown_append :
    History.shown (past ++ [(l, x)]) = past.shown ++ History.shown [(l, x)] :=
  List.flatMap_append

theorem History.shown_other (h : x ≠ .outside .looked) : History.shown [(l, x)] = [] := by
  cases x with
  | outside event =>
      cases event with
      | looked => exact absurd rfl h
      | _ => rfl
  | _ => rfl

theorem History.writes_other (h : x ≠ .write) :
    History.writes (past ++ [(l, x)]) = past.writes := by
  have hNone : History.writes [(l, x)] = [] := by
    cases x with
    | write => exact absurd rfl h
    | _ => rfl
  rw [writes, List.filterMap_append, ← writes, ← writes, hNone, List.append_nil]

theorem History.writes_write (hDispatch : l.transport.dispatch? = some d) :
    History.writes (past ++ [(l, .write)]) = past.writes ++ [d] := by
  rw [writes, List.filterMap_append, ← writes]
  simp [hDispatch]

theorem outputs_eq (h : l.transport.dispatch? = some d) : l.outputs = d.sink.taken := by
  rw [outputs, h, Option.map_some, Option.getD_some]

/-! ### Steps of others -/

/-- What happens at the far end, to the sink. -/
def Event.onSink : Event → Link.Sink Link.SocketOutput Unit → Link.Sink Link.SocketOutput Unit
  | .flow f, s => { s with flow := f }
  | .refuse _, s => { s with failure? := some () }
  | .refuseClose, s => { s with closeFails := true }
  | .looked, s => { s with taken := [] }
  | _, s => s

def Action.onSink : Action → Link.Sink Link.SocketOutput Unit → Link.Sink Link.SocketOutput Unit
  | .outside event => event.onSink
  | _ => id

theorem Event.change?_dispatch {event : Event} {t t' : Transport} (h : event.change? t = some t')
    (hDispatch : t.dispatch? = some d) :
    t'.dispatch? = some { d with sink := event.onSink d.sink } := by
  cases t with
  | queues l => cases hDispatch
  | paired => cases hDispatch
  | framed l =>
      cases hDispatch
      cases event with
      | source e =>
          obtain ⟨_, hArrive⟩ := Option.ite_none_left_eq_some.mp h
          cases hArrive
          rfl
      | _ =>
          cases h
          rfl
  | webSocket l =>
      cases hDispatch
      cases event with
      | message y =>
          obtain ⟨_, hArrive⟩ := Option.ite_none_left_eq_some.mp h
          cases hArrive
          rfl
      | _ =>
          cases h
          rfl

theorem step?_onSink (h : l.step? x = some l') (hOther : x ≠ .write)
    (hDispatch : l.transport.dispatch? = some d) :
    l'.transport.dispatch? = some { d with sink := x.onSink d.sink } := by
  cases x with
  | act a =>
      rw [step?] at h
      split at h
      · obtain ⟨m, _, rfl⟩ := Option.map_eq_some_iff.mp h
        exact hDispatch
      · cases h
  | read =>
      obtain ⟨⟨m, t⟩, hRead, rfl⟩ := Option.map_eq_some_iff.mp h
      exact (Transport.read?_dispatch hRead).2.trans hDispatch
  | consume =>
      obtain ⟨⟨m, t⟩, hConsume, rfl⟩ := Option.map_eq_some_iff.mp h
      obtain ⟨_, _, _, hSame⟩ := Transport.consume?_dispatch hConsume
      exact hSame.trans hDispatch
  | write => exact absurd rfl hOther
  | outside event =>
      obtain ⟨t, hChange, rfl⟩ := Option.map_eq_some_iff.mp h
      exact Event.change?_dispatch hChange hDispatch

theorem onSink_taken (h : x ≠ .outside .looked) (s : Link.Sink Link.SocketOutput Unit) :
    (x.onSink s).taken = s.taken := by
  cases x with
  | outside event =>
      cases event with
      | looked => exact absurd rfl h
      | _ => rfl
  | _ => rfl

theorem onSink_closed (x : Action) (s : Link.Sink Link.SocketOutput Unit) :
    (x.onSink s).closed = s.closed := by
  cases x with
  | outside event => cases event <;> rfl
  | _ => rfl

theorem output_quiet (h : l.step? x = some l') (hOther : x ≠ .write)
    (hDispatch : l.transport.dispatch? = some d) :
    output (past ++ [(l, x)]) l' = output past l := by
  have hAfter := outputs_eq (step?_onSink h hOther hDispatch)
  rw [output, output, History.shown_append, hAfter, outputs_eq hDispatch]
  by_cases hLooked : x = .outside .looked
  · have hShown : History.shown [(l, x)] = d.sink.taken := by
      rw [hLooked, ← outputs_eq hDispatch]
      exact List.append_nil _
    rw [hShown, hLooked]
    exact List.append_nil _
  · rw [History.shown_other hLooked, onSink_taken hLooked, List.append_nil]

/-- Only the writer has a say in what becomes of the packets. -/
theorem account_quiet (h : l.step? x = some l') (hOther : x ≠ .write)
    (hDispatch : l.transport.dispatch? = some d) :
    account (past ++ [(l, x)]) l' = account past l := by
  have hView := (step?_quiet h hOther).2
  rw [account, account, output_quiet h hOther hDispatch,
    History.collected_other fun a ha => (hView a ha).1, History.rejected, History.rejectedCloses,
    History.closes, History.writes_other hOther]
  rfl

/-! ### Steps of the writer -/

theorem step?_dispatch (h : l.step? .write = some l') (hDispatch : l.transport.dispatch? = some d) :
    ∃ d', l'.transport.dispatch? = some d' ∧
      DispatchStep l.toMachine d (l.view .write) l'.toMachine d' := by
  obtain ⟨⟨m, t⟩, hWrite, rfl⟩ := Option.map_eq_some_iff.mp h
  exact Transport.write?_dispatch hWrite hDispatch

/-- The account moves on with the writer. -/
theorem account_write (h : l.step? .write = some l') (hDispatch : l.transport.dispatch? = some d)
    (hAt : (account past l).At d.farewell d.writer) :
    ∃ d', l'.transport.dispatch? = some d' ∧ d'.farewell = d.farewell ∧
      DispatchStep l.toMachine d (l.view .write) l'.toMachine d' ∧
      (account (past ++ [(l, .write)]) l').At d'.farewell d'.writer := by
  obtain ⟨d', hDispatch', hStep⟩ := step?_dispatch h hDispatch
  obtain ⟨taken, put, hTaken, hFarewell, hView, hNext⟩ := hStep.account
  have hPackets : History.collected (past ++ [(l, .write)]) = past.collected ++ taken := by
    obtain ⟨hView, rfl⟩ | ⟨e, m₁, hView, hTake, rfl⟩ := hView
    · rw [History.collected_other fun a ha he => hView (he ▸ ha), List.append_nil]
    · exact History.collected_take hView hTake
  have hOutput : output (past ++ [(l, .write)]) l' = output past l ++ put := by
    have hShown : History.shown [(l, .write)] = [] := rfl
    rw [output, output, History.shown_append, hShown, outputs_eq hDispatch', outputs_eq hDispatch,
      hTaken, List.append_nil, List.append_assoc]
  have hAccount : account (past ++ [(l, .write)]) l' = (account past l).next d taken put := by
    simp only [account, Link.Account.next, hOutput, hPackets, History.rejected,
      History.rejectedCloses, History.closes, History.writes_write hDispatch, List.filterMap_append,
      List.countP_append, List.countP_singleton]
    congr 1
  refine ⟨d', hDispatch', hFarewell, hStep, ?_⟩
  rw [hAccount, hFarewell]
  exact hNext _ hAt

/-- Where a writer is in a run. -/
structure Dispatching (past : History M S) (l : Linked M S) (d : Link.Dispatch) : Prop where
  dispatch : l.transport.dispatch? = some d
  account : (account past l).At d.farewell d.writer
  ended : d.writer.isOpen = false → l.isEnded = true
  closed : d.sink.closed = true → 1 ≤ past.closes

theorem Dispatching.quiet (hDispatching : Dispatching past l d) (hRooted : l.Rooted)
    (h : l.step? x = some l') (hOther : x ≠ .write) :
    Dispatching (past ++ [(l, x)]) l' { d with sink := x.onSink d.sink } where
  dispatch := step?_onSink h hOther hDispatching.dispatch
  account := by
    rw [account_quiet h hOther hDispatching.dispatch]
    exact hDispatching.account
  ended hShut := isEnded_step hRooted h (hDispatching.ended hShut)
  closed hClosed := by
    rw [History.closes, History.writes_other hOther]
    exact hDispatching.closed ((onSink_closed x d.sink).symm.trans hClosed)

theorem Dispatching.write (hDispatching : Dispatching past l d) (hRooted : l.Rooted)
    (h : l.step? .write = some l') :
    ∃ d', Dispatching (past ++ [(l, .write)]) l' d' ∧ d'.farewell = d.farewell := by
  obtain ⟨d', hDispatch', hFarewell, hStep, hAt⟩ :=
    account_write h hDispatching.dispatch hDispatching.account
  refine ⟨d', ⟨hDispatch', hAt, fun hShut => ?_, fun hClosed => ?_⟩, hFarewell⟩
  · obtain hBefore | hEnded := hStep.shut hRooted hShut
    · exact isEnded_step hRooted h (hDispatching.ended hBefore)
    · exact hEnded
  · rw [History.closes, History.writes_write hDispatching.dispatch, List.countP_append,
      List.countP_singleton]
    obtain hBefore | hClosing := hStep.isClosing_of_closed hClosed
    · exact Nat.le_add_right_of_le (hDispatching.closed hBefore)
    · rw [if_pos hClosing]
      exact Nat.le_add_left _ _

theorem Execution.dispatching {host : Host} {registry : Registry M S}
    {callTimeout : Option Duration} {capacity : Nat} {transport : Transport} (fresh : transport.Fresh)
    (run : Execution (new host registry callTimeout capacity transport) past l) :
    ∃ d, Dispatching past l d ∧ d.farewell = transport.farewell := by
  induction run with
  | refl =>
      cases fresh with
      | framed inbound => exact ⟨_, ⟨rfl, .idle [], nofun, nofun⟩, rfl⟩
      | webSocket inbound pingMessage => exact ⟨_, ⟨rfl, .idle [], nofun, nofun⟩, rfl⟩
  | @step past l l' x prior last ih =>
      obtain ⟨d, hDispatching, hFarewell⟩ := ih
      have hRooted := prior.reaches.rooted (Machine.rooted_new host registry callTimeout capacity)
      by_cases hWrite : x = .write
      · subst hWrite
        obtain ⟨d', hNext, hSame⟩ := hDispatching.write hRooted last
        exact ⟨d', hNext, hSame.trans hFarewell⟩
      · exact ⟨_, hDispatching.quiet hRooted last hWrite, hFarewell⟩

/-- How many steps the writer can make at most once the session has ended. -/
def stepsLeft (l : Linked M S) : Nat :=
  (l.transport.dispatch?.map fun d => d.writer.stepsLeft).getD 0

end Linked

end PeerLink
