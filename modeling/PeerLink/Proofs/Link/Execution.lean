import PeerLink.Proofs.Link.Steps
import PeerLink.Proofs.Pair.Execution
import PeerLink.Scenario.Report

/-! Runs of a session together with its transport. The session, the tasks of the transport and whatever is
at its far end act in any order. What holds of every session holds of one with a transport. -/
namespace PeerLink

variable {M S : Type}

/-- A session with its transport. -/
structure Linked (M S : Type) extends Machine M S where
  transport : Transport

namespace Linked

/-- What happens at the far end of a transport. -/
inductive Event where
  | envelopes (es : List Envelope)
  | source (event : Wire.SourceEvent)
  | message (message : Link.SocketMessage)
  /-- Nothing more will arrive. -/
  | ended
  | flow (flow : Link.Flow)
  /-- The next item will be refused. -/
  | refuse (error : Link.SocketError)
  | refuseClose
  /-- Somebody looks at what was written. -/
  | looked

def Event.change? : Event → Transport → Option Transport
  | .envelopes es, t => World.arriveEnvelopes es t
  | .source e, t => World.arriveEvent e t
  | .message x, t => World.arriveMessage x t
  | .ended, t => some (World.endSource t)
  | .flow f, t => some (World.setFlow f t)
  | .refuse e, t => some (World.failSink e t)
  | .refuseClose, t => some (World.failSinkClose t)
  | .looked, t => some (World.clearTaken t)

/-- What can happen to a session with its transport in one go. -/
inductive Action where
  /-- Something that needs no transport. -/
  | act (a : Machine.Action)
  | read
  | consume
  | write
  | outside (event : Event)

/-- What an action makes of a session with its transport, `none` if it cannot happen now. -/
def step? (l : Linked M S) : Action → Option (Linked M S)
  | .act a => if a.isLocal then (l.toMachine.step? a).map fun m => ⟨m, l.transport⟩ else none
  | .read => (l.transport.read? l.toMachine).map fun x => ⟨x.1, x.2⟩
  | .consume => (l.transport.consume? l.toMachine).map fun x => ⟨x.1, x.2⟩
  | .write => (l.transport.write? l.toMachine).map fun x => ⟨x.1, x.2⟩
  | .outside event => (event.change? l.transport).map fun t => { l with transport := t }

/-- What has happened, in order: every action with the state in which it was done. -/
abbrev History (M S : Type) := List (Linked M S × Action)

/-- The session and its transport get from `start` to a state by the actions of a history. -/
inductive Execution (start : Linked M S) : History M S → Linked M S → Prop where
  | refl : Execution start [] start
  | step {past : History M S} {l l' : Linked M S} {x : Action}
      (prior : Execution start past l) (last : l.step? x = some l') :
      Execution start (past ++ [(l, x)]) l'

theorem Execution.append {start q l : Linked M S} {before after : History M S}
    (exec : Execution start before q) (later : Execution q after l) :
    Execution start (before ++ after) l := by
  induction later with
  | refl => rwa [List.append_nil]
  | step _ last ih =>
      rw [← List.append_assoc]
      exact ih.step last

/-- A new session on a transport. -/
def new (host : Host) (registry : Registry M S) (callTimeout : Option Duration) (capacity : Nat)
    (transport : Transport) : Linked M S :=
  ⟨.new host registry callTimeout capacity, transport⟩

/-- Do some actions one after another, if each of them can happen in its turn. -/
def play (l : Linked M S) : List Action → Option (History M S × Linked M S)
  | [] => some ([], l)
  | x :: rest =>
    match l.step? x with
    | none => none
    | some l' => (l'.play rest).map fun y => ((l, x) :: y.1, y.2)

theorem Execution.play {start l final : Linked M S} {past later : History M S}
    (exec : Execution start past l) {actions : List Action}
    (h : l.play actions = some (later, final)) : Execution start (past ++ later) final := by
  induction actions generalizing l past later with
  | nil =>
      obtain ⟨rfl, rfl⟩ := Prod.mk.inj (Option.some.inj h)
      rwa [List.append_nil]
  | cons x rest ih =>
      rw [Linked.play] at h
      split at h
      · cases h
      · next l' hStep =>
          obtain ⟨⟨tail, last⟩, hTail, he⟩ := Option.map_eq_some_iff.mp h
          obtain ⟨rfl, rfl⟩ := Prod.mk.inj he
          have hLater := ih (exec.step hStep) hTail
          rwa [List.append_assoc, List.singleton_append] at hLater

theorem play_actions {l final : Linked M S} {past : History M S} {actions : List Action}
    (h : l.play actions = some (past, final)) : past.map Prod.snd = actions := by
  induction actions generalizing l past with
  | nil =>
      obtain ⟨rfl, rfl⟩ := Prod.mk.inj (Option.some.inj h)
      rfl
  | cons x rest ih =>
      rw [Linked.play] at h
      split at h
      · cases h
      · obtain ⟨⟨tail, last⟩, hTail, he⟩ := Option.map_eq_some_iff.mp h
        obtain ⟨rfl, rfl⟩ := Prod.mk.inj he
        rw [List.map_cons, ih hTail]

/-! ### What the session sees -/

/-- What an action is to the session, if it is anything. -/
def view (l : Linked M S) : Action → Option Machine.Action
  | .act a => some a
  | .consume => l.transport.consumes l.toMachine
  | .write => l.transport.writes l.toMachine
  | .read => none
  | .outside _ => none

/-- The history of the session alone. -/
def History.session (past : History M S) : Machine.History M S :=
  past.filterMap fun x => (x.1.view x.2).map fun a => (x.1.toMachine, a)

theorem History.session_append (past : History M S) (l : Linked M S) (x : Action) :
    History.session (past ++ [(l, x)]) =
      History.session past ++ ((l.view x).map fun a => (l.toMachine, a)).toList := by
  rw [History.session, List.filterMap_append, ← History.session]
  cases h : l.view x <;> simp [h]

/-- The session does in a step what the step is to it. -/
theorem step?_view {l l' : Linked M S} {x : Action} (h : l.step? x = some l') :
    (l.view x = none ∧ l'.session = l.session) ∨
      ∃ a m, l.view x = some a ∧ l.toMachine.step? a = some m ∧ l'.session = m.session := by
  cases x with
  | act a =>
      rw [step?] at h
      split at h
      · obtain ⟨m, hStep, rfl⟩ := Option.map_eq_some_iff.mp h
        exact .inr ⟨a, m, rfl, hStep, rfl⟩
      · cases h
  | read =>
      obtain ⟨⟨m, t⟩, hRead, rfl⟩ := Option.map_eq_some_iff.mp h
      exact .inl ⟨rfl, (Transport.read?_frame hRead).1.session⟩
  | consume =>
      obtain ⟨⟨m, t⟩, hConsume, rfl⟩ := Option.map_eq_some_iff.mp h
      obtain ⟨a, hView, hStep, _⟩ := Transport.consume?_frame hConsume
      exact .inr ⟨a, m, hView, hStep, rfl⟩
  | write =>
      obtain ⟨⟨m, t⟩, hWrite, rfl⟩ := Option.map_eq_some_iff.mp h
      obtain ⟨_, _, hView, hStep⟩ | ⟨o, o', _, _, hStep⟩ := Transport.write?_step hWrite
      · exact .inr ⟨.take, m, hView, hStep, rfl⟩
      · exact hStep.view
  | outside event =>
      obtain ⟨t, _, rfl⟩ := Option.map_eq_some_iff.mp h
      exact .inl ⟨rfl, rfl⟩

/-- So a session with a transport lives as a session does. -/
theorem Execution.life {start l : Linked M S} {past : History M S} (exec : Execution start past l) :
    Machine.Life start.session (History.session past) l.session := by
  induction exec with
  | refl => exact .refl
  | @step past l l' x _ last ih =>
      rw [History.session_append]
      obtain ⟨hView, hSame⟩ | ⟨a, m, hView, hStep, hSame⟩ := step?_view last
      · rw [hView, hSame, Option.map_none, Option.toList_none, List.append_nil]
        exact ih
      · rw [hView, hSame, Option.map_some, Option.toList_some]
        exact ih.step hStep

/-! ### What the writer sees -/

/-- What happens at the far end, to the writer and its sink. -/
def Event.onOutlet : Event → Outlet → Outlet
  | .flow f, o => { o with flow := f }
  | .refuse _, o => { o with refuses := true }
  | .looked, o => { o with packets := [] }
  | _, o => o

theorem Event.change?_outlet {event : Event} {t t' : Transport} (h : event.change? t = some t') :
    t'.outlet? = t.outlet?.map event.onOutlet := by
  cases event with
  | envelopes es =>
      cases t with
      | queues l =>
          obtain ⟨_, hArrive⟩ := Option.ite_none_left_eq_some.mp h
          cases hArrive
          rfl
      | _ =>
          cases h
          rfl
  | source e =>
      cases t with
      | framed l =>
          obtain ⟨_, hArrive⟩ := Option.ite_none_left_eq_some.mp h
          cases hArrive
          rfl
      | _ =>
          cases h
          rfl
  | message x =>
      cases t with
      | webSocket l =>
          obtain ⟨_, hArrive⟩ := Option.ite_none_left_eq_some.mp h
          cases hArrive
          rfl
      | _ =>
          cases h
          rfl
  | _ =>
      cases h
      cases t with
      | _ => rfl

end Linked

/-! ### The sessions of a world -/

namespace World

variable {w : World} {side : Side} {e : Endpoint}

/-- A session of a world with its transport. -/
def linked (w : World) (e : Endpoint) : Linked CallScript StreamScript :=
  ⟨w.station e, e.transport⟩

/-- Put back a session with its transport. -/
def putLinked (w : World) (side : Side) (e : Endpoint) (l : Linked CallScript StreamScript) : World :=
  w.put side { e with transport := l.transport } l.toMachine

theorem read?_linked (h : w.endpoint? side = some e) :
    w.read? side = ((w.linked e).step? .read).map (w.putLinked side e) := by
  simp only [read?, onTransport?, h, Linked.step?, Option.map_map]
  rfl

theorem consume?_linked (h : w.endpoint? side = some e) (hAlone : w.wire ≠ .queues) :
    w.consume? side = ((w.linked e).step? .consume).map (w.putLinked side e) := by
  simp only [consume?, if_neg hAlone, onTransport?, h, Linked.step?, Option.map_map]
  rfl

theorem write?_linked (h : w.endpoint? side = some e) :
    w.write? side = ((w.linked e).step? .write).map (w.putLinked side e) := by
  simp only [write?, onTransport?, h, Linked.step?, Option.map_map]
  rfl

end World

end PeerLink
