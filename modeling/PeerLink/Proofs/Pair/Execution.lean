import PeerLink.Channel
import PeerLink.Proofs.Session.Correspondence

/-! Two sessions that are connected to each other. Each takes its envelopes from the queue of the other,
and when it stops taking them the other can send no more. The two share a clock, the lifetimes, the
counts and the notes; what either of them does next is not restricted any further. -/
namespace PeerLink

/-- The action needs no transport. -/
def Machine.Action.isLocal : Machine.Action → Bool
  | .receive _ => false
  | .stop _ => false
  | .take => false
  | .abandon => false
  | _ => true

structure Pair (M S : Type) extends Host where
  a : Session M S
  b : Session M S

namespace Pair

variable {M S : Type}

def session (p : Pair M S) : Side → Session M S
  | .a => p.a
  | .b => p.b

/-- One of the sessions, with what the two share. -/
def machine (p : Pair M S) (side : Side) : Machine M S :=
  ⟨p.toHost, p.session side⟩

/-- Put back a session, with what it changed. -/
def put (p : Pair M S) (side : Side) (m : Machine M S) : Pair M S :=
  match side with
  | .a => { m.toHost with a := m.session, b := p.b }
  | .b => { m.toHost with a := p.a, b := m.session }

/-- Two new sessions at the ends of two queues. -/
def new (host : Host) (registry : Side → Registry M S) (callTimeout : Side → Option Duration)
    (capacity : Nat) : Pair M S :=
  let a := Machine.new host (registry .a) (callTimeout .a) capacity
  let b := Machine.new a.toHost (registry .b) (callTimeout .b) capacity
  { b.toHost with a := a.session, b := b.session }

/-- What can happen to a pair in one go. -/
inductive Action where
  /-- Something happens on one side that needs no transport. -/
  | act (side : Side) (a : Machine.Action)
  /-- The session on this side handles what the other one has sent. -/
  | deliver (side : Side)
  /-- The session on this side stops taking envelopes. -/
  | stop (side : Side) (exhausted : Bool)

/-- What an action makes of a pair, `none` if it cannot happen now. -/
def step? (p : Pair M S) : Action → Option (Pair M S)
  | .act side a => if a.isLocal then ((p.machine side).step? a).map (p.put side) else none
  | .deliver side =>
    match (p.machine side.other).takeOutbound? with
    | none => none
    | some (e, m) => ((p.machine side).receive? e).map fun m' => (p.put side m').put side.other
        { m' with session := m.session }
  | .stop side exhausted =>
    ((p.machine side).stopConsuming? exhausted).map fun m =>
      (p.put side m).put side.other ((p.put side m).machine side.other).abandonOutbound

/-- What has happened, in order: every action with the state in which it was done. -/
abbrev History (M S : Type) := List (Pair M S × Action)

/-- The pair gets from `start` to a state by the actions of a history. -/
inductive Execution (start : Pair M S) : History M S → Pair M S → Prop where
  | refl : Execution start [] start
  | step {past : History M S} {p p' : Pair M S} {x : Action}
      (prior : Execution start past p) (last : p.step? x = some p') :
      Execution start (past ++ [(p, x)]) p'

/-- Do some actions one after another, if each of them can happen in its turn. -/
def play (p : Pair M S) : List Action → Option (History M S × Pair M S)
  | [] => some ([], p)
  | x :: rest =>
    match p.step? x with
    | none => none
    | some p' => (p'.play rest).map fun y => ((p, x) :: y.1, y.2)

theorem Execution.play {start p final : Pair M S} {past later : History M S}
    (exec : Execution start past p) {actions : List Action}
    (h : p.play actions = some (later, final)) : Execution start (past ++ later) final := by
  induction actions generalizing p past later with
  | nil =>
      obtain ⟨rfl, rfl⟩ := Prod.mk.inj (Option.some.inj h)
      simpa using exec
  | cons x rest ih =>
      cases hStep : p.step? x with
      | none => simp [Pair.play, hStep] at h
      | some p' =>
          simp only [Pair.play, hStep, Option.map_eq_some_iff] at h
          obtain ⟨⟨tail, last⟩, hTail, he⟩ := h
          obtain ⟨rfl, rfl⟩ := Prod.mk.inj he
          simpa using ih (exec.step hStep) hTail

/-- The first action is done in the state from which the others go on. -/
theorem mem_play {start final : Pair M S} {past : History M S} {x : Action} {rest : List Action}
    (h : start.play (x :: rest) = some (past, final)) : (start, x) ∈ past := by
  simp only [Pair.play] at h
  split at h
  · cases h
  · obtain ⟨y, _, he⟩ := Option.map_eq_some_iff.mp h
    obtain ⟨rfl, rfl⟩ := Prod.mk.inj he
    exact List.mem_cons_self

/-! ### What an action can do -/

theorem step?_act_eq_some {p p' : Pair M S} {side : Side} {a : Machine.Action}
    (h : p.step? (.act side a) = some p') :
    a.isLocal = true ∧ ∃ m', (p.machine side).step? a = some m' ∧ p' = p.put side m' := by
  simp only [step?] at h
  split at h
  · next hLocal =>
      obtain ⟨m', hStep, rfl⟩ := Option.map_eq_some_iff.mp h
      exact ⟨hLocal, m', hStep, rfl⟩
  · cases h

theorem step?_deliver_eq_some {p p' : Pair M S} {side : Side}
    (h : p.step? (.deliver side) = some p') :
    ∃ e m m', (p.machine side.other).takeOutbound? = some (e, m) ∧
      (p.machine side).receive? e = some m' ∧
      p' = (p.put side m').put side.other { m' with session := m.session } := by
  simp only [step?] at h
  split at h
  · cases h
  · next e m hTake =>
      obtain ⟨m', hReceive, rfl⟩ := Option.map_eq_some_iff.mp h
      exact ⟨e, m, m', hTake, hReceive, rfl⟩

/-! ### What one of the sessions sees -/

@[simp] theorem session_put (p : Pair M S) (side : Side) (m : Machine M S) :
    (p.put side m).session side = m.session := by
  cases side <;> rfl

@[simp] theorem session_put_other (p : Pair M S) (side : Side) (m : Machine M S) :
    (p.put side m).session side.other = p.session side.other := by
  cases side <;> rfl

@[simp] theorem session_put_of_other (p : Pair M S) (side : Side) (m : Machine M S) :
    (p.put side.other m).session side = p.session side := by
  cases side <;> rfl

@[simp] theorem toHost_put (p : Pair M S) (side : Side) (m : Machine M S) :
    (p.put side m).toHost = m.toHost := by
  cases side <;> rfl

theorem other_other (side : Side) : side.other.other = side := by
  cases side <;> rfl

theorem new_session (host : Host) (registry : Side → Registry M S)
    (callTimeout : Side → Option Duration) (capacity : Nat) (side : Side) :
    ∃ lifetime, (new host registry callTimeout capacity).session side =
      Session.new (registry side) (callTimeout side) capacity lifetime := by
  cases side <;> exact ⟨_, rfl⟩

/-- The part of an action that one of the sessions takes. -/
def view (p : Pair M S) (x : Action) (side : Side) : Option Machine.Action :=
  match x with
  | .act s a => if s = side then some a else none
  | .deliver s =>
    if s = side then (p.machine side.other).takeOutbound?.map fun y => .receive y.1 else some .take
  | .stop s exhausted => if s = side then some (.stop exhausted) else some .abandon

/-- What has happened to one of the sessions. -/
def History.of (past : History M S) (side : Side) : Machine.History M S :=
  past.filterMap fun y => (y.1.view y.2 side).map fun a => (y.1.machine side, a)

theorem History.of_append (past : History M S) (p : Pair M S) (x : Action) (side : Side) :
    History.of (past ++ [(p, x)]) side =
      History.of past side ++ ((p.view x side).map fun a => (p.machine side, a)).toList := by
  unfold History.of
  rw [List.filterMap_append]
  cases hView : p.view x side <;> simp [hView]

/-- Each session takes part in an action of the pair by an action of its own, or not at all. -/
theorem step?_view {p p' : Pair M S} {x : Action} (h : p.step? x = some p') (side : Side) :
    (p.view x side = none ∧ p'.session side = p.session side) ∨
    ∃ a m', p.view x side = some a ∧ (p.machine side).step? a = some m' ∧
      p'.session side = m'.session := by
  cases x with
  | act s a =>
      obtain ⟨_, m', hStep, rfl⟩ := step?_act_eq_some h
      by_cases hs : s = side
      · subst hs
        exact .inr ⟨a, m', by simp [view], hStep, session_put p s m'⟩
      · obtain rfl : side = s.other := by cases s <;> cases side <;> simp_all [Side.other]
        exact .inl ⟨by simp [view, hs], session_put_other p s m'⟩
  | deliver s =>
      obtain ⟨e, m, m', hTake, hReceive, rfl⟩ := step?_deliver_eq_some h
      by_cases hs : s = side
      · subst hs
        exact .inr ⟨.receive e, m', by simp [view, hTake], hReceive, by simp⟩
      · obtain rfl : side = s.other := by cases s <;> cases side <;> simp_all [Side.other]
        refine .inr ⟨.take, m, by simp [view, hs], ?_, by simp⟩
        simp [Machine.step?, hTake]
  | stop s exhausted =>
      obtain ⟨m', hStop, rfl⟩ := Option.map_eq_some_iff.mp h
      by_cases hs : s = side
      · subst hs
        exact .inr ⟨.stop exhausted, m', by simp [view], hStop, by simp⟩
      · obtain rfl : side = s.other := by cases s <;> cases side <;> simp_all [Side.other]
        refine .inr ⟨.abandon, (p.machine s.other).abandonOutbound, by simp [view, hs], rfl, ?_⟩
        simp [Machine.abandonOutbound, machine]

/-- What is true of a session whatever others do is true of both sessions of a pair. -/
theorem Execution.life {start p : Pair M S} {past : History M S} (exec : Execution start past p)
    (side : Side) :
    Machine.Life (start.session side) (History.of past side) (p.session side) := by
  induction exec with
  | refl => exact .refl
  | @step past p p' x prior last ih =>
      rw [History.of_append]
      obtain ⟨hView, hSame⟩ | ⟨a, m', hView, hStep, hSame⟩ := step?_view last side
      · rw [hView, hSame, Option.map_none, Option.toList_none, List.append_nil]
        exact ih
      · rw [hView, hSame, Option.map_some, Option.toList_some]
        exact ih.step hStep

/-! ### What arrives -/

/-- Unless something is delivered to the session, it hears nothing. -/
theorem heard_view {p p' : Pair M S} {x : Action} (h : p.step? x = some p') {side : Side}
    (hDeliver : x ≠ .deliver side) (past : Machine.History M S) :
    Machine.History.heard
        (past ++ ((p.view x side).map fun a => (p.machine side, a)).toList) =
      Machine.History.heard past := by
  have hNone : ∀ a, p.view x side = some a → ∀ e, a ≠ .receive e := by
    rintro a hView e rfl
    cases x with
    | act s a =>
        obtain ⟨hLocal, _⟩ := step?_act_eq_some h
        simp only [view] at hView
        split at hView
        · cases hView
          cases hLocal
        · cases hView
    | deliver s =>
        simp only [view] at hView
        split at hView
        · next hs => exact hDeliver (by rw [hs])
        · cases hView
    | stop s exhausted =>
        simp only [view] at hView
        split at hView <;> cases hView
  cases hView : p.view x side with
  | none => simp
  | some a =>
      unfold Machine.History.heard
      rw [Option.map_some, Option.toList_some, List.filterMap_append]
      cases a with
      | receive e => exact absurd rfl (hNone _ hView e)
      | _ => exact List.append_nil _

/-- What one side has handled and what is still on its way to it was all sent by the other side, as often.
Nothing is handled that was not sent, and nothing is handled twice. -/
theorem Execution.heard_pipeline {start p : Pair M S} {past : History M S}
    (exec : Execution start past p) (side : Side)
    (hStart : (start.session side.other).outbound.pipeline = []) :
    (Machine.History.heard (History.of past side) ++
      (p.session side.other).outbound.pipeline).Subperm (p.session side.other).sent := by
  induction exec with
  | refl =>
      rw [hStart]
      exact List.nil_subperm
  | @step past p p' x prior last ih =>
      rw [History.of_append]
      by_cases hDeliver : x = .deliver side
      · subst hDeliver
        obtain ⟨e, m, m', hTake, _, rfl⟩ := step?_deliver_eq_some last
        have hView : p.view (.deliver side) side = some (.receive e) := by simp [view, hTake]
        have hHeard : Machine.History.heard (History.of past side ++
            [(p.machine side, .receive e)]) =
              Machine.History.heard (History.of past side) ++ [e] :=
          List.filterMap_append
        have hOther : ((p.put side m').put side.other { m' with session := m.session }).session
            side.other = m.session := session_put _ _ _
        obtain ⟨hPipeline, hSent⟩ := Machine.takeOutbound?_flow hTake
        have hNext : (p.session side.other).outbound.pipeline =
            e :: m.session.outbound.pipeline := hPipeline
        rw [hNext] at ih
        rw [hView, Option.map_some, Option.toList_some, hHeard, hOther, hSent, List.append_assoc]
        exact ih
      · rw [heard_view last hDeliver]
        obtain ⟨_, hSame⟩ | ⟨a, m', _, hStep, hSame⟩ := step?_view last side.other
        · rw [hSame]
          exact ih
        · obtain ⟨begun, hSaid, _, hPipeline⟩ := Machine.step?_flow hStep
          rw [hSame]
          unfold Session.sent at ih ⊢
          rw [hSaid, List.map_append]
          refine ((List.subperm_append_left _).mpr hPipeline).trans ?_
          rw [← List.append_assoc]
          exact (List.subperm_append_right _).mpr ih

/-! ### What both sides know of each other -/

section

variable {host : Host} {registry : Side → Registry M S} {callTimeout : Side → Option Duration}
  {capacity : Nat} {past : History M S} {p : Pair M S} {side : Side}

/-- What can be said of one side alone. -/
theorem Execution.life_new (exec : Execution (new host registry callTimeout capacity) past p)
    (side : Side) : ∃ lifetime,
      Machine.Life (Session.new (registry side) (callTimeout side) capacity lifetime)
        (History.of past side) (p.session side) := by
  obtain ⟨lifetime, hNew⟩ := new_session host registry callTimeout capacity side
  exact ⟨lifetime, hNew ▸ exec.life side⟩

/-- Everything that is handled on one side was sent on the other. -/
theorem Execution.heard_subperm (exec : Execution (new host registry callTimeout capacity) past p)
    (side : Side) :
    (Machine.History.heard (History.of past side.other)).Subperm (p.session side).sent := by
  obtain ⟨lifetime, hNew⟩ := new_session host registry callTimeout capacity side
  have hAll := exec.heard_pipeline side.other (by rw [other_other, hNew]; rfl)
  rw [other_other] at hAll
  exact (List.sublist_append_left _ _).subperm.trans hAll

theorem Execution.explained (exec : Execution (new host registry callTimeout capacity) past p)
    {e : Envelope} (h : e ∈ Machine.History.heard (History.of past side.other)) :
    ∃ x, Explained (p.session side) x e := by
  obtain ⟨lifetime, life⟩ := exec.life_new side
  obtain ⟨⟨x, e'⟩, hSaid, rfl⟩ := List.mem_map.mp ((exec.heard_subperm side).subset h)
  exact ⟨x, life.explained rfl x e' hSaid⟩

theorem step?_grows {x : Action} {p' : Pair M S} (h : p.step? x = some p') (side : Side) :
    (p.session side).Grows (p'.session side) := by
  obtain ⟨_, hSame⟩ | ⟨a, m', _, hStep, hSame⟩ := step?_view h side
  · rw [hSame]
    exact .refl _
  · rw [hSame]
    exact Machine.step?_grows hStep

/-- An action of the past was done in a state that could be reached, and nothing that it left behind has
been lost since. -/
theorem Execution.at_action {start : Pair M S} (exec : Execution start past p) {q : Pair M S}
    {x : Action} (h : (q, x) ∈ past) :
    ∃ before q', Execution start before q ∧ q.step? x = some q' ∧
      ∀ side, (q'.session side).Grows (p.session side) := by
  induction exec with
  | refl => cases h
  | @step past p p' y prior last ih =>
      rcases List.mem_append.mp h with h | h
      · obtain ⟨before, q', hPrior, hStep, hAfter⟩ := ih h
        exact ⟨before, q', hPrior, hStep, fun side => (hAfter side).trans (step?_grows last side)⟩
      · obtain ⟨rfl, rfl⟩ := Prod.mk.inj (List.mem_singleton.mp h)
        exact ⟨past, p', prior, last, fun side => .refl _⟩

theorem Execution.grows_after {start : Pair M S} (exec : Execution start past p) {q : Pair M S}
    {x : Action} (h : (q, x) ∈ past) :
    ∃ q', q.step? x = some q' ∧ ∀ side, (q'.session side).Grows (p.session side) := by
  obtain ⟨_, q', _, hStep, hAfter⟩ := exec.at_action h
  exact ⟨q', hStep, hAfter⟩

end

end Pair

end PeerLink
