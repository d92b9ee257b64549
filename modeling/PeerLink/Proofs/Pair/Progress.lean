import PeerLink.Proofs.Pair.Execution
import PeerLink.Proofs.Session.Deadlines
import PeerLink.Proofs.Session.Queueing
import PeerLink.Proofs.Session.Work

/-! What the tasks of two connected sessions come to. Each session sends through a queue that only the
other one empties, and sends while it handles what it took. Neither waits for the other there: an envelope
is handled at once, and what has to be sent because of it is left to tasks of their own. So a sender that
cannot go on faces a session that can. -/
namespace PeerLink.Pair

variable {M S : Type}

/-- The action is taken by a task of one of the sessions: nobody else has to do anything. -/
def Action.isTask : Action → Bool
  | .act _ (.advance _) => true
  | .act _ (.pollCall _) => true
  | .act _ (.pollClient _) => true
  | .act _ (.startRefusal _) => true
  | .deliver _ => true
  | .stop _ exhausted => !exhausted
  | _ => false

/-- No task of the two sessions can move on. -/
def Settled (p : Pair M S) : Prop :=
  ∀ x : Action, x.isTask = true → p.step? x = none

/-- The steps that are left to the tasks of both sessions, at most. -/
def work (p : Pair M S) : Nat :=
  p.a.work + p.b.work

section Steps

variable {p p' : Pair M S} {x : Action}

/-! ### The work of both sessions -/

@[simp] theorem session_machine (p : Pair M S) (side : Side) :
    (p.machine side).session = p.session side := rfl

theorem work_eq (p : Pair M S) (side : Side) :
    p.work = (p.session side).work + (p.session side.other).work := by
  cases side with
  | a => rfl
  | b => exact Nat.add_comm _ _

theorem work_put (p : Pair M S) (side : Side) (m : Machine M S) :
    (p.put side m).work = m.session.work + (p.session side.other).work := by
  rw [work_eq _ side, session_put, session_put_other]

/-- Whatever task moves on, there is less left to do. -/
theorem work_step? (h : p.step? x = some p') (hTask : x.isTask = true) : p'.work < p.work := by
  cases x with
  | act side a =>
      obtain ⟨_, m', hStep, rfl⟩ := step?_act_eq_some h
      have hLess : m'.session.work < (p.machine side).session.work := by
        cases a with
        | advance t => exact Machine.work_advanceOutbound? hStep
        | pollCall c => exact Machine.work_pollCall? hStep
        | pollClient c => exact Machine.work_pollClient? hStep
        | startRefusal k => exact Machine.work_startRefusal? hStep
        | _ => cases hTask
      rw [session_machine] at hLess
      rw [work_put, work_eq p side]
      omega
  | deliver side =>
      obtain ⟨e, m, m', hTake, hReceive, rfl⟩ := step?_deliver_eq_some h
      have hHandled := Machine.work_receive? hReceive
      have hTaken := Machine.work_takeOutbound? hTake
      rw [session_machine] at hHandled hTaken
      rw [work_put, other_other, session_put, work_eq p side]
      dsimp only
      omega
  | stop side exhausted =>
      obtain ⟨m', hStop, rfl⟩ := Option.map_eq_some_iff.mp h
      have hStopped := Machine.work_stopConsuming? hStop
      have hAbandoned := ((p.put side m').machine side.other).work_abandonOutbound
      rw [session_machine] at hStopped
      rw [session_machine, session_put_other] at hAbandoned
      rw [work_put, other_other, session_put, work_eq p side]
      omega

/-- So the tasks come to an end by themselves. -/
theorem Execution.work_le {past : History M S} (exec : Execution p past p')
    (hTasks : ∀ y ∈ past, y.2.isTask = true) : past.length + p'.work ≤ p.work := by
  induction exec with
  | refl => simp
  | @step past q q' x prior last ih =>
      have hPrior := ih fun y hy => hTasks y (List.mem_append_left _ hy)
      have hLast := work_step? last (hTasks (q, x) (List.mem_append_right _ (List.mem_singleton_self _)))
      rw [List.length_append, List.length_singleton]
      omega

theorem Execution.trans {q : Pair M S} {before later : History M S} (exec : Execution p before q)
    (exec' : Execution q later p') : Execution p (before ++ later) p' := by
  induction exec' with
  | refl => rwa [List.append_nil]
  | step _ last ih =>
      rw [← List.append_assoc]
      exact ih.step last

/-- They come to a state in which none of them can move on. -/
theorem exists_settled (p : Pair M S) : ∃ later p', Execution p later p' ∧
    (∀ y ∈ later, y.2.isTask = true) ∧ p'.Settled := by
  induction hWork : p.work using Nat.strongRecOn generalizing p with
  | ind n ih =>
      by_cases hSettled : p.Settled
      · exact ⟨[], p, .refl, fun y hy => absurd hy List.not_mem_nil, hSettled⟩
      · simp only [Settled, not_forall] at hSettled
        obtain ⟨x, hTask, hMoves⟩ := hSettled
        obtain ⟨q, hStep⟩ := Option.ne_none_iff_exists'.mp hMoves
        have hLess := work_step? hStep hTask
        rw [hWork] at hLess
        obtain ⟨later, p', exec, hTasks, hEnd⟩ := ih q.work hLess q rfl
        have first : Execution p [(p, x)] q := Execution.refl.step hStep
        refine ⟨(p, x) :: later, p', first.trans exec, fun y hy => ?_, hEnd⟩
        rcases List.mem_cons.mp hy with rfl | hy
        · exact hTask
        · exact hTasks y hy

/-! ### Senders and the session at the other end -/

/-- A queue is given up exactly when the session that empties it has stopped. -/
def Connected (p : Pair M S) : Prop :=
  ∀ side, (p.session side.other).outbound.abandoned = !(p.session side).consuming

theorem connected_new (host : Host) (registry : Side → Registry M S)
    (callTimeout : Side → Option Duration) (capacity : Nat) :
    (new host registry callTimeout capacity).Connected := by
  intro side
  cases side with
  | a => rfl
  | b => rfl

/-- What is neither local nor a delivery is the end of a consumer. -/
theorem eq_stop_of_view {side : Side} {a : Machine.Action} (h : p.step? x = some p')
    (hView : p.view x side = some a) (hEnd : a = .abandon ∨ ∃ exhausted, a = .stop exhausted) :
    ∃ s exhausted, x = .stop s exhausted ∧ (a = .abandon → s = side.other) ∧
      (a ≠ .abandon → s = side) := by
  cases x with
  | act s b =>
      obtain ⟨hLocal, _⟩ := step?_act_eq_some h
      simp only [view] at hView
      split at hView
      · cases hView
        rcases hEnd with rfl | ⟨exhausted, rfl⟩ <;> cases hLocal
      · cases hView
  | deliver s =>
      simp only [view] at hView
      split at hView
      · obtain ⟨_, _, rfl⟩ := Option.map_eq_some_iff.mp hView
        rcases hEnd with hEnd | ⟨exhausted, hEnd⟩ <;> cases hEnd
      · cases hView
        rcases hEnd with hEnd | ⟨exhausted, hEnd⟩ <;> cases hEnd
  | stop s exhausted =>
      simp only [view] at hView
      split at hView
      · next hs =>
          cases hView
          exact ⟨s, exhausted, rfl, by simp, fun _ => hs⟩
      · next hs =>
          cases hView
          refine ⟨s, exhausted, rfl, fun _ => ?_, fun h => absurd rfl h⟩
          cases s <;> cases side <;> simp_all [Side.other]

/-- A session stops, and the queue towards it is given up, in one action. -/
theorem Connected.step (hConnected : p.Connected) (h : p.step? x = some p') : p'.Connected := by
  intro side
  by_cases hStop : ∃ exhausted, x = .stop side exhausted
  · obtain ⟨exhausted, rfl⟩ := hStop
    obtain ⟨m', hStop, rfl⟩ := Option.map_eq_some_iff.mp h
    obtain ⟨_, _, rfl⟩ := Machine.stopConsuming?_eq_some hStop
    rw [session_put, session_put_of_other, session_put]
    rfl
  · have hConsuming : (p'.session side).consuming = (p.session side).consuming := by
      obtain ⟨_, hSame⟩ | ⟨a, m', hView, hStep, hSame⟩ := step?_view h side
      · rw [hSame]
      · have hGoesOn : ∀ exhausted, a ≠ .stop exhausted := by
          rintro exhausted rfl
          obtain ⟨s, exhausted, rfl, -, hs⟩ := eq_stop_of_view h hView (.inr ⟨exhausted, rfl⟩)
          exact hStop ⟨exhausted, by rw [hs nofun]⟩
        rw [hSame, Machine.step?_consuming hStep hGoesOn, session_machine]
    have hAbandoned : (p'.session side.other).outbound.abandoned =
        (p.session side.other).outbound.abandoned := by
      obtain ⟨_, hSame⟩ | ⟨a, m', hView, hStep, hSame⟩ := step?_view h side.other
      · rw [hSame]
      · have hGoesOn : a ≠ .abandon := by
          rintro rfl
          obtain ⟨s, exhausted, rfl, hs, -⟩ := eq_stop_of_view h hView (.inl rfl)
          exact hStop ⟨exhausted, by rw [hs rfl, other_other]⟩
        rw [hSame, Machine.step?_abandoned hStep hGoesOn, session_machine]
    rw [hConsuming, hAbandoned]
    exact hConnected side

theorem Execution.connected {start : Pair M S} {past : History M S} (exec : Execution start past p)
    (hStart : start.Connected) : p.Connected := by
  induction exec with
  | refl => exact hStart
  | step _ last ih => exact Connected.step ih last

/-- An envelope is handled whenever there is one, as long as the session has not ended. -/
theorem deliver?_isSome {side : Side} (hConsuming : (p.session side).consuming = true)
    (hLive : (p.machine side).isEnded = false) (hQueued : (p.session side.other).outbound.queued ≠ []) :
    (p.step? (.deliver side)).isSome = true := by
  obtain ⟨e, rest, hRest⟩ := List.exists_cons_of_ne_nil hQueued
  have hTake : (p.machine side.other).takeOutbound? = some (e, (p.machine side.other).onSession fun s =>
      { s with outbound := { s.outbound with queued := rest } }) := by
    simp only [Machine.takeOutbound?, session_machine, Outbound.take?, hRest]
    rfl
  simp only [step?, hTake, Machine.receive?, session_machine, hConsuming, hLive, Bool.not_false,
    Bool.and_self, if_true, Option.map_some, Option.isSome_some]

/-- A session that has not ended handles what there is, and one that has ended stops. -/
theorem consumer_moves {side : Side} (hConsuming : (p.session side).consuming = true)
    (hQueued : (p.session side.other).outbound.queued ≠ []) :
    (p.step? (.deliver side)).isSome = true ∨ (p.step? (.stop side false)).isSome = true := by
  cases hEnded : (p.machine side).isEnded with
  | false => exact .inl (deliver?_isSome hConsuming hEnded hQueued)
  | true =>
      refine .inr ?_
      simp [step?, Machine.stopConsuming?, hConsuming, hEnded]

/-- As long as a send is under way there is a task that can move on: that of some sender, or the session at
the other end. -/
theorem Connected.sender_moves (hConnected : p.Connected) {side : Side}
    (hTickets : (p.session side).outbound.tickets ≠ []) :
    (∃ t, (p.step? (.act side (.advance t))).isSome = true) ∨
      (p.step? (.deliver side.other)).isSome = true ∨
      (p.step? (.stop side.other false)).isSome = true := by
  by_cases hStuck : ∀ t, (p.machine side).advanceOutbound? t = none
  · obtain ⟨t, ht⟩ := List.exists_mem_of_ne_nil _ hTickets
    obtain ⟨hFull, hOpen⟩ :=
      Outbound.isFull_of_stuck (fun u => Machine.advanceOutbound?_eq_none_iff.mp (hStuck u)) ht
    refine .inr (consumer_moves ?_ fun hEmpty => ?_)
    · have hAbandoned := hConnected side.other
      rw [other_other, ← session_machine, hOpen] at hAbandoned
      simpa using hAbandoned.symm
    · rw [other_other] at hEmpty
      simp [Outbound.isFull, hEmpty] at hFull
  · obtain ⟨t, hMoves⟩ := not_forall.mp hStuck
    obtain ⟨m, hAdvance⟩ := Option.ne_none_iff_exists'.mp hMoves
    have hStep : (p.machine side).step? (.advance t) = some m := hAdvance
    exact .inl ⟨t, by simp [step?, Machine.Action.isLocal, hStep]⟩

end Steps

/-- Two sessions never block each other, whatever their handlers, programs and receivers leave undone. In
a settled state each send has ended or was given up: it was refused only if the session at the other end
has stopped. No call waits for its request to be queued, and nothing is left in the queue towards a session
that has not stopped. In any state with a send under way there is a task that can move on, and the tasks
come to a settled state by themselves, in no more steps than are counted. -/
theorem sends_never_blocked {host : Host} {registry : Side → Registry M S}
    {callTimeout : Side → Option Duration} {capacity : Nat} {past : History M S} {p : Pair M S}
    (exec : Execution (new host registry callTimeout capacity) past p) :
    (p.Settled → ∀ side,
      (∀ x ∈ (p.session side).sends, x.state = .done .accepted ∨ x.state = .givenUp ∨
        x.state = .done .refused ∧ (p.session side.other).consuming = false) ∧
      (∀ call ∈ (p.session side).calls, ∀ t, call.state ≠ .sending t) ∧
      (p.session side).outbound.tickets = [] ∧
      ((p.session side).consuming = true → (p.session side.other).outbound.queued = [])) ∧
    (∀ side, (p.session side).outbound.tickets ≠ [] →
      (∃ t, (p.step? (.act side (.advance t))).isSome = true) ∨
        (p.step? (.deliver side.other)).isSome = true ∨
        (p.step? (.stop side.other false)).isSome = true) ∧
    (∀ later p', Execution p later p' → (∀ y ∈ later, y.2.isTask = true) → later.length ≤ p.work) ∧
    ∃ later p', Execution p later p' ∧ (∀ y ∈ later, y.2.isTask = true) ∧ p'.Settled := by
  have hConnected := exec.connected (connected_new host registry callTimeout capacity)
  refine ⟨fun settled side => ?_, fun side => hConnected.sender_moves, fun later p' exec' hTasks => ?_,
    exists_settled p⟩
  · obtain ⟨lifetime, life⟩ := exec.life_new side
    have hTickets : (p.session side).outbound.tickets = [] := by
      by_contra hTickets
      rcases hConnected.sender_moves hTickets with ⟨t, hMoves⟩ | hMoves | hMoves
      · rw [settled (.act side (.advance t)) rfl] at hMoves
        cases hMoves
      · rw [settled (.deliver side.other) rfl] at hMoves
        cases hMoves
      · rw [settled (.stop side.other false) rfl] at hMoves
        cases hMoves
    refine ⟨fun x hx => ?_, fun call hCall t hState => ?_, hTickets, fun hConsuming => ?_⟩
    · obtain ⟨t, ht⟩ := List.mem_iff_getElem?.mp hx
      cases hState : x.state with
      | givenUp => exact .inr (.inl rfl)
      | pending =>
          have hTicket := life.pendingQueued t x ht hState
          rw [hTickets] at hTicket
          cases hTicket
      | done result =>
          cases result with
          | accepted => exact .inl rfl
          | refused =>
              have hAbandoned := life.refusedLate x hx hState
              have hStopped := hConnected side.other
              rw [other_other, hAbandoned] at hStopped
              exact .inr (.inr ⟨rfl, by simpa using hStopped.symm⟩)
    · obtain ⟨c, hc⟩ := List.mem_iff_getElem?.mp hCall
      have hTicket := (life.sendsHeld (fun c call t h => by simp [Session.new] at h) c call t hc hState).1
      rw [hTickets] at hTicket
      cases hTicket
    · by_contra hQueued
      rcases consumer_moves hConsuming hQueued with hMoves | hMoves
      · rw [settled (.deliver side) rfl] at hMoves
        cases hMoves
      · rw [settled (.stop side false) rfl] at hMoves
        cases hMoves
  · exact Nat.le_trans (Nat.le_add_right _ _) (exec'.work_le hTasks)

/-- Both queues have room for nothing. Each side makes two calls that the other one refuses, so calls and
refusals wait in line on both sides; later nothing is left. -/
theorem sends_never_blocked_of_full : ∃ (before later : History Unit Unit) (q p : Pair Unit Unit),
    Execution (new (Host.new false) (fun _ => .empty) (fun _ => none) 0) before q ∧
    q.a.outbound.isFull = true ∧ q.b.outbound.isFull = true ∧
    q.a.outbound.tickets = [0, 1] ∧ q.b.outbound.tickets = [0, 1] ∧
    Execution q later p ∧ p.Settled ∧ later.length ≤ q.work ∧
    ∀ side, (p.session side).outbound.tickets = [] ∧
      ((p.session side).consuming = true → (p.session side.other).outbound.queued = []) := by
  let call : Machine.Action := .call "A.b" (.ofValue []) none none
  have hPlay : ((new (Host.new false) (fun _ => (.empty : Registry Unit Unit)) (fun _ => none) 0).play
      [.act .a call, .act .a call, .act .b call, .act .b call, .act .a (.advance 0),
        .act .b (.advance 0)]).map (fun x => (x.2.a.outbound.isFull, x.2.b.outbound.isFull,
          x.2.a.outbound.tickets, x.2.b.outbound.tickets)) = some (true, true, [0, 1], [0, 1]) := by
    decide +kernel
  obtain ⟨⟨before, q⟩, hRun, hFacts⟩ := Option.map_eq_some_iff.mp hPlay
  simp only [Prod.mk.injEq] at hFacts
  obtain ⟨hFullA, hFullB, hTicketsA, hTicketsB⟩ := hFacts
  have exec := Execution.refl.play hRun
  obtain ⟨-, -, hBound, later, p, exec', hTasks, settled⟩ := sends_never_blocked exec
  obtain ⟨hSettled, -⟩ := sends_never_blocked (exec.trans exec')
  refine ⟨_, later, q, p, exec, hFullA, hFullB, hTicketsA, hTicketsB, exec', settled,
    hBound later p exec' hTasks, fun side => ?_⟩
  obtain ⟨-, -, hTickets, hQueued⟩ := hSettled settled side
  exact ⟨hTickets, hQueued⟩

end PeerLink.Pair
