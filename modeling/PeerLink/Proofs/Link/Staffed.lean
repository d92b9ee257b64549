import PeerLink.Proofs.Link.Execution

/-! A world of one session: the session over its transport, with its handlers. The world lets its tasks move
on in a certain order. What holds after every step of some task does not depend on that order, so a step of
the world is taken for one of those that its tasks could take. -/
namespace PeerLink

/-- A session over a transport, with its handlers at work. -/
structure Staffed where
  link : Linked CallScript StreamScript
  calls : List CallTask
  streams : List StreamTask

namespace Staffed

/-- What the session does by itself when one of its own tasks moves on. -/
inductive IsTask : Machine.Action → Prop where
  | advance (t : Ticket) : IsTask (.advance t)
  | startRefusal (k : RefusalId) : IsTask (.startRefusal k)
  | pollCall (c : CallId) : IsTask (.pollCall c)
  | pollClient (c : ClientStreamId) : IsTask (.pollClient c)

/-- In a session that calls nobody and refuses nothing, the only such task is the one that sends. -/
theorem IsTask.eq_advance {a : Machine.Action} (isTask : IsTask a) {m m' : Station}
    (step : m.step? a = some m') (refusals : m.session.refusals = []) (calls : m.session.calls = [])
    (clients : m.session.clientStreams = []) : ∃ t, a = .advance t := by
  cases isTask with
  | advance t => exact ⟨t, rfl⟩
  | startRefusal k =>
      have hNone : m.startRefusal? k = none := by
        unfold Machine.startRefusal?
        rw [refusals]
        rfl
      cases hNone.symm.trans step
  | pollCall c =>
      have hNone : m.pollCall? c = none := by
        unfold Machine.pollCall?
        rw [calls]
        rfl
      cases hNone.symm.trans step
  | pollClient c =>
      have hNone : m.pollClient? c = none := by
        unfold Machine.pollClient?
        rw [clients]
        rfl
      cases hNone.symm.trans step

/-- One task moves on. -/
inductive Step (x : Staffed) : Staffed → Prop where
  | task (a : Machine.Action) (isTask : IsTask a) (m : Station)
      (step : x.link.toMachine.step? a = some m) : Step x { x with link := ⟨m, x.link.transport⟩ }
  | read (l : Linked CallScript StreamScript) (step : x.link.step? .read = some l) :
      Step x { x with link := l }
  | consume (l : Linked CallScript StreamScript) (step : x.link.step? .consume = some l) :
      Step x { x with link := l }
  | write (l : Linked CallScript StreamScript) (step : x.link.step? .write = some l) :
      Step x { x with link := l }
  | spawnCall (room : x.calls.length < x.link.session.runs.length) :
      Step x { x with calls := x.calls ++ [.new x.calls.length] }
  | spawnStream (room : x.streams.length < x.link.session.servedStreams.length) :
      Step x { x with streams := x.streams ++ [.new x.streams.length] }
  | call (i : Nat) (t t' : CallTask) (m : Station) (stage stage' : Stage)
      (found : x.calls[i]? = some t) (step : t.step? x.link.toMachine stage = some (t', m, stage')) :
      Step x { x with link := ⟨m, x.link.transport⟩, calls := x.calls.set i t' }
  | stream (i : Nat) (t t' : StreamTask) (m : Station) (stage stage' : Stage)
      (found : x.streams[i]? = some t) (step : t.step? x.link.toMachine stage = some (t', m, stage')) :
      Step x { x with link := ⟨m, x.link.transport⟩, streams := x.streams.set i t' }
  | watch (i : Nat) (t t' : CallTask) (stage stage' : Stage) (found : x.calls[i]? = some t)
      (step : t.watch? x.link.toMachine stage = some (t', stage')) :
      Step x { x with calls := x.calls.set i t' }

/-- No task can move on, as far as a session that only serves has any. -/
structure AtRest (x : Staffed) (stage : Stage) : Prop where
  advance : ∀ t, x.link.advanceOutbound? t = none
  read : x.link.step? .read = none
  consume : x.link.step? .consume = none
  write : x.link.step? .write = none
  runs : x.link.session.runs.length ≤ x.calls.length
  served : x.link.session.servedStreams.length ≤ x.streams.length
  calls : ∀ (i : Nat) (t : CallTask), x.calls[i]? = some t → t.step? x.link.toMachine stage = none
  streams : ∀ (i : Nat) (t : StreamTask), x.streams[i]? = some t →
    t.step? x.link.toMachine stage = none

end Staffed

namespace World

variable {w w' : World} {side : Side} {e : Endpoint} {kind : World → Side → Option World}

/-- One task of a world moves on. Which of them goes first is left open. -/
inductive TaskStep (w w' : World) : Prop where
  | outbound (side : Side) (t : Ticket) (next : World) (working : Option Working)
      (step : w.outbound? side t = some next) (result : w' = { next with working })
  | call (side : Side) (i : Nat) (step : w.stepCall? side i = some w')
  | stream (side : Side) (i : Nat) (step : w.stepStream? side i = some w')
  | other (kind : World → Side → Option World) (isKind : kind ∈ kinds) (side : Side)
      (working : Option Working) (step : kind { w with working } side = some w')

theorem turn?_eq_some (h : w.turn? side = some w') :
    ∃ t next working, w.outbound? side t = some next ∧ w' = { next with working } := by
  obtain ⟨_, _, h⟩ := Option.bind_eq_some_iff.mp h
  obtain ⟨t, _, h⟩ := Option.bind_eq_some_iff.mp h
  obtain ⟨next, hNext, h⟩ := Option.bind_eq_some_iff.mp h
  exact ⟨t, next, _, hNext, (Option.some_inj.mp h).symm⟩

/-- What the world does next is what one of its tasks does. -/
theorem taskStep_of_step? (h : w.step? = some w') : w.TaskStep w' := by
  unfold step? at h
  split at h
  · next w₁ hTurn =>
      cases h
      obtain ⟨side, _, hStep⟩ := List.exists_of_findSome?_eq_some hTurn
      obtain ⟨t, next, working, hNext, he⟩ := turn?_eq_some hStep
      exact .outbound side t next working hNext he
  · split at h
    · next w₁ hContinue =>
        cases h
        unfold continue? at hContinue
        split at hContinue
        · cases hContinue
        · exact .call _ _ hContinue
        · exact .stream _ _ hContinue
    · obtain ⟨kind, hKind, hSide⟩ := List.exists_of_findSome?_eq_some h
      obtain ⟨side, _, hStep⟩ := List.exists_of_findSome?_eq_some hSide
      exact .other kind hKind side none hStep

/-- A turn is given to somebody who waits for it, and that is all that changes. -/
theorem pass?_eq_some (h : w.pass? side = some w') :
    ∃ e line, w.endpoint? side = some e ∧ e.session.outbound.waiting ≠ [] ∧
      w' = w.setEndpoint side { e with line } := by
  obtain ⟨e, he, h⟩ := Option.bind_eq_some_iff.mp h
  dsimp only at h
  split at h
  · cases h
  · obtain ⟨t, hNext, h⟩ := Option.bind_eq_some_iff.mp h
    refine ⟨e, e.line.give t, he, fun hNobody => ?_, (Option.some_inj.mp h).symm⟩
    simp [SendLine.next?, hNobody] at hNext

/-- When the world cannot move on, no task can. -/
theorem kind_eq_none (h : w.step? = none) (isKind : kind ∈ kinds) (side : Side) :
    kind { w with working := none } side = none := by
  unfold step? at h
  split at h
  · cases h
  · split at h
    · cases h
    · refine List.findSome?_eq_none_iff.mp (List.findSome?_eq_none_iff.mp h kind isKind) side ?_
      cases side <;> simp [sides]

theorem turn?_eq_none (h : w.step? = none) (side : Side) : w.turn? side = none := by
  unfold step? at h
  split at h
  · cases h
  · next hTurn =>
      refine List.findSome?_eq_none_iff.mp hTurn side ?_
      cases side <;> simp [sides]

theorem outbound?_eq_none_iff (he : w.endpoint? side = some e) {t : Ticket} :
    w.outbound? side t = none ↔ e.session.outbound.advance? t = none := by
  simp only [outbound?, tryOnSide, he, Option.map_eq_none_iff]
  exact Machine.advanceOutbound?_eq_none_iff

/-- Who has the turn cannot go on when the world cannot. -/
theorem advance?_of_turn (h : w.step? = none) (he : w.endpoint? side = some e) {t : Ticket}
    (turn : e.session.outbound.flushing.or e.line.turn = some t) :
    e.session.outbound.advance? t = none := by
  have hTurn := turn?_eq_none h side
  rw [← outbound?_eq_none_iff he, Option.eq_none_iff_forall_not_mem]
  intro next hNext
  simp [turn?, he, turn, Option.mem_def.mp hNext] at hTurn

/-- If nobody has the turn when the world cannot move on, then nobody waits for it. -/
theorem waiting_of_pass (h : w.step? = none) (he : w.endpoint? side = some e)
    (free : (e.session.outbound.flushing.or e.line.turn).any e.session.outbound.tickets.contains = false) :
    e.session.outbound.waiting = [] := by
  have hPass : pass? { w with working := none } side = none := kind_eq_none h (by simp [kinds]) side
  have hEndpoint : endpoint? { w with working := none } side = some e := by
    cases side <;> exact he
  have hNext : e.line.next? e.session.outbound = none := by
    by_contra hSome
    obtain ⟨t, hNext⟩ := Option.ne_none_iff_exists'.mp hSome
    simp [pass?, hEndpoint, free, hNext] at hPass
  have hLength := congrArg List.length (List.head?_eq_none_iff.mp hNext)
  simpa using hLength

/-- When the world cannot move on, no sender can: who has the turn cannot, and if nobody has it, nobody
waits. -/
theorem outbound?_eq_none (h : w.step? = none) (side : Side) (t : Ticket) : w.outbound? side t = none := by
  cases he : w.endpoint? side with
  | none => simp [outbound?, tryOnSide, he]
  | some e =>
      rw [outbound?_eq_none_iff he]
      by_contra hMoves
      obtain ⟨hReady, hFlushing | ⟨hOpen, hWaits⟩⟩ := Outbound.advance?_ne_none_iff.mp hMoves
      · exact hMoves (advance?_of_turn h he (by rw [hFlushing]; rfl))
      · cases hFree : (e.session.outbound.flushing.or e.line.turn).any e.session.outbound.tickets.contains with
        | false =>
            rw [waiting_of_pass h he hFree] at hWaits
            cases hWaits
        | true =>
            -- Somebody else has the turn, and could go on just as well.
            obtain ⟨u, hTurn, hIn⟩ := (Option.any_eq_true ..).mp hFree
            refine Outbound.advance?_ne_none_iff.mpr ⟨hReady, .inr ⟨hOpen, ?_⟩⟩ (advance?_of_turn h he hTurn)
            simpa [Outbound.tickets, hOpen] using hIn

/-! ### Handlers -/

theorem stepCall?_eq_some {i : Nat} (h : w.stepCall? side i = some w') :
    ∃ e t t' m stage', w.endpoint? side = some e ∧ e.callTasks[i]? = some t ∧
      t.step? (w.station e) w.stage = some (t', m, stage') ∧
      w' = { (w.put side { e with callTasks := e.callTasks.set i t' } m).addNotes stage' with
        working := some (.call side i) } := by
  obtain ⟨e, he, h⟩ := Option.bind_eq_some_iff.mp h
  obtain ⟨t, ht, h⟩ := Option.bind_eq_some_iff.mp h
  obtain ⟨⟨t', m, stage'⟩, hStep, h⟩ := Option.bind_eq_some_iff.mp h
  exact ⟨e, t, t', m, stage', he, ht, hStep, (Option.some_inj.mp h).symm⟩

theorem stepStream?_eq_some {i : Nat} (h : w.stepStream? side i = some w') :
    ∃ e t t' m stage', w.endpoint? side = some e ∧ e.streamTasks[i]? = some t ∧
      t.step? (w.station e) w.stage = some (t', m, stage') ∧
      w' = { (w.put side { e with streamTasks := e.streamTasks.set i t' } m).addNotes stage' with
        working := some (.stream side i) } := by
  obtain ⟨e, he, h⟩ := Option.bind_eq_some_iff.mp h
  obtain ⟨t, ht, h⟩ := Option.bind_eq_some_iff.mp h
  obtain ⟨⟨t', m, stage'⟩, hStep, h⟩ := Option.bind_eq_some_iff.mp h
  exact ⟨e, t, t', m, stage', he, ht, hStep, (Option.some_inj.mp h).symm⟩

theorem step_of_stepCall?_eq_none {i : Nat} {t : CallTask} (h : w.stepCall? side i = none)
    (he : w.endpoint? side = some e) (ht : e.callTasks[i]? = some t) :
    t.step? (w.station e) w.stage = none := by
  by_contra hStep
  obtain ⟨⟨t', m, stage'⟩, hStep⟩ := Option.ne_none_iff_exists'.mp hStep
  simp [stepCall?, he, ht, hStep] at h

theorem step_of_stepStream?_eq_none {i : Nat} {t : StreamTask} (h : w.stepStream? side i = none)
    (he : w.endpoint? side = some e) (ht : e.streamTasks[i]? = some t) :
    t.step? (w.station e) w.stage = none := by
  by_contra hStep
  obtain ⟨⟨t', m, stage'⟩, hStep⟩ := Option.ne_none_iff_exists'.mp hStep
  simp [stepStream?, he, ht, hStep] at h

theorem firstOf_eq_some {count : Nat} {f : Nat → Option World} (h : firstOf count f = some w') :
    ∃ i, f i = some w' := by
  obtain ⟨i, _, hi⟩ := List.exists_of_findSome?_eq_some h
  exact ⟨i, hi⟩

/-! ### One session -/

/-- There is one session, which nobody is connected to. -/
structure IsAlone (w : World) : Prop where
  session : w.b? = none
  wire : w.wire = .single

/-- The first session of a world with its transport and its handlers. -/
def staffed (w : World) : Staffed :=
  ⟨w.linked w.a, w.a.callTasks, w.a.streamTasks⟩

/-- What a step of a world is to its first session: a step of one of its tasks, or the turn to send is given
to somebody who waits for it. -/
def Moves (w w' : World) : Prop :=
  w.staffed.Step w'.staffed ∨ w'.staffed = w.staffed ∧ w.a.session.outbound.waiting ≠ []

theorem tryOnSide_eq_some {f : Station → Option Station} (h : w.tryOnSide .a f = some w') :
    ∃ m, f (w.station w.a) = some m ∧ w' = w.put .a w.a m := by
  obtain ⟨m, hm, rfl⟩ := Option.map_eq_some_iff.mp h
  exact ⟨m, hm, rfl⟩

/-- There is no task where there is no session. -/
theorem kind_of_none (h : w.endpoint? side = none) (isKind : kind ∈ kinds) : kind w side = none := by
  simp only [kinds, List.mem_cons, List.not_mem_nil, or_false] at isKind
  obtain rfl | rfl | rfl | rfl | rfl | rfl | rfl | rfl | rfl | rfl | rfl | rfl := isKind
  · simp [pass?, h]
  · simp [read?, onTransport?, h]
  · simp [consume?, consumePaired?, tryOnSide, onTransport?, h]
  · simp [write?, onTransport?, h]
  · simp [forward?, h]
  · simp [refusal?, h]
  · simp [call?, h]
  · simp [client?, h]
  · simp [spawn?, h]
  · simp [callTask?, h]
  · simp [streamTask?, h]
  · simp [watcher?, h]

variable (alone : w.IsAlone)

include alone

theorem IsAlone.second_none : w.endpoint? .b = none :=
  alone.session

theorem IsAlone.put (e : Endpoint) (m : Station) : (w.put .a e m).IsAlone :=
  ⟨alone.session, alone.wire⟩

theorem IsAlone.stepCall {i : Nat} (h : w.stepCall? side i = some w') :
    w'.IsAlone ∧ w.Moves w' := by
  obtain ⟨e, t, t', m, stage', he, ht, hStep, rfl⟩ := stepCall?_eq_some h
  cases side with
  | a =>
      cases he
      exact ⟨⟨alone.session, alone.wire⟩, .inl (.call i t t' m w.stage stage' ht hStep)⟩
  | b =>
      rw [alone.second_none] at he
      cases he

theorem IsAlone.stepStream {i : Nat} (h : w.stepStream? side i = some w') :
    w'.IsAlone ∧ w.Moves w' := by
  obtain ⟨e, t, t', m, stage', he, ht, hStep, rfl⟩ := stepStream?_eq_some h
  cases side with
  | a =>
      cases he
      exact ⟨⟨alone.session, alone.wire⟩, .inl (.stream i t t' m w.stage stage' ht hStep)⟩
  | b =>
      rw [alone.second_none] at he
      cases he

theorem IsAlone.kindStep (isKind : kind ∈ kinds) (h : kind w side = some w') :
    w'.IsAlone ∧ w.Moves w' := by
  cases side with
  | b =>
      rw [kind_of_none alone.second_none isKind] at h
      cases h
  | a =>
      have hQueues : w.wire ≠ .queues := by
        rw [alone.wire]
        exact nofun
      simp only [kinds, List.mem_cons, List.not_mem_nil, or_false] at isKind
      obtain rfl | rfl | rfl | rfl | rfl | rfl | rfl | rfl | rfl | rfl | rfl | rfl := isKind
      · obtain ⟨e, line, he, hWaiting, rfl⟩ := pass?_eq_some h
        cases he
        exact ⟨⟨alone.session, alone.wire⟩, .inr ⟨rfl, hWaiting⟩⟩
      · rw [read?_linked rfl] at h
        obtain ⟨l, hl, rfl⟩ := Option.map_eq_some_iff.mp h
        exact ⟨alone.put _ _, .inl (.read l hl)⟩
      · rw [consume?_linked rfl hQueues] at h
        obtain ⟨l, hl, rfl⟩ := Option.map_eq_some_iff.mp h
        exact ⟨alone.put _ _, .inl (.consume l hl)⟩
      · rw [write?_linked rfl] at h
        obtain ⟨l, hl, rfl⟩ := Option.map_eq_some_iff.mp h
        exact ⟨alone.put _ _, .inl (.write l hl)⟩
      · simp [forward?, alone.wire] at h
      · obtain ⟨k, hk⟩ := firstOf_eq_some h
        obtain ⟨m, hm, rfl⟩ := tryOnSide_eq_some hk
        exact ⟨alone.put _ _, .inl (.task (.startRefusal k) (.startRefusal k) m hm)⟩
      · obtain ⟨c, hc⟩ := firstOf_eq_some h
        obtain ⟨m, hm, rfl⟩ := tryOnSide_eq_some hc
        exact ⟨alone.put _ _, .inl (.task (.pollCall c) (.pollCall c) m hm)⟩
      · obtain ⟨c, hc⟩ := firstOf_eq_some h
        obtain ⟨m, hm, rfl⟩ := tryOnSide_eq_some hc
        exact ⟨alone.put _ _, .inl (.task (.pollClient c) (.pollClient c) m hm)⟩
      · simp only [spawn?, endpoint?] at h
        split at h
        · next room =>
            cases h
            exact ⟨⟨alone.session, alone.wire⟩, .inl (.spawnCall room)⟩
        · split at h
          · next room =>
              cases h
              exact ⟨⟨alone.session, alone.wire⟩, .inl (.spawnStream room)⟩
          · cases h
      · obtain ⟨i, hi⟩ := firstOf_eq_some h
        exact alone.stepCall hi
      · obtain ⟨i, hi⟩ := firstOf_eq_some h
        exact alone.stepStream hi
      · obtain ⟨i, hi⟩ := firstOf_eq_some h
        split at hi
        · cases hi
        · next t ht =>
            obtain ⟨⟨t', stage'⟩, hStep, rfl⟩ := Option.map_eq_some_iff.mp hi
            exact ⟨⟨alone.session, alone.wire⟩, .inl (.watch i t t' w.stage stage' ht hStep)⟩

/-- What a task of a world of one session does. -/
theorem IsAlone.step (h : w.TaskStep w') : w'.IsAlone ∧ w.Moves w' := by
  cases h with
  | outbound side t next working step result =>
      cases side with
      | a =>
          obtain ⟨m, hm, rfl⟩ := tryOnSide_eq_some step
          subst result
          exact ⟨⟨alone.session, alone.wire⟩, .inl (.task (.advance t) (.advance t) m hm)⟩
      | b =>
          rw [outbound?, World.tryOnSide, alone.second_none] at step
          cases step
  | call side i step => exact alone.stepCall step
  | stream side i step => exact alone.stepStream step
  | other kind isKind side working step =>
      have hAlone : { w with working }.IsAlone := ⟨alone.session, alone.wire⟩
      exact hAlone.kindStep isKind step

/-- When a world of one session cannot move on, its session and its handlers are at rest. -/
theorem IsAlone.atRest (h : w.step? = none) : w.staffed.AtRest w.stage := by
  have hQueues : { w with working := none }.wire ≠ .queues := fun hWire => by
    rw [alone.wire] at hWire
    cases hWire
  have hKind : ∀ kind ∈ kinds, kind { w with working := none } .a = none :=
    fun kind isKind => kind_eq_none h isKind .a
  have hSpawn := hKind spawn? (by simp [kinds])
  simp only [spawn?, endpoint?] at hSpawn
  have hRuns : w.a.session.runs.length ≤ w.a.callTasks.length := by
    by_contra hRoom
    rw [if_pos (Nat.lt_of_not_le hRoom)] at hSpawn
    cases hSpawn
  have hServed : w.a.session.servedStreams.length ≤ w.a.streamTasks.length := by
    by_contra hRoom
    rw [if_neg (Nat.not_lt.mpr hRuns), if_pos (Nat.lt_of_not_le hRoom)] at hSpawn
    cases hSpawn
  refine ⟨?_, ?_, ?_, ?_, hRuns, hServed, fun i t ht => ?_, fun i t ht => ?_⟩
  · exact fun t => Option.map_eq_none_iff.mp (outbound?_eq_none h .a t)
  · have hRead := hKind read? (by simp [kinds])
    rw [read?_linked rfl] at hRead
    exact Option.map_eq_none_iff.mp hRead
  · have hConsume := hKind consume? (by simp [kinds])
    rw [consume?_linked rfl hQueues] at hConsume
    exact Option.map_eq_none_iff.mp hConsume
  · have hWrite := hKind write? (by simp [kinds])
    rw [write?_linked rfl] at hWrite
    exact Option.map_eq_none_iff.mp hWrite
  · have hTask := hKind callTask? (by simp [kinds])
    have hIn : i ∈ List.range w.a.callTasks.length :=
      List.mem_range.mpr (List.getElem?_eq_some_iff.mp ht).1
    have hStep := List.findSome?_eq_none_iff.mp hTask i hIn
    exact step_of_stepCall?_eq_none (w := { w with working := none }) hStep rfl ht
  · have hTask := hKind streamTask? (by simp [kinds])
    have hIn : i ∈ List.range w.a.streamTasks.length :=
      List.mem_range.mpr (List.getElem?_eq_some_iff.mp ht).1
    have hStep := List.findSome?_eq_none_iff.mp hTask i hIn
    exact step_of_stepStream?_eq_none (w := { w with working := none }) hStep rfl ht

end World

end PeerLink
