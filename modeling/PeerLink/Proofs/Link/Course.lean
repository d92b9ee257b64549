import PeerLink.Proofs.Link.Lasting
import PeerLink.Proofs.Link.Staffed

/-! What becomes of a world while bytes arrive for its first session and somebody looks at what that has
written. Bytes may arrive at any time, and the tasks move on in any order; the steps of a scenario are a
special case. -/
namespace PeerLink.World

variable {start w w' : World} {arrived : List Bytes} {seen : List Link.Written} {data : Bytes}

/-- The world gets from `start` to a state. `arrived` are the pieces of bytes that have arrived, in order,
and `seen` are the packets that were looked at. -/
inductive Course (start : World) : List Bytes → List Link.Written → World → Prop where
  | start : Course start [] [] start
  | task {arrived : List Bytes} {seen : List Link.Written} {w w' : World}
      (prior : Course start arrived seen w) (step : w.TaskStep w') : Course start arrived seen w'
  | arrive {arrived : List Bytes} {seen : List Link.Written} {w : World}
      (prior : Course start arrived seen w) (data : Bytes) :
      Course start (arrived ++ [data]) seen (w.begin (.receiveBytes data)).1
  | look {arrived : List Bytes} {seen : List Link.Written} {w : World}
      (prior : Course start arrived seen w) :
      Course start arrived (seen ++ (w.linked w.a).packets) (w.onTransport clearTaken)
  /-- The program is told of what has happened. -/
  | report {arrived : List Bytes} {seen : List Link.Written} {w : World}
      (prior : Course start arrived seen w) : Course start arrived seen w.report

theorem Course.settleWith (course : Course start arrived seen w) (fuel : Nat) :
    Course start arrived seen (settleWith fuel w) := by
  induction fuel generalizing w with
  | zero => exact course
  | succ fuel ih =>
      rw [World.settleWith]
      split
      · exact course
      · next hStep => exact ih (course.task (taskStep_of_step? hStep))

theorem Course.settle (course : Course start arrived seen w) : Course start arrived seen w.settle :=
  course.settleWith _

theorem begin_receiveBytes (w : World) (data : Bytes) :
    ∃ result, (w.begin (.receiveBytes data)).2 = .done result := by
  change ∃ result, (w.arrive (arriveEvent (.chunk data))).2 = .done result
  unfold arrive
  split
  · exact ⟨_, rfl⟩
  · exact ⟨_, rfl⟩

/-- A step of a scenario in which bytes arrive. -/
theorem Course.run (course : Course start arrived seen w) (data : Bytes) :
    Course start (arrived ++ [data]) seen (w.run (.receiveBytes data)).1 := by
  obtain ⟨result, hResult⟩ := begin_receiveBytes w data
  have hRun : (w.run (.receiveBytes data)).1 =
      (w.begin (.receiveBytes data)).1.settle.settle.report := by
    rw [World.run]
    simp only [hResult, finishOp]
  rw [hRun]
  exact (course.arrive data).settle.settle.report

/-! ### One session -/

/-- A session that was asked for nothing and whose transport cannot move on has nothing to do. -/
theorem not_step_of_unused {l : Linked CallScript StreamScript} {y : Staffed}
    (advance : ∀ t, l.advanceOutbound? t = none) (read : l.step? .read = none)
    (consume : l.step? .consume = none) (write : l.step? .write = none)
    (refusals : l.session.refusals = []) (calls : l.session.calls = [])
    (clients : l.session.clientStreams = []) (runs : l.session.runs = [])
    (served : l.session.servedStreams = []) : ¬ Staffed.Step ⟨l, [], []⟩ y := by
  intro step
  cases step with
  | task a isTask m step =>
      obtain ⟨t, rfl⟩ := isTask.eq_advance step refusals calls clients
      cases (advance t).symm.trans step
  | read l' step => cases read.symm.trans step
  | consume l' step => cases consume.symm.trans step
  | write l' step => cases write.symm.trans step
  | spawnCall room =>
      rw [runs] at room
      cases room
  | spawnStream room =>
      rw [served] at room
      cases room
  | call i t t' m stage stage' found step => cases found
  | stream i t t' m stage stage' found step => cases found
  | watch i t t' stage stage' found step => cases found

/-- When no task of its session has anything to do and nobody waits to send, the world cannot move on. -/
theorem IsAlone.step?_eq_none (alone : w.IsAlone) (rest : ∀ y, ¬ w.staffed.Step y)
    (waiting : w.a.session.outbound.waiting = []) : w.step? = none := by
  by_contra hStep
  obtain ⟨w', hStep⟩ := Option.ne_none_iff_exists'.mp hStep
  obtain hMoves | ⟨_, hSomebody⟩ := (alone.step (taskStep_of_step? hStep)).2
  · exact rest w'.staffed hMoves
  · exact hSomebody waiting

/-- A world that cannot move on has settled. -/
theorem settle_of_step?_eq_none (h : w.step? = none) : w.settle = w := by
  rw [World.settle]
  generalize 64 * (w.weight + 16) * (w.weight + 16) * (w.weight + 16) = fuel
  cases fuel with
  | zero => rfl
  | succ fuel => rw [World.settleWith, h]

theorem staffed_receiveBytes {l : Linked CallScript StreamScript}
    (h : (w.linked w.a).step? (.outside (.source (.chunk data))) = some l) :
    (w.begin (.receiveBytes data)).1.staffed = { w.staffed with link := l } := by
  obtain ⟨t, hChange, rfl⟩ := Option.map_eq_some_iff.mp h
  change (w.arrive (arriveEvent (.chunk data))).1.staffed = _
  have hArrive : arriveEvent (.chunk data) w.a.transport = some t := hChange
  rw [arrive, hArrive]
  rfl

theorem IsAlone.receiveBytes (alone : w.IsAlone) (data : Bytes) :
    (w.begin (.receiveBytes data)).1.IsAlone := by
  change (w.arrive (arriveEvent (.chunk data))).1.IsAlone
  unfold arrive
  split
  · exact ⟨alone.session, alone.wire⟩
  · exact alone

end PeerLink.World
