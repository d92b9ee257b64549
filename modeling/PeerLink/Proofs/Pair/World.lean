import PeerLink.Proofs.Pair.Execution
import PeerLink.Scenario.World

/-! The pair behind a world of two sessions. When the sessions of a world are connected to each other,
what the world does with their envelopes is what a pair does. -/
namespace PeerLink.World

variable {w : World} {p : Pair CallScript StreamScript} {side : Side}

/-- The two sessions of a world, if it has two. -/
def pair? (w : World) : Option (Pair CallScript StreamScript) :=
  w.b?.map fun b => { w.host with a := w.a.session, b := b.session }

theorem endpoint?_of_pair? (h : w.pair? = some p) (side : Side) :
    ∃ e, w.endpoint? side = some e ∧ w.station e = p.machine side := by
  obtain ⟨b, hb, rfl⟩ := Option.map_eq_some_iff.mp h
  cases side with
  | a => exact ⟨w.a, rfl, rfl⟩
  | b => exact ⟨b, hb, rfl⟩

theorem pair?_put (h : w.pair? = some p) (side : Side) (e : Endpoint) (m : Station) :
    (w.put side e m).pair? = some (p.put side m) := by
  obtain ⟨b, hb, rfl⟩ := Option.map_eq_some_iff.mp h
  cases side with
  | a => simp [pair?, put, setEndpoint, hb, Pair.put]
  | b => simp [pair?, put, setEndpoint, hb, Pair.put]

theorem pair?_onSide (h : w.pair? = some p) (side : Side) (f : Station → Station) :
    (w.onSide side f).pair? = some (p.put side (f (p.machine side))) := by
  obtain ⟨e, he, hStation⟩ := endpoint?_of_pair? h side
  unfold onSide
  rw [he, ← hStation]
  exact pair?_put h side e _

theorem pair?_tryOnSide (h : w.pair? = some p) (side : Side) (f : Station → Option Station) :
    (w.tryOnSide side f).bind pair? = (f (p.machine side)).map (p.put side) := by
  obtain ⟨e, he, hStation⟩ := endpoint?_of_pair? h side
  simp only [tryOnSide, he]
  rw [hStation]
  cases f (p.machine side) with
  | none => rfl
  | some m => exact pair?_put h side e m

/-- What one session of a world does by itself is an action of the pair. -/
theorem tryOnSide_step? (h : w.pair? = some p) (side : Side) {a : Machine.Action}
    (hLocal : a.isLocal = true) :
    (w.tryOnSide side (·.step? a)).bind pair? = p.step? (.act side a) := by
  rw [pair?_tryOnSide h, Pair.step?, if_pos hLocal]

/-- A session of a world stops if it can. Otherwise it handles the next envelope of the other one. Both
are what a pair does then, and the world does nothing else. -/
theorem consumePaired?_pair (h : w.pair? = some p) (side : Side) :
    (w.consumePaired? side).bind pair? =
      (p.step? (.stop side false)).or (p.step? (.deliver side)) := by
  obtain ⟨e, he, hStation⟩ := endpoint?_of_pair? h side
  obtain ⟨other, hOther, hFrom⟩ := endpoint?_of_pair? h side.other
  have hTake : (p.machine side.other).takeOutbound? =
      other.session.outbound.take?.map fun y =>
        (y.1, (p.machine side.other).onSession fun s => { s with outbound := y.2 }) := by
    rw [← hFrom]
    unfold Machine.takeOutbound? station
    cases other.session.outbound.take? <;> rfl
  simp only [consumePaired?, tryOnSide, he, hOther, hStation, Pair.step?, hTake]
  cases (p.machine side).stopConsuming? false with
  | some m => exact pair?_onSide (pair?_put h side e m) side.other Machine.abandonOutbound
  | none =>
      cases other.session.outbound.take? with
      | none => rfl
      | some y =>
          obtain ⟨envelope, outbound⟩ := y
          simp only [Option.map_none, Option.map_some, Option.none_or]
          cases (p.machine side).receive? envelope with
          | none => rfl
          | some m =>
              have hPut := pair?_put h side e m
              rw [Option.map_some, Option.map_some, Option.bind_some, pair?_onSide hPut]
              simp [Pair.machine, Machine.onSession]

end PeerLink.World
