import PeerLink.Proofs.Session.Frame

/-! Time and counts. A session shares its clock and its counts with others, and few of its actions touch
them: time passes by a tick alone, and what is counted is the return of a handler. -/
namespace PeerLink

variable {M S : Type}

/-- The counts after a handler has returned. -/
def Meter.counted {ε α : Type} (result : Except ε α) (m : Meter) : Meter :=
  match result with
  | .ok _ => m.success
  | .error _ => m.failure

/-- The two agree on pings, and on whether they are counted. -/
structure Meter.SamePings (m m' : Meter) : Prop where
  active : m'.active = m.active
  pings : m'.pings = m.pings

namespace Meter.SamePings

theorem refl (m : Meter) : m.SamePings m := ⟨rfl, rfl⟩

theorem of_eq {m m' : Meter} (he : m' = m) : m.SamePings m' := he ▸ refl m

theorem success (m : Meter) : m.SamePings m.success := by
  obtain ⟨active, _, _, _⟩ := m
  cases active <;> exact ⟨rfl, rfl⟩

theorem failure (m : Meter) : m.SamePings m.failure := by
  obtain ⟨active, _, _, _⟩ := m
  cases active <;> exact ⟨rfl, rfl⟩

theorem counted {ε α : Type} (result : Except ε α) (m : Meter) : m.SamePings (m.counted result) := by
  cases result with
  | ok _ => exact success m
  | error _ => exact failure m

end Meter.SamePings

/-- The two differ at most in lifetimes and notes. -/
structure Host.Alike (h h' : Host) : Prop where
  now : h'.now = h.now
  meter : h'.meter = h.meter

namespace Host.Alike

theorem refl (h : Host) : h.Alike h := ⟨rfl, rfl⟩

theorem of_eq {h h' : Host} (he : h' = h) : h.Alike h' := he ▸ refl h

theorem trans {h h' h'' : Host} (hFirst : h.Alike h') (hThen : h'.Alike h'') : h.Alike h'' :=
  ⟨hThen.now.trans hFirst.now, hThen.meter.trans hFirst.meter⟩

end Host.Alike

namespace Machine

/-- How much time an action takes. -/
def Action.elapsed : Action → Nat
  | .tick d => d.nanos
  | _ => 0

/-- What an action makes of the counts. Others count what they like. -/
def Action.count (a : Action) (meter : Meter) : Meter :=
  match a with
  | .finishRun _ result => meter.counted result
  | .finishServed _ result => meter.counted result
  | .others meter _ => meter
  | _ => meter

/-- No session counts a ping by itself. -/
theorem Action.samePings {a : Action} (hOwn : ∀ meter journal, a ≠ .others meter journal)
    (meter : Meter) : meter.SamePings (a.count meter) := by
  cases a with
  | finishRun r result => exact .counted result meter
  | finishServed i result => exact .counted result meter
  | others meter journal => exact absurd rfl (hOwn meter journal)
  | _ => exact .refl meter

variable {m m' : Machine M S} {a : Action}

theorem closeServed_alike (m : Machine M S) (i : ServedStreamId) :
    m.toHost.Alike (m.closeServed i).toHost := by
  unfold closeServed
  split
  · exact .refl _
  · exact ⟨rfl, rfl⟩

theorem closeAll_alike (m : Machine M S) (entries : List (Int32 × ServedStreamId)) :
    m.toHost.Alike (entries.foldl (fun m e => m.closeServed e.2) m).toHost := by
  induction entries generalizing m with
  | nil => exact .refl _
  | cons e rest ih => exact (closeServed_alike m e.2).trans (ih _)

theorem closeOpenStreams_alike (m : Machine M S) : m.toHost.Alike m.closeOpenStreams.toHost :=
  closeAll_alike m m.session.openStreams.entries

theorem removeServed_alike (m : Machine M S) (i : ServedStreamId) (id : Int32) :
    m.toHost.Alike (m.removeServed i id).toHost := by
  unfold removeServed
  split
  · exact closeServed_alike m i
  · exact .refl _

theorem pollClient?_alike {c : ClientStreamId} (h : m.pollClient? c = some m') :
    m.toHost.Alike m'.toHost := by
  obtain ⟨stream, _, _, ⟨_, rfl⟩ | ⟨content, rest, _, rfl⟩⟩ := pollClient?_cases h
  · exact ⟨rfl, rfl⟩
  · obtain ⟨messages, he | he⟩ := sortResponse_cases m c stream content rest
    · rw [he]
      exact ⟨rfl, rfl⟩
    · rw [he]
      exact ⟨rfl, rfl⟩

theorem handle_alike (m : Machine M S) (e : Envelope) : m.toHost.Alike (m.handle e).toHost := by
  cases e with
  | request r =>
      simp only [handle]
      split
      · obtain ⟨_, _, he⟩ | ⟨_, _, he⟩ | ⟨_, _, _, he⟩ := handleStream_cases m r <;>
          · rw [he]
            exact ⟨rfl, rfl⟩
      · obtain ⟨_, he⟩ | ⟨_, _, he⟩ := handleCall_cases m r <;>
          · rw [he]
            exact ⟨rfl, rfl⟩
  | response r =>
      obtain ⟨c, _, he⟩ | ⟨c, _, he⟩ | ⟨_, he⟩ := deliver_cases m r <;>
        · rw [handle, he]
          exact ⟨rfl, rfl⟩
  | streamClose id =>
      simp only [handle, handleStreamClose]
      split
      · next i _ => exact closeServed_alike m i
      · exact ⟨rfl, rfl⟩
  | bye => exact closeOpenStreams_alike m
  | opening _ => exact .refl _
  | openingAck _ => exact .refl _

theorem finishRun_shared {r : RunId} {run : Run M} (h : m.session.runs[r]? = some run)
    (result : Except HandlerError Payload) :
    (m.finishRun r result).now = m.now ∧
      (m.finishRun r result).meter = m.meter.counted result := by
  unfold finishRun
  rw [h]
  cases result <;> exact ⟨rfl, rfl⟩

theorem finishServed_shared {i : ServedStreamId} {x : ServedStream S}
    (h : m.session.servedStreams[i]? = some x) (result : Except Failure Unit) :
    (m.finishServed i result).now = m.now ∧
      (m.finishServed i result).meter = m.meter.counted result := by
  obtain ⟨hNow, hMeter⟩ := removeServed_alike m i x.id
  have hRetired : (m.retire i x result).now = m.now ∧
      (m.retire i x result).meter = m.meter.counted result := by
    cases result with
    | ok _ => exact ⟨hNow, congrArg Meter.success hMeter⟩
    | error e => exact ⟨hNow, congrArg Meter.failure hMeter⟩
  rw [finishServed_eq h]
  split
  · exact hRetired
  · exact hRetired

/-- Time passes by ticks alone, and nothing but the return of a handler is counted. -/
theorem step?_shared (h : m.step? a = some m') :
    m'.now = m.now + a.elapsed ∧ m'.meter = a.count m.meter := by
  have hAlike : a.elapsed = 0 → a.count m.meter = m.meter → m.toHost.Alike m'.toHost →
      m'.now = m.now + a.elapsed ∧ m'.meter = a.count m.meter := fun hElapsed hCount hSame => by
    rw [hElapsed, hCount]
    exact ⟨hSame.now, hSame.meter⟩
  cases a with
  | openStream _ | close | cancel _ | addLifetime _ | tick _ | others _ _ =>
      cases h
      exact ⟨rfl, rfl⟩
  | dropClient c =>
      cases h
      apply hAlike rfl rfl
      obtain ⟨_, _, he⟩ | ⟨_, he⟩ := dropClient_cases m c
      · rw [he]
        exact ⟨rfl, rfl⟩
      · rw [he]
        exact .refl _
  | pollClient c => exact hAlike rfl rfl (pollClient?_alike h)
  | finishRun r result =>
      obtain ⟨run, hRun, _, rfl⟩ := step?_finishRun_eq_some h
      exact finishRun_shared hRun result
  | finishServed i result =>
      obtain ⟨x, hx, _, rfl⟩ := step?_finishServed_eq_some h
      exact finishServed_shared hx result
  | receive e =>
      obtain ⟨_, _, rfl⟩ := receive?_eq_some h
      exact hAlike rfl rfl (handle_alike m e)
  | stop exhausted =>
      obtain ⟨_, _, rfl⟩ := stopConsuming?_eq_some h
      exact hAlike rfl rfl ((closeOpenStreams_alike m).trans ⟨rfl, rfl⟩)
  | _ => exact hAlike rfl rfl (.of_eq (step?_toHost h rfl))

/-- What a history makes of the counts. -/
def History.tally (past : History M S) (meter : Meter) : Meter :=
  past.foldl (fun meter x => x.2.count meter) meter

theorem Execution.meter {start : Machine M S} {past : History M S}
    (exec : Execution start past m) : m.meter = past.tally start.meter := by
  induction exec with
  | refl => rfl
  | step _ last ih =>
      rw [(step?_shared last).2, ih, History.tally, History.tally, List.foldl_append]
      rfl

end Machine

end PeerLink
