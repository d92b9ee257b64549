import PeerLink.Proofs.Session.Growth

/-! What becomes of what is sent. Envelopes that are in the queue reach the transport in order; those
that wait for their turn get in as the turns come. Some never do, because their sender gave up or the
transport went away; none does twice. -/
namespace PeerLink

variable {M S : Type}

/-- The envelopes on their way to the transport: those in the queue, and those whose senders wait. -/
def Outbound.pipeline (o : Outbound) : List Envelope :=
  o.queued ++ o.waiting.map Prod.snd

/-- All sends that ever began: who said what. -/
def Session.said (s : Session M S) : List (Sender × Envelope) :=
  s.sends.map fun x => (x.sender, x.envelope)

/-- The envelopes of all sends that ever began. -/
def Session.sent (s : Session M S) : List Envelope :=
  s.said.map Prod.snd

theorem Session.said_of_sends {s : Session M S} {t : Ticket} {z : Send} (hz : s.sends[t]? = some z) :
    s.said[t]? = some (z.sender, z.envelope) := by
  rw [Session.said, List.getElem?_map, hz, Option.map_some]

theorem subperm_filterMap {α β : Type} {l l' : List α} (h : l.Subperm l') (f : α → Option β) :
    (l.filterMap f).Subperm (l'.filterMap f) := by
  obtain ⟨part, hPerm, hSub⟩ := h
  exact ⟨part.filterMap f, hPerm.filterMap f, hSub.filterMap f⟩

namespace Outbound

theorem pipeline_enqueue (o : Outbound) (t : Ticket) (e : Envelope) :
    (o.enqueue t e).pipeline = o.pipeline ++ [e] := by
  simp [pipeline, enqueue]

theorem pipeline_giveUp (o : Outbound) (t : Ticket) :
    (o.giveUp t).pipeline.Sublist o.pipeline :=
  (List.Sublist.refl _).append (List.filter_sublist.map Prod.snd)

theorem pipeline_advance {o o' : Outbound} {t : Ticket} {result? : Option SendResult}
    (h : o.advance? t = some (o', result?)) : o'.pipeline.Subperm o.pipeline := by
  have hEnters {e : Envelope} {front back : List (Ticket × Envelope)} :
      ((o.queued ++ [e]) ++ (front ++ back).map Prod.snd).Perm
        (o.queued ++ (front ++ (t, e) :: back).map Prod.snd) := by
    rw [List.append_assoc, List.singleton_append, List.map_append, List.map_append, List.map_cons]
    exact List.perm_middle.symm.append_left _
  cases advance?_cases h with
  | flushed _ => exact List.Subperm.refl _
  | refused e front back _ waiting =>
      rw [pipeline, pipeline, waiting]
      exact (((List.sublist_cons_self _ _).append_left front).map Prod.snd).append_left _ |>.subperm
  | filled e front back _ waiting =>
      rw [pipeline, pipeline, waiting]
      exact hEnters.subperm
  | entered e front back _ waiting =>
      rw [pipeline, pipeline, waiting]
      exact hEnters.subperm

theorem pipeline_take {o o' : Outbound} {e : Envelope} (h : o.take? = some (e, o')) :
    o.pipeline = e :: o'.pipeline := by
  obtain ⟨rest, hQueued, rfl⟩ := take?_eq_some h
  simp [pipeline, hQueued]

theorem pipeline_abandon (o : Outbound) : o.abandon.pipeline.Sublist o.pipeline :=
  List.sublist_append_right _ _

end Outbound

namespace Machine

variable {m m' : Machine M S} {a : Action}

theorem said_beginSend (s : Session M S) (x : Sender) (e : Envelope) :
    (s.beginSend x e).said = s.said ++ [(x, e)] := by
  simp [Session.said, Session.beginSend]

theorem retire_said (m : Machine M S) (i : ServedStreamId) (x : ServedStream S)
    (result : Except Failure Unit) : (m.retire i x result).session.said = m.session.said := by
  rw [retire_session]
  rfl

theorem said_eq {s s' : Session M S} (h : Retained Send.Keeps s.sends s'.sends)
    (hLength : s'.sends.length = s.sends.length) : s'.said = s.said :=
  h.map_eq hLength fun x y hKeeps => by rw [hKeeps.sender, hKeeps.envelope]

theorem giveUp_said (s : Session M S) (t : Ticket) : (s.giveUp t).said = s.said := by
  apply said_eq (giveUp_retained s t)
  unfold Session.giveUp
  split
  · rfl
  · exact List.length_modify _ _ _

theorem giveUp_pipeline (s : Session M S) (t : Ticket) :
    (s.giveUp t).outbound.pipeline.Sublist s.outbound.pipeline := by
  unfold Session.giveUp
  split
  · exact List.Sublist.refl _
  · exact Outbound.pipeline_giveUp _ t

/-- At most one send begins at a time, and for a reason. Nothing else joins what is on its way. -/
theorem step?_flow (h : m.step? a = some m') :
    ∃ begun, m'.session.said = m.session.said ++ begun ∧
      (begun = [] ∨ ∃ x e, m.Says a x e ∧ begun = [(x, e)]) ∧
      m'.session.outbound.pipeline.Subperm
        (m.session.outbound.pipeline ++ begun.map Prod.snd) := by
  have hSame : m'.session.said = m.session.said →
      m'.session.outbound.pipeline.Subperm m.session.outbound.pipeline →
      ∃ begun, m'.session.said = m.session.said ++ begun ∧
        (begun = [] ∨ ∃ x e, m.Says a x e ∧ begun = [(x, e)]) ∧
        m'.session.outbound.pipeline.Subperm
          (m.session.outbound.pipeline ++ begun.map Prod.snd) :=
    fun hSaid hSub => ⟨[], by simpa using hSaid, .inl rfl, by simpa using hSub⟩
  cases step?_sends h with
  | kept sends outbound =>
      exact hSame (by unfold Session.said; rw [sends]) (by rw [outbound])
  | began x e cause sends outbound =>
      refine ⟨[(x, e)], ?_, .inr ⟨x, e, cause, rfl⟩, ?_⟩
      · unfold Session.said
        rw [sends, List.map_append, List.map_singleton]
      · rw [outbound, Outbound.pipeline_enqueue]
        exact List.Subperm.refl _
  | gaveUp t _ sends outbound =>
      refine hSame ?_ ?_
      · rw [← giveUp_said m.session t]
        unfold Session.said
        rw [sends]
      · rw [outbound]
        exact (giveUp_pipeline m.session t).subperm
  | queued outbound _ _ advance next =>
      rw [next] at hSame ⊢
      exact hSame rfl (Outbound.pipeline_advance advance)
  | completed outbound t result _ advance next =>
      refine hSame (said_eq (step?_grows h).sends ?_) ?_
      · rw [next, finishSend_sends]
        exact List.length_modify _ _ _
      · rw [next, finishSend_outbound]
        exact Outbound.pipeline_advance advance
  | taken e outbound _ take next =>
      rw [next] at hSame ⊢
      apply hSame rfl
      rw [Outbound.pipeline_take take]
      exact (List.sublist_cons_self _ _).subperm
  | abandoned _ next =>
      rw [next] at hSame ⊢
      exact hSame rfl (Outbound.pipeline_abandon _).subperm

/-- The transport takes what is next. -/
theorem takeOutbound?_flow {e : Envelope} (h : m.takeOutbound? = some (e, m')) :
    m.session.outbound.pipeline = e :: m'.session.outbound.pipeline ∧
      m'.session.sent = m.session.sent := by
  obtain ⟨rest, hQueued, rfl⟩ := takeOutbound?_eq_some h
  refine ⟨?_, rfl⟩
  simp [Outbound.pipeline, hQueued]

end Machine

end PeerLink
