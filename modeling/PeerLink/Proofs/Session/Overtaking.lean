import Mathlib.Data.List.Sort
import PeerLink.Proofs.Session.Flow
import PeerLink.Proofs.Session.Queueing
import PeerLink.Proofs.Session.Work

/-! In which order envelopes get into the queue. Of the senders that wait, any may be the next one, so one
that came later may overtake another. But it only overtakes those who were there when it came: a send that
had ended before another one began has its place before that. So the envelopes of senders that wait for
each other are queued in the order in which their sends began. -/
namespace PeerLink

variable {M S : Type}

/-- What `P` says of the send with a number. -/
def Session.picks (s : Session M S) (P : Sender × Envelope → Bool) (t : Ticket) : Bool :=
  s.said[t]?.any P

/-- Nobody gave up on a send that `P` picks. -/
def Session.Spares (s : Session M S) (P : Sender × Envelope → Bool) : Prop :=
  ∀ z ∈ s.sends, z.state = .givenUp → P (z.sender, z.envelope) = false

/-- What was said, by the numbers of the sends. -/
theorem Session.said_filterMap {β : Type} (s : Session M S) (g : Sender × Envelope → Option β) :
    s.said.filterMap g = (List.range s.said.length).filterMap fun t => s.said[t]?.bind g := by
  rw [List.range_eq_range', ← List.zipIdx_map_snd, List.filterMap_map]
  conv_lhs => rw [← List.zipIdx_map_fst 0 s.said, List.filterMap_map]
  refine List.filterMap_congr fun z hz => ?_
  rw [Function.comp_apply, Function.comp_apply, List.mem_zipIdx_iff_getElem?.mp hz, Option.bind_some]

theorem Session.Grows.said {s s' : Session M S} (h : s.Grows s') {t : Ticket} {y : Sender × Envelope}
    (hy : s.said[t]? = some y) : s'.said[t]? = some y := by
  rw [Session.said, List.getElem?_map, Option.map_eq_some_iff] at hy
  obtain ⟨z, hz, rfl⟩ := hy
  obtain ⟨w, hw, hKeeps⟩ := h.sends t z hz
  rw [Session.said, List.getElem?_map, hw, Option.map_some, hKeeps.sender, hKeeps.envelope]

/-- Numbers that ascend, with none left out that comes before one of them, are the first ones. -/
theorem prefix_of_ascending {l l' : List Nat} (hAscending : l.Pairwise (· < ·))
    (hAll : l'.Pairwise (· < ·)) (hSub : l ⊆ l') (hBefore : ∀ u ∈ l, ∀ t ∈ l', t < u → t ∈ l) :
    l <+: l' := by
  induction l' generalizing l with
  | nil => exact List.subset_nil.mp hSub ▸ List.nil_prefix
  | cons t rest ih =>
      cases l with
      | nil => exact List.nil_prefix
      | cons u l =>
          obtain ⟨hFirst, hLater⟩ := List.pairwise_cons.mp hAscending
          obtain ⟨hLeast, hRest⟩ := List.pairwise_cons.mp hAll
          have hSame : u = t := by
            rcases List.mem_cons.mp (hSub List.mem_cons_self) with hSame | hu
            · exact hSame
            · have hLt := hLeast u hu
              rcases List.mem_cons.mp (hBefore u List.mem_cons_self t List.mem_cons_self hLt) with hSame | ht
              · exact hSame.symm
              · exact absurd (hFirst t ht) (Nat.lt_asymm hLt)
          subst hSame
          refine (List.prefix_cons_inj u).mpr (ih hLater hRest (fun v hv => ?_) fun v hv w hw hLt => ?_)
          · refine (List.mem_cons.mp (hSub (List.mem_cons_of_mem _ hv))).resolve_left ?_
            exact Nat.ne_of_gt (hFirst v hv)
          · refine (List.mem_cons.mp (hBefore v (List.mem_cons_of_mem _ hv) w
              (List.mem_cons_of_mem _ hw) hLt)).resolve_left ?_
            exact Nat.ne_of_gt (hLeast w hw)

namespace Machine

variable {m m' : Machine M S} {a : Action} {past : History M S} {s : Session M S} {t u : Ticket}

/-- The number of the send that begins by an action. -/
def begins? (m : Machine M S) (a : Action) : Option Ticket :=
  (m.step? a).bind fun m' =>
    if m.session.sends.length < m'.session.sends.length then some m.session.sends.length else none

/-- The send `t` was under way when the send `u` began. -/
def History.Overlap (past : History M S) (t u : Ticket) : Prop :=
  ∃ x ∈ past, x.1.begins? x.2 = some u ∧ t ∈ x.1.session.outbound.tickets

instance (past : History M S) (t u : Ticket) : Decidable (past.Overlap t u) :=
  inferInstanceAs (Decidable (∃ x ∈ past, _ ∧ _))

/-- When a send began that `P` picks, no other one that it picks was under way. -/
def History.Serial (past : History M S) (s : Session M S) (P : Sender × Envelope → Bool) : Prop :=
  ∀ x ∈ past, ∀ u ∈ x.1.begins? x.2, ∀ t ∈ x.1.session.outbound.tickets, s.picks P t = true →
    s.picks P u = false

instance (past : History M S) (s : Session M S) (P : Sender × Envelope → Bool) :
    Decidable (past.Serial s P) :=
  inferInstanceAs (Decidable (∀ x ∈ past, ∀ u ∈ x.1.begins? x.2, _))

theorem History.Serial.unpicked {P : Sender × Envelope → Bool} (h : past.Serial s P)
    (hOverlap : past.Overlap t u) (ht : s.picks P t = true) : s.picks P u = false := by
  obtain ⟨x, hx, hBegins, hUnderWay⟩ := hOverlap
  exact h x hx u hBegins t hUnderWay ht

/-- A send that begins waits behind those that are waiting already. -/
theorem begins?_eq_some (h : m.begins? a = some u) : ∃ m' x e, m.step? a = some m' ∧ m.Says a x e ∧
    u = m.session.sends.length ∧ m'.session.sends = m.session.sends ++ [⟨x, e, .pending⟩] ∧
    m'.session.outbound = m.session.outbound.enqueue m.session.sends.length e := by
  obtain ⟨m', hStep, hGrown⟩ := Option.bind_eq_some_iff.mp h
  split at hGrown
  · next hLonger =>
      cases hGrown
      have hSame {l : List Send} (hLength : l.length = m.session.sends.length) :
          ¬ m.session.sends.length < l.length := hLength ▸ Nat.lt_irrefl _
      cases step?_sends hStep with
      | began x e cause sends outbound => exact ⟨m', x, e, hStep, cause, rfl, sends, outbound⟩
      | kept sends _ => exact absurd hLonger (hSame (by rw [sends]))
      | gaveUp t _ sends _ =>
          refine absurd hLonger (hSame ?_)
          rw [sends, Session.giveUp]
          split
          · rfl
          · exact List.length_modify _ _ _
      | completed _ t result _ _ next =>
          refine absurd hLonger (hSame ?_)
          rw [next, finishSend_sends]
          exact List.length_modify _ _ _
      | queued _ _ _ _ next | taken _ _ _ _ next | abandoned _ next =>
          exact absurd hLonger (hSame (by rw [next]; rfl))
  · cases hGrown

theorem begins?_of_sends (h : m.step? a = some m') {x : Send}
    (sends : m'.session.sends = m.session.sends ++ [x]) :
    m.begins? a = some m.session.sends.length := by
  rw [begins?, h, Option.bind_some, if_pos]
  rw [sends, List.length_append]
  exact Nat.lt_succ_self _

theorem History.Overlap.append (h : past.Overlap t u) (later : History M S) :
    History.Overlap (past ++ later) t u :=
  h.imp fun _ hx => ⟨List.mem_append_left _ hx.1, hx.2⟩

theorem History.Overlap.now (h : m.begins? a = some u) (ht : t ∈ m.session.outbound.tickets) :
    History.Overlap (past ++ [(m, a)]) t u :=
  ⟨(m, a), List.mem_append_right _ (List.mem_singleton.mpr rfl), h, ht⟩

/-! ### Who is waiting -/

/-- Nobody begins to wait but by a send that begins. -/
theorem step?_waiting (h : m.step? a = some m') :
    m'.session.outbound.waiting.Sublist m.session.outbound.waiting ∧
        m'.session.sends.length = m.session.sends.length ∨
      ∃ x e, m'.session.sends = m.session.sends ++ [⟨x, e, .pending⟩] ∧
        m'.session.outbound.waiting = m.session.outbound.waiting ++ [(m.session.sends.length, e)] := by
  have hTurn {outbound : Outbound} {t : Ticket} {result? : Option SendResult}
      (advance : m.session.outbound.advance? t = some (outbound, result?)) :
      outbound.waiting.Sublist m.session.outbound.waiting := by
    cases Outbound.advance?_cases advance with
    | flushed _ => exact List.Sublist.refl _
    | refused _ front back _ waiting | filled _ front back _ waiting | entered _ front back _ waiting =>
        rw [waiting]
        exact (List.sublist_cons_self _ _).append_left front
  cases step?_sends h with
  | kept sends outbound => exact .inl ⟨outbound ▸ List.Sublist.refl _, by rw [sends]⟩
  | began x e _ sends outbound => exact .inr ⟨x, e, sends, by rw [outbound]; rfl⟩
  | gaveUp t _ sends outbound =>
      refine .inl ?_
      rw [sends, outbound, Session.giveUp]
      split
      · exact ⟨List.Sublist.refl _, rfl⟩
      · exact ⟨List.filter_sublist, List.length_modify _ _ _⟩
  | queued outbound t _ advance next =>
      rw [next]
      exact .inl ⟨hTurn advance, rfl⟩
  | completed outbound t result _ advance next =>
      rw [next, finishSend_outbound, finishSend_sends]
      exact .inl ⟨hTurn advance, List.length_modify _ _ _⟩
  | taken e outbound _ take next =>
      obtain ⟨rest, _, rfl⟩ := Outbound.take?_eq_some take
      rw [next]
      exact .inl ⟨List.Sublist.refl _, rfl⟩
  | abandoned _ next =>
      rw [next]
      exact .inl ⟨List.Sublist.refl _, rfl⟩

/-- Those that wait stand in the order in which they came, and saw all others come that came since. -/
structure Lined (past : History M S) (s : Session M S) : Prop where
  sorted : (s.outbound.waiting.map Prod.fst).Pairwise (· < ·)
  known : ∀ t ∈ s.outbound.waiting.map Prod.fst, t < s.sends.length
  overlap : ∀ t ∈ s.outbound.waiting.map Prod.fst, ∀ u, t < u → u < s.sends.length → past.Overlap t u

theorem Lined.step (hLined : Lined past m.session) (h : m.step? a = some m') :
    Lined (past ++ [(m, a)]) m'.session := by
  obtain ⟨hSub, hLength⟩ | ⟨x, e, hSends, hWaiting⟩ := step?_waiting h
  · have hTickets := hSub.map Prod.fst
    refine ⟨hLined.sorted.sublist hTickets, fun t ht => ?_, fun t ht u hLt hu => ?_⟩
    · rw [hLength]
      exact hLined.known t (hTickets.subset ht)
    · rw [hLength] at hu
      exact (hLined.overlap t (hTickets.subset ht) u hLt hu).append _
  · have hLength : m'.session.sends.length = m.session.sends.length + 1 := by
      rw [hSends, List.length_append, List.length_singleton]
    rw [← List.concat_eq_append] at hWaiting
    refine ⟨?_, ?_, ?_⟩
    all_goals
      rw [hWaiting, List.concat_eq_append, List.map_append, List.map_singleton]
    · refine List.pairwise_append.mpr ⟨hLined.sorted, List.pairwise_singleton _ _, fun t ht u hu => ?_⟩
      rw [List.mem_singleton.mp hu]
      exact hLined.known t ht
    · intro t ht
      rcases List.mem_append.mp ht with ht | ht
      · exact hLength ▸ Nat.lt_succ_of_lt (hLined.known t ht)
      · rw [List.mem_singleton.mp ht, hLength]
        exact Nat.lt_succ_self _
    · intro t ht u hLt hu
      rw [hLength] at hu
      rcases List.mem_append.mp ht with ht | ht
      · obtain hOld | rfl := Nat.lt_succ_iff_lt_or_eq.mp hu
        · exact (hLined.overlap t ht u hLt hOld).append _
        · exact .now (begins?_of_sends h hSends) (List.mem_append_right _ ht)
      · rw [List.mem_singleton.mp ht] at hLt
        exact absurd hLt (Nat.not_lt.mpr (Nat.le_of_lt_succ hu))

/-! ### Who was given up -/

/-- Who gave up once does not come back. -/
theorem step?_givenUp (hTracked : Tracked m.session) (h : m.step? a = some m') {z : Send}
    (hz : m.session.sends[t]? = some z) (hState : z.state = .givenUp) : m'.session.sends[t]? = some z := by
  cases step?_sends h with
  | kept sends _ => exact sends ▸ hz
  | began x e _ sends _ =>
      rw [sends]
      exact (List.getElem?_append_left (List.getElem?_eq_some_iff.mp hz).1).trans hz
  | gaveUp u _ sends _ =>
      rw [sends, Session.giveUp]
      split
      · exact hz
      · simp only [Session.setSendState, List.getElem?_modify, hz]
        by_cases hu : u = t
        · simp [hu, ← hState]
        · simp [hu]
  | queued _ _ _ _ next =>
      rw [next]
      exact hz
  | completed outbound u result _ advance next =>
      -- The send that ends was under way until now, so it is another one.
      have hu : u ≠ t := by
        rintro rfl
        obtain ⟨x, hx, hPending⟩ := hTracked.pending u
          ((Outbound.tickets_complete advance).symm.subset List.mem_cons_self)
        cases hz.symm.trans hx
        rw [hState] at hPending
        cases hPending
      rw [next, finishSend_sends, List.getElem?_modify_ne _ _ hu]
      exact hz
  | taken _ _ _ _ next =>
      rw [next]
      exact hz
  | abandoned _ next =>
      rw [next]
      exact hz

/-! ### Who got in before whom -/

/-- What got in by an action was waiting, and somebody takes envelopes. -/
theorem mem_entered_now {y : Ticket × Envelope} (hy : y ∈ History.entered [(m, a)]) :
    y ∈ m.session.outbound.waiting ∧ m.session.outbound.abandoned = false := by
  by_cases hAdvance : ∃ t, a = .advance t
  · obtain ⟨t, rfl⟩ := hAdvance
    rw [History.entered_advance, Option.mem_toList] at hy
    refine ⟨(Outbound.mem_waiting_of_entering? hy).1, ?_⟩
    by_contra hGone
    rw [Outbound.entering?_of_abandoned (Bool.not_eq_false _ ▸ hGone)] at hy
    cases hy
  · rw [History.entered_other (not_exists.mp hAdvance)] at hy
    cases hy

section

variable {registry : Registry M S} {callTimeout : Option Duration} {capacity : Nat}
  {lifetime : LifetimeId}

theorem Life.lined (life : Life (Session.new registry callTimeout capacity lifetime) past s) :
    Lined past s := by
  induction life with
  | refl => exact ⟨List.Pairwise.nil, nofun, nofun⟩
  | step _ last ih => exact Lined.step ih last

/-- When the later one of two overlapping sends began, the earlier one was there and had not ended. -/
theorem Life.overlap (life : Life (Session.new registry callTimeout capacity lifetime) past s)
    (hOverlap : past.Overlap t u) : ∃ before q a x e z,
      Life (Session.new registry callTimeout capacity lifetime) before q.session ∧ (q, a) ∈ past ∧
        (∃ q', q.step? a = some q') ∧ q.Says a x e ∧ s.said[u]? = some (x, e) ∧
        t ∈ q.session.outbound.tickets ∧ q.session.said[t]? = some z ∧ s.said[t]? = some z ∧ t < u := by
  obtain ⟨⟨q, a⟩, hMem, hBegins, hUnderWay⟩ := hOverlap
  obtain ⟨before, after, rfl⟩ := List.append_of_mem hMem
  obtain ⟨prior, q', hStep, later⟩ := life.split
  obtain ⟨q'', x, e, hSame, cause, rfl, hSends, _⟩ := begins?_eq_some hBegins
  cases hStep.symm.trans hSame
  obtain ⟨z, hz, _⟩ := (prior.tracked (tracked_new registry callTimeout capacity lifetime)).pending t
    hUnderWay
  obtain ⟨hLt, _⟩ := List.getElem?_eq_some_iff.mp hz
  have hSaid {t : Ticket} {z : Send} (hz : q'.session.sends[t]? = some z) :
      s.said[t]? = some (z.sender, z.envelope) :=
    (Life.grows later).said (Session.said_of_sends hz)
  refine ⟨before, q, a, x, e, (z.sender, z.envelope), prior, hMem, ⟨q', hStep⟩, cause, ?_, hUnderWay,
    Session.said_of_sends hz, hSaid ?_, hLt⟩
  · exact hSaid (by rw [hSends]; exact List.getElem?_concat_length)
  · rw [hSends]
    exact (List.getElem?_append_left hLt).trans hz

/-- What gets in before an envelope whose send began earlier has overtaken it: that send was under way when
its own began. -/
theorem Life.entered_order (life : Life (Session.new registry callTimeout capacity lifetime) past s) :
    ((History.entered past).map Prod.fst).Pairwise fun t u => t < u ∨ past.Overlap u t := by
  induction life with
  | refl => exact List.Pairwise.nil
  | @step past s host a m' prior last ih =>
      have hQueue := prior.queueing
      rw [History.entered_append, List.map_append]
      refine List.pairwise_append.mpr ⟨ih.imp fun h => h.imp_right fun h => h.append _, ?_, ?_⟩
      · by_cases hAdvance : ∃ t, a = .advance t
        · obtain ⟨t, rfl⟩ := hAdvance
          rw [History.entered_advance]
          cases (Machine.mk host s).session.outbound.entering? t with
          | none => exact List.Pairwise.nil
          | some _ => exact List.pairwise_singleton _ _
        · rw [History.entered_other (not_exists.mp hAdvance)]
          exact List.Pairwise.nil
      · intro t ht u hu
        obtain ⟨y, hy, rfl⟩ := List.mem_map.mp hu
        have hWaits : y.1 ∈ s.outbound.waiting.map Prod.fst :=
          List.mem_map_of_mem (mem_entered_now hy).1
        have hOther : t ≠ y.1 := fun he =>
          List.disjoint_of_nodup_append hQueue.distinct ht (he ▸ hWaits)
        obtain hLt | hLt := Nat.lt_or_gt_of_ne hOther
        · exact .inl hLt
        · refine .inr ((prior.lined.overlap y.1 hWaits t hLt ?_).append _)
          exact hQueue.lt_length (m := ⟨host, s⟩) (List.mem_append_left _ ht)

/-- A send that began waits for its turn, its envelope has got into the queue, or it was given up or was
refused. -/
theorem Life.whereabouts (life : Life (Session.new registry callTimeout capacity lifetime) past s) {z : Send}
    (hz : s.sends[t]? = some z) : t ∈ s.outbound.waiting.map Prod.fst ∨
      t ∈ (History.entered past).map Prod.fst ∨ z.state = .givenUp ∨ z.state = .done .refused := by
  cases hState : z.state with
  | pending =>
      obtain hFlushing | hWaiting := List.mem_append.mp (life.pendingQueued t z hz hState)
      · exact .inr (.inl (life.queueing.flushing t (Option.mem_toList.mp hFlushing)))
      · exact .inl hWaiting
  | givenUp => exact .inr (.inr (.inl rfl))
  | done result =>
      cases result with
      | accepted => exact .inr (.inl (life.queueing.accepted t z hz hState))
      | refused => exact .inr (.inr (.inr rfl))

/-- Nobody is left out: if an envelope got in, then so did each one whose send had ended before its own
began, unless that was given up. -/
theorem Life.entered_before (life : Life (Session.new registry callTimeout capacity lifetime) past s)
    (hLt : t < u) (hEntered : u ∈ (History.entered past).map Prod.fst) :
    past.Overlap t u ∨ t ∈ (History.entered past).map Prod.fst ∨
      ∃ z, s.sends[t]? = some z ∧ z.state = .givenUp := by
  induction life with
  | refl => cases hEntered
  | @step past s host a m' prior last ih =>
      have hTracked := prior.tracked (tracked_new registry callTimeout capacity lifetime)
      rw [History.entered_append, List.map_append] at hEntered ⊢
      rcases List.mem_append.mp hEntered with hOld | hNew
      · obtain hOverlap | hIn | ⟨z, hz, hState⟩ := ih hOld
        · exact .inl (hOverlap.append _)
        · exact .inr (.inl (List.mem_append_left _ hIn))
        · exact .inr (.inr ⟨z, step?_givenUp hTracked last hz hState, hState⟩)
      · obtain ⟨y, hy, rfl⟩ := List.mem_map.mp hNew
        obtain ⟨hWaits, hLive⟩ := mem_entered_now hy
        have hKnown : y.1 < s.sends.length := prior.lined.known _ (List.mem_map_of_mem hWaits)
        obtain ⟨z, hSend⟩ : ∃ z, s.sends[t]? = some z :=
          ⟨_, List.getElem?_eq_getElem (Nat.lt_trans hLt hKnown)⟩
        -- Where the earlier send is when the later one gets in leaves one way only.
        obtain hWaiting | hIn | hGivenUp | hRefused := prior.whereabouts hSend
        · exact .inl ((prior.lined.overlap t hWaiting y.1 hLt hKnown).append _)
        · exact .inr (.inl (List.mem_append_left _ hIn))
        · exact .inr (.inr ⟨z, step?_givenUp hTracked last hSend hGivenUp, hGivenUp⟩)
        · cases hLive.symm.trans (prior.refusedLate z (List.mem_of_getElem? hSend) hRefused)

end

/-! ### Senders that wait for each other -/

theorem Queueing.said (hQueue : Queueing past s) {y : Ticket × Envelope}
    (hy : y ∈ History.entered past ++ s.outbound.waiting) :
    ∃ x, s.said[y.1]? = some (x, y.2) := by
  obtain ⟨z, hz, hEnvelope⟩ := Option.map_eq_some_iff.mp (hQueue.known y hy)
  exact ⟨z.sender, hEnvelope ▸ Session.said_of_sends hz⟩

/-- Who said what of that which got into the queue, in the order in which it got in. -/
def History.accepted (past : History M S) (s : Session M S) : List (Sender × Envelope) :=
  ((History.entered past).map Prod.fst).filterMap (s.said[·]?)

/-- The envelopes of a sender that got into the queue. -/
def History.enteredBy (past : History M S) (s : Session M S) (x : Sender) : List Envelope :=
  (past.accepted s).filterMap fun y => if y.1 = x then some y.2 else none

theorem History.accepted_filterMap {β : Type} (past : History M S) (s : Session M S)
    (g : Sender × Envelope → Option β) : (past.accepted s).filterMap g =
      ((History.entered past).map Prod.fst).filterMap fun t => s.said[t]?.bind g :=
  List.filterMap_filterMap

theorem Queueing.accepted_envelopes (hQueue : Queueing past s) :
    (past.accepted s).map Prod.snd = (History.entered past).map Prod.snd := by
  rw [History.accepted, List.map_filterMap, List.filterMap_map, ← List.filterMap_eq_map]
  refine List.filterMap_congr fun y hy => ?_
  obtain ⟨x, hx⟩ := hQueue.said (List.mem_append_left _ hy)
  rw [Function.comp_apply, hx]
  rfl

theorem Queueing.tickets_subset (hQueue : Queueing past s) :
    (History.entered past).map Prod.fst ⊆ List.range s.said.length := by
  intro t ht
  obtain ⟨y, hy, rfl⟩ := List.mem_map.mp ht
  obtain ⟨x, hx⟩ := hQueue.said (List.mem_append_left _ hy)
  exact List.mem_range.mpr (List.getElem?_eq_some_iff.mp hx).1

/-- What got into the queue was said by somebody, and as often. -/
theorem Queueing.accepted_subperm (hQueue : Queueing past s) : (past.accepted s).Subperm s.said := by
  have hTickets := List.subperm_of_subset (List.nodup_append.mp hQueue.distinct).1 hQueue.tickets_subset
  have hSeen := subperm_filterMap hTickets (s.said[·]?)
  have hSaid := s.said_filterMap some
  simp only [List.filterMap_some, Option.bind_fun_some] at hSaid
  rwa [← hSaid] at hSeen

theorem Queueing.entered_sent (hQueue : Queueing past s) :
    ((History.entered past).map Prod.snd).Subperm s.sent := by
  rw [← hQueue.accepted_envelopes, Session.sent]
  simpa using subperm_filterMap hQueue.accepted_subperm (some ∘ Prod.snd)

section

variable {registry : Registry M S} {callTimeout : Option Duration} {capacity : Nat}
  {lifetime : LifetimeId} {P : Sender × Envelope → Bool} {β : Type} {g : Sender × Envelope → Option β}

theorem filterMap_picks (hPicked : ∀ x, P x = false → g x = none) (tickets : List Ticket) :
    (tickets.filter (s.picks P)).filterMap (fun t => s.said[t]?.bind g) =
      tickets.filterMap fun t => s.said[t]?.bind g := by
  rw [List.filterMap_filter]
  refine List.filterMap_congr fun t _ => ?_
  cases hPick : s.picks P t with
  | true => rfl
  | false =>
      cases hx : s.said[t]? with
      | none => rfl
      | some x =>
          rw [Session.picks, hx] at hPick
          exact (hPicked x hPick).symm

/-- Sends that never overlap have their turns one after the other. -/
theorem Life.tickets_ascending
    (life : Life (Session.new registry callTimeout capacity lifetime) past s)
    (hSerial : past.Serial s P) :
    (((History.entered past).map Prod.fst).filter (s.picks P)).Pairwise (· < ·) := by
  rw [List.pairwise_filter]
  refine life.entered_order.imp fun {t u} hOrder ht hu => hOrder.resolve_right fun hOverlap => ?_
  rw [hSerial.unpicked hOverlap hu] at ht
  cases ht

/-- Of sends that never overlap, the envelopes got in in the order in which they were sent. -/
theorem Life.accepted_sublist
    (life : Life (Session.new registry callTimeout capacity lifetime) past s)
    (hSerial : past.Serial s P) (hPicked : ∀ x, P x = false → g x = none) :
    ((past.accepted s).filterMap g).Sublist (s.said.filterMap g) := by
  rw [past.accepted_filterMap, ← filterMap_picks hPicked, s.said_filterMap]
  refine List.Sublist.filterMap _ (List.sublist_of_subperm_of_pairwise ?_
    (life.tickets_ascending hSerial) List.pairwise_lt_range)
  exact List.subperm_of_subset ((List.nodup_append.mp life.queueing.distinct).1.filter _)
    fun t ht => life.queueing.tickets_subset (List.mem_of_mem_filter ht)

/-- If moreover nobody gave up on one of them, then they are the first ones that were sent. -/
theorem Life.accepted_first
    (life : Life (Session.new registry callTimeout capacity lifetime) past s)
    (hSerial : past.Serial s P) (hSpares : s.Spares P) (hPicked : ∀ x, P x = false → g x = none) :
    (past.accepted s).filterMap g <+: s.said.filterMap g := by
  rw [past.accepted_filterMap, s.said_filterMap, ← filterMap_picks hPicked,
    ← filterMap_picks hPicked (List.range _)]
  refine List.IsPrefix.filterMap _ (prefix_of_ascending (life.tickets_ascending hSerial)
    (List.pairwise_lt_range.filter _) (fun t ht => ?_) fun u hu t ht hLt => ?_)
  · obtain ⟨hIn, hPick⟩ := List.mem_filter.mp ht
    exact List.mem_filter.mpr ⟨life.queueing.tickets_subset hIn, hPick⟩
  · obtain ⟨hEntered, hPick⟩ := List.mem_filter.mp hu
    have hPickT := (List.mem_filter.mp ht).2
    refine List.mem_filter.mpr ⟨?_, hPickT⟩
    obtain hOverlap | hIn | ⟨z, hz, hState⟩ := life.entered_before hLt hEntered
    · rw [hSerial.unpicked hOverlap hPickT] at hPick
      cases hPick
    · exact hIn
    · have hNot := hSpares z (List.mem_of_getElem? hz) hState
      rw [Session.picks, Session.said_of_sends hz, Option.any_some, hNot] at hPickT
      cases hPickT

/-- If everything that `g` looks at has got in, then all of it is there. -/
theorem Queueing.accepted_perm (hQueue : Queueing past s)
    (hAll : ∀ t y, s.said[t]? = some y → (g y).isSome → t ∈ (History.entered past).map Prod.fst) :
    ((past.accepted s).filterMap g).Perm (s.said.filterMap g) := by
  have hPicked (y : Sender × Envelope) (hNot : (g y).isSome = false) : g y = none := by simpa using hNot
  rw [past.accepted_filterMap, s.said_filterMap, ← filterMap_picks hPicked,
    ← filterMap_picks hPicked (List.range _)]
  refine List.Perm.filterMap _ ((List.perm_ext_iff_of_nodup
    ((List.nodup_append.mp hQueue.distinct).1.filter _) (List.nodup_range.filter _)).mpr fun t => ?_)
  rw [List.mem_filter, List.mem_filter]
  refine and_congr_left fun hPick => ⟨fun ht => hQueue.tickets_subset ht, fun _ => ?_⟩
  obtain ⟨y, hy, hPick⟩ := (Option.any_eq_true _ _).mp hPick
  exact hAll t y hy hPick

/-- How that which `g` looks at got into the queue, against all of it that was sent: each at most once, one
before another that was sent earlier only if that was still under way when its own send began, and in the
order in which it was sent if no two of these sends were under way at the same time. -/
structure History.InOrder (past : History M S) (s : Session M S) (g : Sender × Envelope → Option β)
    (sent : List β) : Prop where
  once : ((past.accepted s).filterMap g).Subperm sent
  order : ((History.entered past).map Prod.fst).Pairwise fun t u => t < u ∨ past.Overlap u t
  serial : past.Serial s (fun y => (g y).isSome) → (past.accepted s).filterMap g <+: sent

theorem Life.inOrder (life : Life (Session.new registry callTimeout capacity lifetime) past s)
    (hSpares : s.Spares fun y => (g y).isSome) : past.InOrder s g (s.said.filterMap g) where
  once := subperm_filterMap life.queueing.accepted_subperm g
  order := life.entered_order
  serial hSerial := life.accepted_first hSerial hSpares fun y hNot => by simpa using hNot

theorem Queueing.accepted_grows {s' : Session M S} (hQueue : Queueing past s) (hGrows : s.Grows s') :
    past.accepted s' = past.accepted s := by
  refine List.filterMap_congr fun t ht => ?_
  obtain ⟨x, hx, rfl⟩ := List.mem_map.mp ht
  obtain ⟨y, hy⟩ := hQueue.said (List.mem_append_left _ hx)
  rw [hy, hGrows.said hy]

/-- What got in up to some time is the first of what got in. -/
theorem Queueing.accepted_append {s' : Session M S} (hQueue : Queueing past s) (hGrows : s.Grows s')
    (later : History M S) :
    History.accepted (past ++ later) s' = past.accepted s ++ later.accepted s' := by
  rw [← hQueue.accepted_grows hGrows, History.accepted, History.accepted, History.accepted,
    History.entered_append_later, List.map_append, List.filterMap_append]

end

end Machine

end PeerLink
