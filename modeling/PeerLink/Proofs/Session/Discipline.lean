import PeerLink.Proofs.Session.Overtaking

/-! The discipline of the queue towards the remote peer. Whoever sends, and whatever becomes of the senders
and of the transport, the queue holds at most one envelope more than its capacity, the transport takes
envelopes in the order in which they got in, and what a send returned tells whether its envelope did. Once
nobody takes envelopes any more, every turn of a sender ends one send. If senders have their turns in the
order in which they came, then envelopes get in in the order in which their sends began, and nobody waits
forever. -/
namespace PeerLink

variable {M S : Type}

namespace Outbound

/-- The queue holds at most one envelope more than its capacity. -/
structure Within (size : Nat) (o : Outbound) : Prop where
  capacity : o.capacity = size
  queued : o.queued.length ≤ size + 1

theorem within_new (capacity : Nat) : Within capacity (.new capacity) :=
  ⟨rfl, Nat.zero_le _⟩

theorem length_of_entering? {o : Outbound} {t : Ticket} {x : Ticket × Envelope}
    (h : o.entering? t = some x) : o.queued.length ≤ o.capacity := by
  unfold entering? at h
  split at h
  · cases h
  · next hRoom =>
      simp only [isFull, Bool.or_eq_true, decide_eq_true_eq, not_or, Nat.not_lt] at hRoom
      exact hRoom.2

theorem Within.advance {capacity : Nat} {o o' : Outbound} {t : Ticket} {result? : Option SendResult}
    (hWithin : o.Within capacity) (h : o.advance? t = some (o', result?)) : o'.Within capacity := by
  have hGrown (e : Envelope) (x : Ticket × Envelope) (enters : o.entering? t = some x) :
      (o.queued ++ [e]).length ≤ capacity + 1 := by
    have hRoom := length_of_entering? enters
    rw [hWithin.capacity] at hRoom
    rw [List.length_append, List.length_singleton]
    exact Nat.succ_le_succ hRoom
  cases advance?_cases h with
  | flushed _ => exact ⟨hWithin.capacity, hWithin.queued⟩
  | refused _ _ _ _ _ _ => exact ⟨hWithin.capacity, hWithin.queued⟩
  | filled e _ _ _ _ enters _ => exact ⟨hWithin.capacity, hGrown e _ enters⟩
  | entered e _ _ _ _ enters _ => exact ⟨hWithin.capacity, hGrown e _ enters⟩

/-- How many sends are still to end, up to the one with number `t`. -/
def upTo (o : Outbound) (t : Ticket) : Nat :=
  o.tickets.countP (· ≤ t)

theorem upTo_pos {o : Outbound} {t : Ticket} (h : t ∈ o.tickets) : 0 < o.upTo t :=
  List.countP_pos_iff.mpr ⟨t, h, by simp⟩

end Outbound

namespace Machine

def Action.isTurn : Action → Bool
  | .advance _ => true
  | _ => false

/-- If a sender goes on by the action, then it is the one that came first. -/
def isInTurn (m : Machine M S) : Action → Bool
  | .advance t => m.session.outbound.tickets.head? = some t
  | _ => true

/-- Senders have had their turns in the order in which they came. -/
def History.InTurn (past : History M S) : Prop :=
  ∀ x ∈ past, x.1.isInTurn x.2 = true

instance (past : History M S) : Decidable past.InTurn :=
  inferInstanceAs (Decidable (∀ x ∈ past, _))

/-- How often a sender had its turn. -/
def History.turns (past : History M S) : Nat :=
  past.countP fun x => x.2.isTurn

variable {m m' : Machine M S} {a : Action} {past : History M S}

theorem History.turns_append : History.turns (past ++ [(m, a)]) = History.turns past + a.isTurn.toNat := by
  rw [turns, List.countP_append, ← turns]
  cases h : a.isTurn <;> simp [h]

theorem step?_within {capacity : Nat} (hWithin : m.session.outbound.Within capacity)
    (h : m.step? a = some m') : m'.session.outbound.Within capacity := by
  cases step?_sends h with
  | kept _ outbound =>
      rw [outbound]
      exact hWithin
  | began _ _ _ _ outbound =>
      rw [outbound]
      exact ⟨hWithin.capacity, hWithin.queued⟩
  | gaveUp t _ _ outbound =>
      rw [outbound, Session.giveUp]
      split
      · exact hWithin
      · exact ⟨hWithin.capacity, hWithin.queued⟩
  | queued outbound _ _ advance next =>
      rw [next]
      exact hWithin.advance advance
  | completed outbound t result _ advance next =>
      rw [next, finishSend_outbound]
      exact hWithin.advance advance
  | taken e outbound _ take next =>
      obtain ⟨rest, hQueued, rfl⟩ := Outbound.take?_eq_some take
      have hLength := hWithin.queued
      rw [hQueued, List.length_cons] at hLength
      rw [next]
      exact ⟨hWithin.capacity, Nat.le_of_succ_le hLength⟩
  | abandoned _ next =>
      rw [next]
      exact ⟨hWithin.capacity, Nat.zero_le _⟩

theorem Life.within {start s : Session M S} {capacity : Nat} (hStart : start.outbound.Within capacity)
    (life : Life start past s) : s.outbound.Within capacity := by
  induction life with
  | refl => exact hStart
  | step _ last ih => exact step?_within ih last

/-! ### Refused envelopes -/

/-- What was refused is not in the queue, and was not before. -/
def RefusedOutside (past : History M S) (s : Session M S) : Prop :=
  ∀ (t : Ticket) (x : Send), s.sends[t]? = some x → x.state = .done .refused →
    t ∉ (History.entered past).map Prod.fst

theorem RefusedOutside.step (hOutside : RefusedOutside past m.session) (hQueue : Queueing past m.session)
    (hTracked : Tracked m.session) (h : m.step? a = some m') :
    RefusedOutside (past ++ [(m, a)]) m'.session := by
  intro t x hx hState hIn
  rw [History.entered_append, List.map_append, List.mem_append] at hIn
  obtain ⟨y, hy, hRefused⟩ | ⟨rfl, outbound, hAdvance⟩ := step?_done h hx hState
  · rcases hIn with hOld | hNew
    · exact hOutside t y hy hRefused hOld
    · obtain ⟨entry, hEntry, rfl⟩ := List.mem_map.mp hNew
      have hTicket : entry.1 ∈ m.session.outbound.tickets :=
        List.mem_append_right _ (List.mem_map_of_mem (mem_entered_now hEntry).1)
      obtain ⟨send, hSend, hPending⟩ := hTracked.pending entry.1 hTicket
      cases hSend.symm.trans hy
      rw [hPending] at hRefused
      cases hRefused
  · -- The send is refused in this turn: it waited, so it had not got in.
    cases Outbound.advance?_cases hAdvance with
    | refused e front back _ waiting abandoned =>
        rcases hIn with hOld | hNew
        · exact List.disjoint_of_nodup_append hQueue.distinct hOld (by simp [waiting])
        · simp [History.entered_advance, Outbound.entering?_of_abandoned abandoned] at hNew

/-! ### First come, first served -/

theorem History.InTurn.before {e : Machine M S × Action} (h : History.InTurn (past ++ [e])) :
    past.InTurn :=
  fun x hx => h x (List.mem_append_left _ hx)

theorem History.InTurn.last {t : Ticket} (h : History.InTurn (past ++ [(m, .advance t)])) :
    m.session.outbound.tickets.head? = some t := by
  simpa [isInTurn] using h (m, .advance t) (List.mem_append_right _ (List.mem_singleton.mpr rfl))

/-- Whoever goes on in turn has nobody in front. -/
theorem front_of_inTurn {t : Ticket} (hQueue : Queueing past m.session)
    (hFirst : m.session.outbound.tickets.head? = some t) (hFlushing : m.session.outbound.flushing = none)
    {e : Envelope} {front back : List (Ticket × Envelope)}
    (hWaiting : m.session.outbound.waiting = front ++ (t, e) :: back) : front = [] := by
  cases front with
  | nil => rfl
  | cons w front =>
      rw [Outbound.tickets, hFlushing, hWaiting] at hFirst
      have hSame : w.1 = t := Option.some.inj hFirst
      have hNodup := (List.nodup_append.mp hQueue.distinct).2.1
      rw [hWaiting, List.cons_append, List.map_cons, List.nodup_cons] at hNodup
      exact absurd (by simp [hSame]) hNodup.1

/-- Envelopes get in in the order in which their sends began, and those that wait come behind. -/
def Ascending (past : History M S) (s : Session M S) : Prop :=
  ((History.entered past).map Prod.fst ++ s.outbound.waiting.map Prod.fst).Pairwise (· < ·)

theorem Ascending.step (hAscending : Ascending past m.session) (hQueue : Queueing past m.session)
    (h : m.step? a = some m') (hTurns : History.InTurn (past ++ [(m, a)])) :
    Ascending (past ++ [(m, a)]) m'.session := by
  unfold Ascending at hAscending ⊢
  rw [History.entered_append]
  by_cases hAdvance : ∃ t, a = .advance t
  · obtain ⟨t, rfl⟩ := hAdvance
    rw [History.entered_advance]
    obtain ⟨result?, _, hCase⟩ := step?_advance h
    generalize m'.session.outbound = outbound at hCase
    have hFront {e : Envelope} {front back : List (Ticket × Envelope)}
        (hFlushing : m.session.outbound.flushing = none)
        (hWaiting : m.session.outbound.waiting = front ++ (t, e) :: back) : front = [] :=
      front_of_inTurn hQueue hTurns.last hFlushing hWaiting
    cases hCase with
    | flushed flushing =>
        rw [Outbound.entering?_of_flushing flushing, Option.toList_none, List.append_nil]
        exact hAscending
    | refused e front back flushing waiting abandoned =>
        obtain rfl := hFront flushing waiting
        rw [Outbound.entering?_of_abandoned abandoned, Option.toList_none, List.append_nil]
        rw [waiting] at hAscending
        exact hAscending.sublist ((List.sublist_cons_self _ _).append_left _)
    | filled e front back flushing waiting enters | entered e front back flushing waiting enters =>
        obtain rfl := hFront flushing waiting
        rw [waiting] at hAscending
        rw [enters]
        simpa using hAscending
  · rw [History.entered_other (not_exists.mp hAdvance), List.append_nil]
    obtain ⟨hSub, _⟩ | ⟨_, e, _, hWaiting⟩ := step?_waiting h
    · exact hAscending.sublist ((hSub.map Prod.fst).append_left _)
    · rw [hWaiting, List.map_append, ← List.append_assoc]
      refine List.pairwise_append.mpr ⟨hAscending, List.pairwise_singleton _ _, fun t ht u hu => ?_⟩
      rw [List.mem_singleton.mp hu]
      exact hQueue.lt_length ht

/-! ### Nobody waits forever -/

/-- In turn, sends that are under way are in line in the order in which they began. -/
theorem Ascending.tickets {s : Session M S} (hAscending : Ascending past s) (hQueue : Queueing past s) :
    s.outbound.tickets.Pairwise (· < ·) := by
  obtain ⟨_, hWaiting, hBefore⟩ := List.pairwise_append.mp hAscending
  cases hFlushing : s.outbound.flushing with
  | none => simpa [Outbound.tickets, hFlushing] using hWaiting
  | some t =>
      rw [Outbound.tickets, hFlushing]
      exact List.pairwise_cons.mpr ⟨hBefore t (hQueue.flushing t hFlushing), hWaiting⟩

/-- When nobody takes envelopes any more, a sender who has its turn returns. -/
theorem tickets_of_turn (hGone : m.session.outbound.abandoned = true) {t : Ticket}
    (h : m.step? (.advance t) = some m') :
    m.session.outbound.tickets.Perm (t :: m'.session.outbound.tickets) := by
  obtain ⟨result?, hAdvance, hCase⟩ := step?_advance h
  cases result? with
  | some result => exact Outbound.tickets_complete hAdvance
  | none =>
      generalize m'.session.outbound = outbound at hCase
      cases hCase with
      | filled _ _ _ _ _ _ live =>
          rw [hGone] at live
          cases live

/-- In turn, no step puts anybody in front of a send, and a turn takes one away. -/
theorem step?_upTo (hSorted : m.session.outbound.tickets.Pairwise (· < ·)) (hTracked : Tracked m.session)
    (hGone : m.session.outbound.abandoned = true) (h : m.step? a = some m')
    (hInTurn : m.isInTurn a = true) {t : Ticket} (hOld : t < m.session.sends.length)
    (ht : t ∈ m'.session.outbound.tickets) :
    t ∈ m.session.outbound.tickets ∧
      m'.session.outbound.upTo t + a.isTurn.toNat ≤ m.session.outbound.upTo t := by
  have hStill : t ∈ m.session.outbound.tickets := by
    obtain ⟨hStill, _⟩ | ⟨hNew, _⟩ := (step?_tickets hTracked h).2 t ht
    · exact hStill
    · exact absurd hNew (Nat.ne_of_lt hOld)
  refine ⟨hStill, ?_⟩
  by_cases hTurn : ∃ first, a = .advance first
  · obtain ⟨first, rfl⟩ := hTurn
    have hTickets := tickets_of_turn hGone h
    obtain ⟨rest, hFirst⟩ := List.head?_eq_some_iff.mp (of_decide_eq_true hInTurn)
    have hRest : t ∈ rest := (List.perm_cons first).mp (hFirst ▸ hTickets) |>.symm.subset ht
    rw [hFirst, List.pairwise_cons] at hSorted
    have hLe : first ≤ t := Nat.le_of_lt (hSorted.1 t hRest)
    rw [Outbound.upTo, Outbound.upTo, hTickets.countP_eq]
    simp [hLe, Action.isTurn]
  · have hNoTurn : a.isTurn = false := by
      cases a with
      | advance first => exact absurd ⟨first, rfl⟩ hTurn
      | _ => rfl
    rw [hNoTurn, Bool.toNat_false, Nat.add_zero]
    cases step?_sends h with
    | kept _ outbound => exact Nat.le_of_eq (by rw [outbound])
    | began _ e _ _ outbound =>
        have hLater : ¬ m.session.sends.length ≤ t := Nat.not_le.mpr hOld
        simp [outbound, Outbound.upTo, Outbound.tickets_enqueue, hLater]
    | gaveUp u _ _ outbound =>
        rw [outbound]
        exact (hTracked.giveUp u).1.countP_le
    | queued _ first cause _ _ => exact absurd ⟨first, cause⟩ hTurn
    | completed _ first _ cause _ _ => exact absurd ⟨first, cause⟩ hTurn
    | taken e outbound _ take next =>
        rw [next, session_onSession, Outbound.upTo, Outbound.tickets_take take]
        exact Nat.le_refl _
    | abandoned _ next =>
        rw [next]
        exact Nat.le_refl _

theorem Life.ascending {registry : Registry M S} {callTimeout : Option Duration} {capacity : Nat}
    {lifetime : LifetimeId} {s : Session M S}
    (life : Life (Session.new registry callTimeout capacity lifetime) past s) (hTurns : past.InTurn) :
    Ascending past s := by
  induction life with
  | refl => exact List.Pairwise.nil
  | step prior last ih => exact Ascending.step (ih hTurns.before) prior.queueing last hTurns

theorem Life.sends_length_le {start s : Session M S} (life : Life start past s) :
    start.sends.length ≤ s.sends.length :=
  (Life.grows life).sends.length_le

/-- If senders have their turns in order, then a send that is under way when nobody takes envelopes any more
ends after so many turns as there are sends in front of it, its own included. -/
theorem Life.turns_lt {registry : Registry M S} {callTimeout : Option Duration} {capacity : Nat}
    {lifetime : LifetimeId} {s s' : Session M S} {later : History M S}
    (life : Life (Session.new registry callTimeout capacity lifetime) past s) (rest : Life s later s')
    (hTurns : History.InTurn (past ++ later)) (hGone : s.outbound.abandoned = true) {t : Ticket}
    (hOld : t < s.sends.length) (ht : t ∈ s'.outbound.tickets) :
    s'.outbound.abandoned = true ∧ s'.outbound.upTo t + later.turns ≤ s.outbound.upTo t := by
  have hAbandoned : ∀ {later : History M S} {s' : Session M S}, Life s later s' →
      s'.outbound.abandoned = true := fun rest => by
    induction rest with
    | refl => exact hGone
    | step _ last ih => exact step?_abandoned_of_abandoned ih last
  refine ⟨hAbandoned rest, ?_⟩
  induction rest with
  | refl => exact Nat.le_refl _
  | @step later s₁ host a m' prior last ih =>
      have hWhole := life.append prior
      have hTracked := hWhole.tracked (tracked_new registry callTimeout capacity lifetime)
      rw [← List.append_assoc] at hTurns
      have hSorted := (hWhole.ascending hTurns.before).tickets hWhole.queueing
      have hInTurn := hTurns _ (List.mem_append_right _ (List.mem_singleton.mpr rfl))
      obtain ⟨hStill, hLess⟩ := step?_upTo hSorted hTracked (hAbandoned prior) last hInTurn
        (Nat.lt_of_lt_of_le hOld prior.sends_length_le) ht
      have hBefore := ih hTurns.before hStill
      rw [History.turns_append]
      simp only at hLess
      omega

/-- The first in line can go on once nobody takes envelopes any more. -/
theorem advance?_of_abandoned {o : Outbound} (hGone : o.abandoned = true) {t : Ticket}
    (ht : t ∈ o.tickets) : ∃ u, o.tickets.head? = some u ∧ o.advance? u ≠ none := by
  cases hFlushing : o.flushing with
  | some u =>
      refine ⟨u, by rw [Outbound.tickets, hFlushing]; rfl, ?_⟩
      exact Outbound.advance?_ne_none_iff.mpr ⟨.inl hGone, .inl hFlushing⟩
  | none =>
      have hTickets : o.tickets = o.waiting.map Prod.fst := by rw [Outbound.tickets, hFlushing]; rfl
      obtain ⟨u, rest, hFirst⟩ := List.exists_cons_of_ne_nil (List.ne_nil_of_mem ht)
      refine ⟨u, by rw [hFirst]; rfl, ?_⟩
      refine Outbound.advance?_ne_none_iff.mpr ⟨.inl hGone, .inr ⟨hFlushing, ?_⟩⟩
      rw [← hTickets, hFirst]
      exact List.mem_cons_self

/-! ### The discipline -/

/-- What holds of the queue of a session at any time, whatever has happened. A send counts as pending until
it has returned or was given up. -/
structure Disciplined (capacity : Nat) (past : History M S) (s : Session M S) : Prop where
  bounded : s.outbound.queued.length ≤ capacity + 1
  /-- Envelopes get in in the order in which their sends began, if senders have their turns in order. -/
  ordered : past.InTurn → ((History.entered past).map Prod.fst).Pairwise (· < ·)
  known : ∀ x ∈ History.entered past, s.sends[x.1]?.map Send.envelope = some x.2
  /-- The transport takes them in the order in which they got in. -/
  taken : History.taken past <+: (History.entered past).map Prod.snd
  /-- Nothing is lost as long as somebody takes envelopes. -/
  kept : s.outbound.abandoned = false →
    (History.entered past).map Prod.snd = History.taken past ++ s.outbound.queued
  accepted : ∀ t, s.sendResult? t = some .accepted → ((History.entered past).map Prod.fst).count t = 1
  refused : ∀ t, s.sendResult? t = some .refused → ((History.entered past).map Prod.fst).count t = 0
  /-- Given up or not, no send puts its envelope into the queue twice. -/
  once : ∀ t, ((History.entered past).map Prod.fst).count t ≤ 1
  /-- When nobody takes envelopes any more, the first in line can go on. If senders have their turns in
  order, then no send lasts longer than the turns of those in front of it. -/
  released : s.outbound.abandoned = true → ∀ t x, s.sends[t]? = some x → x.state = .pending →
    (∃ u, s.outbound.tickets.head? = some u ∧
      ∀ host, ∃ m', (Machine.mk host s).step? (.advance u) = some m') ∧
      ∀ (later : History M S) (s' : Session M S), Life s later s' → History.InTurn (past ++ later) →
        s.outbound.upTo t ≤ later.turns → ∃ x', s'.sends[t]? = some x' ∧ x'.state ≠ .pending

section

variable {registry : Registry M S} {callTimeout : Option Duration} {capacity : Nat}
  {lifetime : LifetimeId} {s : Session M S}

theorem Life.refusedOutside (life : Life (Session.new registry callTimeout capacity lifetime) past s) :
    RefusedOutside past s := by
  induction life with
  | refl => exact fun t x hx => by simp [Session.new] at hx
  | step prior last ih =>
      exact RefusedOutside.step ih prior.queueing
        (prior.tracked (tracked_new registry callTimeout capacity lifetime)) last

/-- In turn, a send that is pending when nobody takes envelopes any more does not stay so. -/
theorem Life.released (life : Life (Session.new registry callTimeout capacity lifetime) past s)
    (hGone : s.outbound.abandoned = true) {t : Ticket} {x : Send} (hx : s.sends[t]? = some x)
    {later : History M S} {s' : Session M S} (rest : Life s later s')
    (hInTurn : History.InTurn (past ++ later)) (hTurns : s.outbound.upTo t ≤ later.turns) :
    ∃ x', s'.sends[t]? = some x' ∧ x'.state ≠ .pending := by
  obtain ⟨x', hx', _⟩ := (Life.grows rest).sends t x hx
  refine ⟨x', hx', fun hPending => ?_⟩
  have hInLine := (life.append rest).pendingQueued t x' hx' hPending
  obtain ⟨_, hLess⟩ := life.turns_lt rest hInTurn hGone (List.getElem?_eq_some_iff.mp hx).1 hInLine
  have hPos := Outbound.upTo_pos hInLine
  omega

/-- Every session keeps the discipline of its queue, in any order of events: bounded, every envelope at most
once, exactly those of successful sends, and first come, first served if senders have their turns in order. -/
theorem outbound_disciplined (life : Life (Session.new registry callTimeout capacity lifetime) past s) :
    Disciplined capacity past s := by
  have hQueue := life.queueing
  have hOnce : ∀ t, ((History.entered past).map Prod.fst).count t ≤ 1 :=
    List.nodup_iff_count_le_one.mp (List.nodup_append.mp hQueue.distinct).1
  refine ⟨?_, fun hTurns => (List.pairwise_append.mp (life.ascending hTurns)).1, ?_, ?_, hQueue.complete,
    ?_, ?_, hOnce, ?_⟩
  · exact (life.within (Outbound.within_new capacity)).queued
  · exact fun x hx => hQueue.known x (List.mem_append_left _ hx)
  · exact (List.prefix_append _ _).trans hQueue.flow
  · intro t hAccepted
    obtain ⟨x, hx, hState⟩ := sendResult?_eq_some hAccepted
    exact Nat.le_antisymm (hOnce t) (List.count_pos_iff.mpr (hQueue.accepted t x hx hState))
  · intro t hRefused
    obtain ⟨x, hx, hState⟩ := sendResult?_eq_some hRefused
    exact List.count_eq_zero.mpr (life.refusedOutside t x hx hState)
  · intro hGone t x hx hPending
    obtain ⟨u, hFirst, hMoves⟩ := advance?_of_abandoned hGone (life.pendingQueued t x hx hPending)
    refine ⟨⟨u, hFirst, fun host => ?_⟩, fun later s' rest hInTurn hTurns =>
      life.released hGone hx rest hInTurn hTurns⟩
    apply Option.ne_none_iff_exists'.mp
    exact fun hNone => hMoves (advanceOutbound?_eq_none_iff.mp hNone)

/-- Five goodbyes meet a queue that is full with one, and have their turns in order. The first is taken, the
second gets in after it and is lost when the transport goes away, the third is given up in line, the fourth
is refused, and the fifth still waits for its turn. -/
theorem outbound_disciplined_of_five : ∃ (past : History Unit Unit) (s : Session Unit Unit),
    Life (Session.new Registry.empty none 0 0) past s ∧ past.InTurn ∧ Disciplined 0 past s ∧
      (History.entered past).map Prod.fst = [0, 1] ∧ History.taken past = [.bye] ∧
      s.outbound.abandoned = true ∧
      s.sends.map Send.state =
        [.done .accepted, .done .accepted, .givenUp, .done .refused, .pending] := by
  have hPlay : ((Machine.new (Host.new false) (Registry.empty : Registry Unit Unit) none 0).play
      [.bye, .bye, .bye, .bye, .bye, .advance 0, .giveUp 2, .take, .advance 0, .advance 1, .abandon, .advance 1,
        .advance 3]).map
      (fun r => (decide (History.InTurn r.1), (History.entered r.1).map Prod.fst, History.taken r.1,
        r.2.session.outbound.abandoned, r.2.session.sends.map Send.state)) =
      some (true, [0, 1], [.bye], true,
        [.done .accepted, .done .accepted, .givenUp, .done .refused, .pending]) := by decide +kernel
  obtain ⟨⟨past, m⟩, hRun, hFacts⟩ := Option.map_eq_some_iff.mp hPlay
  simp only [Prod.mk.injEq] at hFacts
  obtain ⟨hTurns, hEntered, hTaken, hGone, hStates⟩ := hFacts
  have life := (Execution.refl.play hRun).life
  exact ⟨_, m.session, life, of_decide_eq_true hTurns, outbound_disciplined life, hEntered, hTaken, hGone,
    hStates⟩

end

end Machine

end PeerLink
