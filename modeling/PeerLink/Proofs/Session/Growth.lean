import PeerLink.Proofs.Session.Owning
import PeerLink.Proofs.Session.Sending
import PeerLink.Proofs.Session.Serving

/-! What a session never forgets. Calls, streams, runs, refusals and sends are kept in lists that only
grow, and the parts of an entry that say what it is do not change. A number given out once therefore
means the same thing in every later state. -/
namespace PeerLink

/-- Every entry of `before` is still in its place in `after`, up to `R`. -/
def Retained {α : Type} (R : α → α → Prop) (before after : List α) : Prop :=
  ∀ (i : Nat) (x : α), before[i]? = some x → ∃ y, after[i]? = some y ∧ R x y

namespace Retained

variable {α : Type} {R : α → α → Prop} {l l' l'' : List α}

theorem refl (hR : ∀ x, R x x) (l : List α) : Retained R l l :=
  fun _ x hx => ⟨x, hx, hR x⟩

theorem of_eq (hR : ∀ x, R x x) (h : l' = l) : Retained R l l' :=
  h ▸ refl hR l

theorem trans (hR : ∀ x y z, R x y → R y z → R x z) (h : Retained R l l')
    (h' : Retained R l' l'') : Retained R l l'' := by
  intro i x hx
  obtain ⟨y, hy, hxy⟩ := h i x hx
  obtain ⟨z, hz, hyz⟩ := h' i y hy
  exact ⟨z, hz, hR x y z hxy hyz⟩

theorem append (hR : ∀ x, R x x) (l l' : List α) : Retained R l (l ++ l') := by
  intro i x hx
  have hi := (List.getElem?_eq_some_iff.mp hx).1
  exact ⟨x, by rw [List.getElem?_append_left hi, hx], hR x⟩

theorem modify (hR : ∀ x, R x x) (l : List α) (i : Nat) (f : α → α)
    (hf : ∀ x, l[i]? = some x → R x (f x)) : Retained R l (l.modify i f) := by
  intro j x hx
  rw [List.getElem?_modify]
  by_cases hij : i = j
  · subst j
    exact ⟨f x, by simp [hx], hf x hx⟩
  · exact ⟨x, by simp [hij, hx], hR x⟩

theorem of_map {f : Nat → α → α} (h : ∀ i, l'[i]? = l[i]?.map (f i)) (hf : ∀ i x, R x (f i x)) :
    Retained R l l' := by
  intro i x hx
  exact ⟨f i x, by rw [h, hx]; rfl, hf i x⟩

theorem rel (h : Retained R l l') {i : Nat} {x y : α} (hx : l[i]? = some x)
    (hy : l'[i]? = some y) : R x y := by
  obtain ⟨z, hz, hxz⟩ := h i x hx
  rw [hy] at hz
  cases hz
  exact hxz

theorem length_le (h : Retained R l l') : l.length ≤ l'.length := by
  apply Nat.le_of_not_lt
  intro hi
  obtain ⟨y, hy, _⟩ := h l'.length _ (List.getElem?_eq_getElem hi)
  simp at hy

theorem map_eq {β : Type} (h : Retained R l l') (hLength : l'.length = l.length) {f : α → β}
    (hf : ∀ x y, R x y → f y = f x) : l'.map f = l.map f := by
  apply List.ext_getElem?
  intro i
  rw [List.getElem?_map, List.getElem?_map]
  cases hx : l[i]? with
  | none =>
      have hi := List.getElem?_eq_none_iff.mp hx
      rw [List.getElem?_eq_none (by omega)]
  | some x =>
      obtain ⟨y, hy, hxy⟩ := h i x hx
      rw [hy, Option.map_some, Option.map_some, hf x y hxy]

end Retained

theorem length_eq_of_map {α : Type} {l l' : List α} {f : Nat → α → α}
    (h : ∀ i, l'[i]? = l[i]?.map (f i)) : l'.length = l.length := by
  have hLe : l'.length ≤ l.length := by
    rw [← List.getElem?_eq_none_iff, h, List.getElem?_eq_none (Nat.le_refl _)]
    rfl
  have hGe : l.length ≤ l'.length := by
    have hNone := h l'.length
    rw [List.getElem?_eq_none (Nat.le_refl _), eq_comm, Option.map_eq_none_iff] at hNone
    exact List.getElem?_eq_none_iff.mp hNone
  omega

/-- An entry of a list with one more entry is an old one, or the new one at the end. -/
theorem getElem?_concat_eq_some {α : Type} {l : List α} {x y : α} {i : Nat}
    (h : (l ++ [x])[i]? = some y) : l[i]? = some y ∨ i = l.length ∧ y = x := by
  rcases Nat.lt_trichotomy i l.length with hi | hi | hi
  · rw [List.getElem?_append_left hi] at h
    exact .inl h
  · subst hi
    rw [List.getElem?_concat_length] at h
    exact .inr ⟨rfl, (Option.some.inj h).symm⟩
  · rw [List.getElem?_eq_none (by simp; omega)] at h
    cases h

/-- An entry of a list with one entry changed is an old one, or the changed one. -/
theorem getElem?_modify_eq_some {α : Type} {l : List α} {i j : Nat} {f : α → α} {y : α}
    (h : (l.modify i f)[j]? = some y) :
    j ≠ i ∧ l[j]? = some y ∨ j = i ∧ ∃ x, l[j]? = some x ∧ y = f x := by
  rw [List.getElem?_modify] at h
  by_cases hij : i = j
  · obtain ⟨x, hx, rfl⟩ := Option.map_eq_some_iff.mp (by simpa [hij] using h)
    exact .inr ⟨hij.symm, x, hx, rfl⟩
  · exact .inl ⟨Ne.symm hij, by simpa [hij] using h⟩

/-- One entry of a list is changed. -/
theorem getElem?_modify_of_eq {α : Type} {l : List α} {i : Nat} {x : α} (h : l[i]? = some x)
    (f : α → α) (j : Nat) : (l.modify i f)[j]? = if j = i then some (f x) else l[j]? := by
  by_cases hj : j = i
  · subst hj
    rw [List.getElem?_modify_eq, h, if_pos rfl]
    rfl
  · rw [List.getElem?_modify_ne _ _ (Ne.symm hj), if_neg hj]

/-! ### What stays of an entry -/

structure Call.Keeps (x y : Call) : Prop where
  id : y.id = x.id
  method : y.method = x.method

structure ClientStream.Keeps (x y : ClientStream) : Prop where
  id : y.id = x.id
  method : y.method = x.method
  lifetime : y.lifetime = x.lifetime
  ended : x.ended = true → y.ended = true
  closeSent : x.closeSent = true → y.closeSent = true

structure ServedStream.Keeps {S : Type} (x y : ServedStream S) : Prop where
  id : y.id = x.id
  method : y.method = x.method
  handler : y.handler = x.handler
  lifetime : y.lifetime = x.lifetime
  inboxClosed : x.inboxClosed = true → y.inboxClosed = true
  result : ∀ r, x.result = some r → y.result = some r

structure Run.Keeps {M : Type} (x y : Run M) : Prop where
  id : y.id = x.id
  method : y.method = x.method
  handler : y.handler = x.handler
  payload : y.payload = x.payload
  lifetime : y.lifetime = x.lifetime
  result : ∀ r, x.result = some r → y.result = some r

structure Send.Keeps (x y : Send) : Prop where
  sender : y.sender = x.sender
  envelope : y.envelope = x.envelope

structure Refusal.Keeps (x y : Refusal) : Prop where
  response : y.response = x.response

theorem Refusal.Keeps.refl (x : Refusal) : x.Keeps x := ⟨rfl⟩

theorem Refusal.Keeps.trans (x y z : Refusal) (h : x.Keeps y) (h' : y.Keeps z) : x.Keeps z :=
  ⟨h'.response.trans h.response⟩

theorem Call.Keeps.refl (x : Call) : x.Keeps x := ⟨rfl, rfl⟩

theorem Call.Keeps.trans (x y z : Call) (h : x.Keeps y) (h' : y.Keeps z) : x.Keeps z :=
  ⟨h'.id.trans h.id, h'.method.trans h.method⟩

theorem ClientStream.Keeps.refl (x : ClientStream) : x.Keeps x :=
  ⟨rfl, rfl, rfl, fun h => h, fun h => h⟩

theorem ClientStream.Keeps.trans (x y z : ClientStream) (h : x.Keeps y) (h' : y.Keeps z) :
    x.Keeps z :=
  ⟨h'.id.trans h.id, h'.method.trans h.method, h'.lifetime.trans h.lifetime,
    fun hx => h'.ended (h.ended hx), fun hx => h'.closeSent (h.closeSent hx)⟩

section

variable {M S : Type}

theorem ServedStream.Keeps.refl (x : ServedStream S) : x.Keeps x :=
  ⟨rfl, rfl, rfl, rfl, fun h => h, fun _ h => h⟩

theorem ServedStream.Keeps.trans (x y z : ServedStream S) (h : x.Keeps y) (h' : y.Keeps z) :
    x.Keeps z :=
  ⟨h'.id.trans h.id, h'.method.trans h.method, h'.handler.trans h.handler,
    h'.lifetime.trans h.lifetime, fun hx => h'.inboxClosed (h.inboxClosed hx),
    fun r hx => h'.result r (h.result r hx)⟩

theorem Run.Keeps.refl (x : Run M) : x.Keeps x := ⟨rfl, rfl, rfl, rfl, rfl, fun _ h => h⟩

theorem Run.Keeps.trans (x y z : Run M) (h : x.Keeps y) (h' : y.Keeps z) : x.Keeps z :=
  ⟨h'.id.trans h.id, h'.method.trans h.method, h'.handler.trans h.handler,
    h'.payload.trans h.payload, h'.lifetime.trans h.lifetime,
    fun r hx => h'.result r (h.result r hx)⟩

theorem Send.Keeps.refl (x : Send) : x.Keeps x := ⟨rfl, rfl⟩

theorem Send.Keeps.trans (x y z : Send) (h : x.Keeps y) (h' : y.Keeps z) : x.Keeps z :=
  ⟨h'.sender.trans h.sender, h'.envelope.trans h.envelope⟩

/-! ### What a step keeps -/

variable {m m' : Machine M S} {a : Machine.Action}

namespace Machine

theorem step?_calls (h : m.step? a = some m') :
    Retained Call.Keeps m.session.calls m'.session.calls := by
  intro c x hx
  cases step?_callTurn h c with
  | same calls => exact ⟨x, calls.trans hx, .refl x⟩
  | made new => cases new.symm.trans hx
  | ended _ found _ _ now | queued _ found _ _ _ _ _ now | answered _ found _ _ _ now =>
      cases found.symm.trans hx
      exact ⟨_, now, rfl, rfl⟩

theorem step?_clientStreams (h : m.step? a = some m') :
    Retained ClientStream.Keeps m.session.clientStreams m'.session.clientStreams := by
  cases step?_owners h with
  | opened _ _ _ _ _ streams _ _ _ =>
      rw [streams]
      exact .append ClientStream.Keeps.refl _ _
  | passed c f alike _ streams _ _ =>
      rw [streams]
      refine .modify ClientStream.Keeps.refl _ _ _ fun x _ => ?_
      obtain ⟨hId, hMethod, hLifetime, hEnded, hClose⟩ := alike x
      exact ⟨hId, hMethod, hLifetime, fun h => hEnded.trans h, hClose⟩
  | streamOver c _ f _ _ _ alike _ streams _ _ _ =>
      rw [streams]
      refine .modify ClientStream.Keeps.refl _ _ _ fun x _ => ?_
      obtain ⟨hId, hMethod, hLifetime, _, hClose⟩ := alike x
      exact ⟨hId, hMethod, hLifetime, fun _ => rfl, hClose⟩
  | kept _ streams _ _ => exact .of_eq ClientStream.Keeps.refl streams
  | started _ _ _ _ _ _ _ _ streams _ _ => exact .of_eq ClientStream.Keeps.refl streams
  | callOver _ _ _ _ _ _ streams _ _ => exact .of_eq ClientStream.Keeps.refl streams
  | waits _ _ _ _ _ _ _ _ _ streams _ _ => exact .of_eq ClientStream.Keeps.refl streams
  | answered _ _ _ _ _ streams _ _ => exact .of_eq ClientStream.Keeps.refl streams

theorem step?_servedStreams (h : m.step? a = some m') :
    Retained ServedStream.Keeps m.session.servedStreams m'.session.servedStreams := by
  have hClosed : ∀ {m₁ : Machine M S} {ended}, m.Closes m₁ ended →
      Retained ServedStream.Keeps m.session.servedStreams m₁.session.servedStreams := by
    intro m₁ ended hCloses
    refine .of_map hCloses.streams fun i x => ?_
    by_cases hi : i ∈ ended
    · simp only [hi, if_true]
      exact ⟨rfl, rfl, rfl, rfl, fun _ => rfl, fun _ h => h⟩
    · simp only [hi, if_false]
      exact .refl x
  cases step?_served h with
  | kept f alike streams _ _ =>
      refine .of_map streams fun i x => ?_
      obtain ⟨hId, hMethod, hHandler, hLifetime, hClosed, hResult⟩ := alike i x
      exact ⟨hId, hMethod, hHandler, hLifetime, fun hx => hClosed.trans hx,
        fun r hx => hResult.trans hx⟩
  | opened r method _ _ _ _ next =>
      rw [next]
      exact .append ServedStream.Keeps.refl _ _
  | ended ended m₁ closes streams _ _ _ _ =>
      rw [streams]
      exact hClosed closes
  | finished i result x _ found running next =>
      obtain ⟨_, _, closeSent, hStreams⟩ := finishServed_effect found result
      -- Only a handler that has not returned can return, so no result is overwritten.
      intro j y hy
      obtain ⟨z, hz, hKeeps⟩ := hClosed (closes_removeServed m i x.id) j y hy
      rw [next, hStreams, hz]
      by_cases hj : j = i
      · subst hj
        rw [found] at hy
        cases hy
        refine ⟨_, rfl, ?_⟩
        simp only [if_true]
        exact ⟨hKeeps.id, hKeeps.method, hKeeps.handler, hKeeps.lifetime, hKeeps.inboxClosed,
          fun r hr => by rw [running] at hr; cases hr⟩
      · exact ⟨z, by simp [hj], hKeeps⟩

theorem finishRun_runs (m : Machine M S) (r : RunId) (result : Except HandlerError Payload) :
    (m.finishRun r result).session.runs =
      m.session.runs.modify r fun x => { x with result := some result } := by
  unfold finishRun
  split
  · next hNone => rw [List.modify_eq_self (List.getElem?_eq_none_iff.mp hNone)]
  · cases result <;> rfl

theorem step?_runs (h : m.step? a = some m') :
    Retained Run.Keeps m.session.runs m'.session.runs := by
  cases a with
  | finishRun r result =>
      obtain ⟨run, hRun, hRunning, rfl⟩ := step?_finishRun_eq_some h
      rw [finishRun_runs]
      refine .modify Run.Keeps.refl _ _ _ fun x hx => ?_
      rw [hRun] at hx
      cases hx
      exact ⟨rfl, rfl, rfl, rfl, rfl, fun r hr => by rw [hRunning] at hr; cases hr⟩
  | receive e =>
      obtain ⟨_, _, rfl⟩ := receive?_eq_some h
      cases e with
      | request r =>
          simp only [handle]
          split
          · obtain ⟨_, _, he⟩ | ⟨_, _, he⟩ | ⟨_, _, _, he⟩ := handleStream_cases m r
            · rw [he]
              exact .refl Run.Keeps.refl _
            · rw [he]
              exact .refl Run.Keeps.refl _
            · rw [he]
              exact .refl Run.Keeps.refl _
          · obtain ⟨_, he⟩ | ⟨_, _, he⟩ := handleCall_cases m r
            · rw [he]
              exact .refl Run.Keeps.refl _
            · rw [he]
              exact .append Run.Keeps.refl _ _
      | _ =>
          rw [handle_session]
          exact .refl Run.Keeps.refl _
  | _ =>
      rw [step?_frame h]
      exact .refl Run.Keeps.refl _

theorem step?_refusals (h : m.step? a = some m') :
    Retained Refusal.Keeps m.session.refusals m'.session.refusals := by
  cases a with
  | startRefusal k =>
      obtain ⟨_, _, rfl⟩ := startRefusal?_eq_some h
      exact .modify Refusal.Keeps.refl _ _ _ fun _ _ => ⟨rfl⟩
  | receive e =>
      obtain ⟨_, _, rfl⟩ := receive?_eq_some h
      cases e with
      | request r =>
          simp only [handle]
          split
          · obtain ⟨_, _, he⟩ | ⟨_, _, he⟩ | ⟨_, _, _, he⟩ := handleStream_cases m r
            · rw [he]
              exact .refl Refusal.Keeps.refl _
            · rw [he]
              exact .append Refusal.Keeps.refl _ _
            · rw [he]
              exact .refl Refusal.Keeps.refl _
          · obtain ⟨_, he⟩ | ⟨_, _, he⟩ := handleCall_cases m r
            · rw [he]
              exact .append Refusal.Keeps.refl _ _
            · rw [he]
              exact .refl Refusal.Keeps.refl _
      | _ =>
          rw [handle_session]
          exact .refl Refusal.Keeps.refl _
  | _ =>
      rw [step?_frame h]
      exact .refl Refusal.Keeps.refl _

theorem giveUp_retained (s : Session M S) (t : Ticket) :
    Retained Send.Keeps s.sends (s.giveUp t).sends := by
  unfold Session.giveUp
  split
  · exact .refl Send.Keeps.refl _
  · exact .modify Send.Keeps.refl _ _ _ fun _ _ => ⟨rfl, rfl⟩

theorem step?_sends_retained (h : m.step? a = some m') :
    Retained Send.Keeps m.session.sends m'.session.sends := by
  cases step?_sends h with
  | kept sends _ => exact .of_eq Send.Keeps.refl sends
  | began x e _ sends _ =>
      rw [sends]
      exact .append Send.Keeps.refl _ _
  | gaveUp t _ sends _ =>
      rw [sends]
      exact giveUp_retained m.session t
  | queued outbound _ _ _ next =>
      rw [next]
      exact .refl Send.Keeps.refl _
  | completed outbound t result _ _ next =>
      rw [next, finishSend_sends]
      exact .modify Send.Keeps.refl _ _ _ fun _ _ => ⟨rfl, rfl⟩
  | taken e outbound _ _ next =>
      rw [next]
      exact .refl Send.Keeps.refl _
  | abandoned _ next =>
      rw [next]
      exact .refl Send.Keeps.refl _

end Machine

/-- What becomes of a session: it serves the same methods under the same lifetime, and nothing that it
has started is forgotten. -/
structure Session.Grows (s s' : Session M S) : Prop where
  registry : s'.registry = s.registry
  lifetime : s'.lifetime = s.lifetime
  calls : Retained Call.Keeps s.calls s'.calls
  clientStreams : Retained ClientStream.Keeps s.clientStreams s'.clientStreams
  servedStreams : Retained ServedStream.Keeps s.servedStreams s'.servedStreams
  runs : Retained Run.Keeps s.runs s'.runs
  refusals : Retained Refusal.Keeps s.refusals s'.refusals
  sends : Retained Send.Keeps s.sends s'.sends

theorem Session.Grows.refl (s : Session M S) : s.Grows s :=
  ⟨rfl, rfl, .refl Call.Keeps.refl _, .refl ClientStream.Keeps.refl _,
    .refl ServedStream.Keeps.refl _, .refl Run.Keeps.refl _, .refl Refusal.Keeps.refl _,
    .refl Send.Keeps.refl _⟩

theorem Session.Grows.trans {s s' s'' : Session M S} (h : s.Grows s') (h' : s'.Grows s'') :
    s.Grows s'' where
  registry := h'.registry.trans h.registry
  lifetime := h'.lifetime.trans h.lifetime
  calls := h.calls.trans Call.Keeps.trans h'.calls
  clientStreams := h.clientStreams.trans ClientStream.Keeps.trans h'.clientStreams
  servedStreams := h.servedStreams.trans ServedStream.Keeps.trans h'.servedStreams
  runs := h.runs.trans Run.Keeps.trans h'.runs
  refusals := h.refusals.trans Refusal.Keeps.trans h'.refusals
  sends := h.sends.trans Send.Keeps.trans h'.sends

namespace Machine

theorem step?_grows (h : m.step? a = some m') : m.session.Grows m'.session where
  registry := by
    rw [step?_frame h]
    cases a with
    | receive e => cases e <;> rfl
    | _ => rfl
  lifetime := by
    rw [step?_frame h]
    cases a with
    | receive e => cases e <;> rfl
    | _ => rfl
  calls := step?_calls h
  clientStreams := step?_clientStreams h
  servedStreams := step?_servedStreams h
  runs := step?_runs h
  refusals := step?_refusals h
  sends := step?_sends_retained h

theorem Life.grows {start s : Session M S} {past : History M S} (life : Life start past s) :
    start.Grows s := by
  induction life with
  | refl => exact .refl _
  | step _ last ih => exact ih.trans (step?_grows last)

/-- Nothing that was there at some time of the past has been lost since. -/
theorem Life.grows_since {start s : Session M S} {past : History M S} (life : Life start past s)
    {q : Machine M S} (h : (q, a) ∈ past) : q.session.Grows s := by
  induction life with
  | refl => cases h
  | step _ last ih =>
      rcases List.mem_append.mp h with h | h
      · exact (ih h).trans (step?_grows last)
      · obtain ⟨rfl, rfl⟩ := Prod.mk.inj (List.mem_singleton.mp h)
        exact step?_grows last

end Machine

end

end PeerLink
