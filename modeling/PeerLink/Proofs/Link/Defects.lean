import PeerLink.Proofs.Link.Output
import PeerLink.Proofs.Link.Undisturbed

/-! What a session makes of a defect in what arrives: a packet that cannot be read, a close message or an
error of the source. All envelopes in front of it are handled, although they have to pass through a queue,
and then the session ends. Nothing behind it is looked at. -/
namespace PeerLink

variable {M S : Type}

namespace Link

/-- What an item or a message is to the session. -/
inductive Parcel where
  | envelope (e : Envelope)
  /-- It has no effect on the session. -/
  | nothing
  | defect

namespace Parcel

def isSound : Parcel → Bool
  | .defect => false
  | _ => true

def envelope? : Parcel → Option Envelope
  | .envelope e => some e
  | _ => none

def ofItem : Wire.Item → Parcel
  | .ok e => .envelope e
  | .error _ => .defect

def ofMessage : SocketMessage → Parcel
  | .binary data =>
    match Wire.decode data with
    | .ok e => .envelope e
    | .error _ => .defect
  | .close => .defect
  | .failure _ => .defect
  | _ => .nothing

/-- The envelopes in front of the first defect. -/
def sound (ps : List Parcel) : List Envelope :=
  (ps.takeWhile isSound).filterMap envelope?

theorem sound_append {ps : List Parcel} (h : ∀ p ∈ ps, p.isSound = true) (qs : List Parcel) :
    sound (ps ++ qs) = ps.filterMap envelope? ++ sound qs := by
  rw [sound, List.takeWhile_append_of_pos h, List.filterMap_append, sound]

theorem sound_of_all {ps : List Parcel} (h : ∀ p ∈ ps, p.isSound = true) :
    sound ps = ps.filterMap envelope? := by
  have hAll := sound_append h []
  rw [List.append_nil] at hAll
  exact hAll.trans (List.append_nil _)

theorem sound_defect {ps : List Parcel} (h : ∀ p ∈ ps, p.isSound = true) (qs : List Parcel) :
    sound (ps ++ .defect :: qs) = ps.filterMap envelope? :=
  (sound_append h _).trans (List.append_nil _)

/-- What comes behind a defect does not count. -/
theorem sound_append_of_defect {ps : List Parcel} (h : .defect ∈ ps) (qs : List Parcel) :
    sound (ps ++ qs) = sound ps := by
  rw [sound, List.takeWhile_append, if_neg, sound]
  intro hLength
  have hAll := (List.takeWhile_prefix isSound).eq_of_length hLength
  exact Bool.false_ne_true (List.takeWhile_eq_self_iff.mp hAll .defect h)

theorem sound_prefix (ps qs : List Parcel) : sound ps <+: sound (ps ++ qs) := by
  rw [sound, sound, List.takeWhile_append]
  split
  · next hLength =>
      rw [(List.takeWhile_prefix isSound).eq_of_length hLength]
      exact (List.prefix_append _ _).filterMap _
  · exact List.prefix_rfl

theorem ofMessage_isSound (x : SocketMessage) : (ofMessage x).isSound = x.isHarmless := by
  cases x with
  | binary data =>
      simp only [ofMessage, SocketMessage.isHarmless]
      cases Wire.decode data <;> rfl
  | _ => rfl

theorem ofMessage_of_harmful {x : SocketMessage} (h : x.isHarmless = false) :
    ofMessage x = .defect := by
  cases hParcel : ofMessage x with
  | defect => rfl
  | _ =>
      rw [← ofMessage_isSound, hParcel] at h
      cases h

theorem ofMessage_envelope? (x : SocketMessage) : (ofMessage x).envelope? = x.envelope? := by
  cases x with
  | binary data =>
      simp only [ofMessage, SocketMessage.envelope?, SocketMessage.data?, Option.bind_some]
      cases Wire.decode data <;> rfl
  | _ => rfl

/-- What was handed over, as it arrived. -/
theorem map_ofItem_ok (es : List Envelope) :
    ((es.map .ok).map ofItem).filterMap envelope? = es ∧
      ∀ p ∈ (es.map .ok).map ofItem, p.isSound = true := by
  constructor
  · rw [List.map_map, List.filterMap_map]
    exact List.filterMap_some
  · simp [ofItem, isSound]

/-- Harmless messages are sound, and carry what they carry. -/
theorem map_ofMessage {xs : List SocketMessage} (h : ∀ x ∈ xs, x.isHarmless = true) :
    (xs.map ofMessage).filterMap envelope? = xs.filterMap SocketMessage.envelope? ∧
      ∀ p ∈ xs.map ofMessage, p.isSound = true := by
  constructor
  · rw [List.filterMap_map]
    exact congrArg (fun f => xs.filterMap f) (funext ofMessage_envelope?)
  · intro p hp
    obtain ⟨x, hx, rfl⟩ := List.mem_map.mp hp
    rw [ofMessage_isSound, h x hx]

end Parcel

end Link

namespace Transport

/-- The reader has not looked at these parcels. -/
def Unread : Transport → List Link.Parcel → Prop
  | .framed f, ps => ∃ held, f.stream.reader.Holds held ∧
      ps = (f.intake.unread held []).map .ofItem
  | .webSocket w, ps => ps = w.incoming.map .ofMessage
  | _, _ => False

end Transport

namespace Linked

variable {l l' : Linked M S} {x : Action} {past : History M S}

/-! ### What the reader has looked at -/

/-- What has come in for the reader, in order. Over bytes that is what a stream of packets yields. -/
def History.parcels (past : History M S) : Transport → List Link.Parcel
  | .framed _ => (Wire.PacketStream.new.run past.arrived).2.map .ofItem
  | .webSocket _ => past.messages.map .ofMessage
  | _ => []

/-- A defect or the end has come in. -/
def History.Terminated (past : History M S) (transport : Transport) : Prop :=
  .defect ∈ past.parcels transport ∨ ¬ past.Open

/-- What a reader that nobody stops has looked at, and what it has not. -/
structure Feed (past : History M S) (l : Linked M S) (parcels : List Link.Parcel)
    (inlet : Link.Inlet) (seen unread : List Link.Parcel) : Prop where
  queue : l.transport.inlet? = some inlet
  split : parcels = seen ++ unread
  left : l.transport.Unread unread
  /-- It looks at nothing behind a defect. -/
  upToDefect : .defect ∉ seen.dropLast
  handed : past.handed inlet = Link.Parcel.sound seen
  going : inlet.reader ≠ .stopped → .defect ∉ seen
  stopped : inlet.reader = .stopped → .defect ∈ seen ∨ ¬ past.Open ∧ unread = []

section

variable {parcels seen unread : List Link.Parcel} {inlet : Link.Inlet}

theorem Feed.of_sound (hInlet : l.transport.inlet? = some inlet) (split : parcels = seen ++ unread)
    (hUnread : l.transport.Unread unread) (hSound : ∀ p ∈ seen, p.isSound = true)
    (hHanded : past.handed inlet = seen.filterMap Link.Parcel.envelope?)
    (hStopped : inlet.reader = .stopped → ¬ past.Open ∧ unread = []) :
    Feed past l parcels inlet seen unread where
  queue := hInlet
  split := split
  left := hUnread
  upToDefect hDefect := Bool.false_ne_true (hSound _ (List.dropLast_subset _ hDefect))
  handed := hHanded.trans (Link.Parcel.sound_of_all hSound).symm
  going _ hDefect := Bool.false_ne_true (hSound _ hDefect)
  stopped hStop := .inr (hStopped hStop)

theorem Feed.of_defect (hInlet : l.transport.inlet? = some inlet)
    (hStopped : inlet.reader = .stopped) (split : parcels = seen ++ .defect :: unread)
    (hUnread : l.transport.Unread unread) (hSound : ∀ p ∈ seen, p.isSound = true)
    (hHanded : past.handed inlet = seen.filterMap Link.Parcel.envelope?) :
    Feed past l parcels inlet (seen ++ [.defect]) unread where
  queue := hInlet
  split := by rw [split, List.append_assoc, List.singleton_append]
  left := hUnread
  upToDefect hDefect := by
    rw [List.dropLast_concat] at hDefect
    exact Bool.false_ne_true (hSound _ hDefect)
  handed := hHanded.trans (Link.Parcel.sound_defect hSound []).symm
  going hGoing := absurd hStopped hGoing
  stopped _ := .inl (List.mem_append_right _ (List.mem_singleton.mpr rfl))

theorem Reading.feed {i : Link.Intake} (hReading : Reading past l i)
    (hOver : i.sourceEnded = true → ¬ past.Open) (hFree : ¬ past.Interrupted) :
    ∃ seen unread,
      Feed past l ((Wire.yields [] past.arrived).map .ofItem) i.inlet seen unread := by
  obtain ⟨f, hFramed, rfl⟩ := Transport.eq_framed hReading.intake
  have hInlet := Transport.inlet?_of_intake hReading.intake
  obtain ⟨hCarried, hSound⟩ := Link.Parcel.map_ofItem_ok (past.handed f.intake.inlet)
  have hUnread : ∀ {held}, f.stream.reader.Holds held →
      l.transport.Unread ((f.intake.unread held []).map .ofItem) := fun holds => by
    rw [hFramed]
    exact ⟨_, holds, rfl⟩
  by_cases hStopped : f.inlet.reader = .stopped
  · obtain hCut | ⟨hEnded, hAll, held, holds, hNothing⟩ | ⟨cause, held, holds, hFault⟩ :=
      hReading.stopped hStopped
    · exact absurd hCut hFree
    · have hNone := hUnread holds
      rw [hNothing] at hNone
      refine ⟨_, [], .of_sound hInlet ?_ hNone hSound hCarried.symm fun _ => ⟨hOver hEnded, rfl⟩⟩
      rw [hAll, List.append_nil]
    · have hNow := hFault []
      rw [List.append_nil] at hNow
      refine ⟨_, _, .of_defect hInlet hStopped ?_ (hUnread holds) hSound hCarried.symm⟩
      rw [hNow, List.map_append]
      rfl
  · obtain ⟨held, holds, hYields⟩ := hReading.going hStopped
    have hNow := hYields []
    rw [List.append_nil] at hNow
    refine ⟨_, _, .of_sound hInlet ?_ (hUnread holds) hSound hCarried.symm fun h => absurd h hStopped⟩
    rw [hNow, List.map_append]

theorem Mailing.feed {pingMessage : String} {b : Link.Mailbox}
    (hMailing : Mailing past l pingMessage b) (hFree : ¬ past.Interrupted) :
    ∃ seen unread, Feed past l (past.messages.map .ofMessage) b.inlet seen unread := by
  obtain ⟨w, hSocket, rfl⟩ := Transport.eq_webSocket hMailing.mailbox
  have hInlet := Transport.inlet?_of_mailbox hMailing.mailbox
  have hUnread : l.transport.Unread (w.incoming.map .ofMessage) := by
    rw [hSocket]
    rfl
  by_cases hStopped : w.inlet.reader = .stopped
  · obtain hCut | ⟨seen, hHarmless, hHanded, hReason⟩ := hMailing.stopped hStopped
    · exact absurd hCut hFree
    · obtain ⟨hCarried, hSound⟩ := Link.Parcel.map_ofMessage hHarmless
      obtain ⟨hEnded, hNone, hAll⟩ | ⟨y, hHarm, hSplit⟩ := hReason
      · have hNone : w.incoming = [] := hNone
        rw [hNone] at hUnread
        refine ⟨_, [], .of_sound hInlet ?_ hUnread hSound (hHanded.trans hCarried.symm)
          fun _ => ⟨hMailing.ended.mp hEnded, rfl⟩⟩
        rw [hAll, List.append_nil]
      · refine ⟨_, _, .of_defect hInlet hStopped ?_ hUnread hSound (hHanded.trans hCarried.symm)⟩
        rw [hSplit, List.map_append, List.map_cons, Link.Parcel.ofMessage_of_harmful hHarm]
        rfl
  · obtain ⟨seen, hSplit, hHarmless, hHanded⟩ := hMailing.going hStopped
    obtain ⟨hCarried, hSound⟩ := Link.Parcel.map_ofMessage hHarmless
    refine ⟨_, _, .of_sound hInlet ?_ hUnread hSound (hHanded.trans hCarried.symm)
      fun h => absurd h hStopped⟩
    rw [hSplit, List.map_append]
    rfl

end

section

variable {host : Host} {registry : Registry M S} {callTimeout : Option Duration} {capacity : Nat}
  {transport : Transport} (fresh : transport.Fresh)
  (run : Execution (new host registry callTimeout capacity transport) past l)

include fresh run

theorem Execution.feed (undisturbed : past.Undisturbed) : ∃ inlet seen unread,
    Feed past l (past.parcels transport) inlet seen unread := by
  have hFree := run.not_interrupted fresh undisturbed
  cases fresh with
  | framed room =>
      obtain ⟨i, hReading⟩ := run.reading
      obtain ⟨i', hIntake, hOver⟩ := run.sourceEnded_iff
      rw [hReading.intake] at hIntake
      cases hIntake
      have hYields : (Wire.PacketStream.new.run past.arrived).2 = Wire.yields [] past.arrived :=
        Wire.PacketStream.run_yields Wire.PacketReader.holds_new past.arrived
      rw [History.parcels, hYields]
      exact ⟨_, hReading.feed hOver.mp hFree⟩
  | webSocket room pingMessage =>
      obtain ⟨b, hMailing⟩ := run.mailing
      exact ⟨_, hMailing.feed hFree⟩

/-- When neither the reader nor the session can move on and the session has not ended, the reader has looked
at everything and waits for more. -/
theorem Execution.unread_at_rest (hLive : l.isEnded = false) (hDrained : l.Drained) :
    ∃ inlet, l.transport.inlet? = some inlet ∧ inlet.reader = .reading ∧ inlet.queued = [] ∧
      past.Open ∧ l.transport.unlooked = [] ∧ ∀ ps, l.transport.Unread ps → ps = [] := by
  cases fresh with
  | framed room =>
      obtain ⟨f, hFramed, hReader, hQueued, hBuffer, hSource, hMore⟩ :=
        run.idle_over_bytes hLive hDrained.1 hDrained.2
      obtain ⟨i, hIntake, hOver⟩ := run.sourceEnded_iff
      rw [hFramed] at hIntake ⊢
      cases hIntake
      refine ⟨f.inlet, rfl, hReader, hQueued, ?_, rfl, ?_⟩
      · by_contra hEnded
        rw [show f.sourceEnded = true from hOver.mpr hEnded] at hMore
        cases hMore
      · rintro ps ⟨held, holds, rfl⟩
        rw [Link.Intake.unread, Link.Framed.intake, hBuffer, hSource,
          Wire.yields_empty holds.firstItem?]
        rfl
  | webSocket room pingMessage =>
      obtain ⟨b, hMailing⟩ := run.mailing
      obtain ⟨_, alone⟩ := run.reaches
      obtain ⟨hReader, hQueued, hIncoming, hMore⟩ :=
        hMailing.idle hLive (alone.consuming_of_live hLive) hDrained.1 hDrained.2
      refine ⟨b.inlet, Transport.inlet?_of_mailbox hMailing.mailbox, hReader, hQueued, ?_, ?_, ?_⟩
      · by_contra hEnded
        rw [hMailing.ended.mpr hEnded] at hMore
        cases hMore
      · rw [Transport.unlooked_of_mailbox hMailing.mailbox, hIncoming]
      · obtain ⟨w, hSocket, rfl⟩ := Transport.eq_webSocket hMailing.mailbox
        rw [hSocket]
        rintro ps hUnread
        exact hUnread.trans (congrArg (List.map Link.Parcel.ofMessage) hIncoming)

end

/-! ### Pings -/

/-- When the reader is done, or has nothing left, what it has looked at is all in front of the first harmful
message, and that message. -/
theorem Mailing.countP_messages {pingMessage : String} {b : Link.Mailbox}
    (hMailing : Mailing past l pingMessage b) (hFree : ¬ past.Interrupted)
    (hDone : b.inlet.reader = .stopped ∨ b.incoming = []) (p : Link.SocketMessage → Bool)
    (hHarmful : ∀ y, y.isHarmless = false → p y = false) : past.messages.countP p =
      (past.messages.takeWhile Link.SocketMessage.isHarmless).countP p + b.incoming.countP p := by
  have hSplit : ∃ seen, (∀ y ∈ seen, y.isHarmless = true) ∧
      (past.messages = seen ∧ b.incoming = [] ∨
        ∃ y, y.isHarmless = false ∧ past.messages = seen ++ y :: b.incoming) := by
    by_cases hStopped : b.inlet.reader = .stopped
    · obtain hCut | ⟨seen, hHarmless, _, hReason⟩ := hMailing.stopped hStopped
      · exact absurd hCut hFree
      · exact ⟨seen, hHarmless, hReason.imp_left fun h => ⟨h.2.2, h.2.1⟩⟩
    · have hNone := hDone.resolve_left hStopped
      obtain ⟨seen, hAll, hHarmless, _⟩ := hMailing.going hStopped
      rw [hNone, List.append_nil] at hAll
      exact ⟨seen, hHarmless, .inl ⟨hAll, hNone⟩⟩
  obtain ⟨seen, hHarmless, ⟨hAll, hNone⟩ | ⟨y, hHarm, hAll⟩⟩ := hSplit
  · rw [hNone, hAll, List.takeWhile_eq_self_iff.mpr hHarmless]
    rfl
  · rw [hAll, List.takeWhile_append_of_pos hHarmless, List.takeWhile_cons_of_neg (by simp [hHarm]),
      List.append_nil, List.countP_append, List.countP_cons_of_neg (by simp [hHarmful y hHarm])]

theorem isPing_of_harmful {w : Link.WebSocket} {y : Link.SocketMessage} (h : y.isHarmless = false) :
    (Transport.webSocket w).isPing y = false := by
  cases y with
  | text text => cases h
  | _ => rfl

/-- A writer counts no pings. -/
theorem write_samePings {d : Link.Dispatch} (h : l.step? .write = some l')
    (hDispatch : l.transport.dispatch? = some d) : l.meter.SamePings l'.meter := by
  obtain ⟨d', _, hStep⟩ := step?_dispatch h hDispatch
  by_cases hTakes : l.view .write = some .take
  · rw [hTakes] at hStep
    obtain ⟨e, m, _, _, _, hOk, hError⟩ := hStep.takes
    cases hEncode : Wire.encode e with
    | ok data => exact .of_eq (hOk data hEncode).2
    | error cause =>
        rw [(hError cause hEncode).2]
        exact .failure _
  · exact .of_eq (hStep.meter_of_other hTakes)

section

variable {host : Host} {registry : Registry M S} {callTimeout : Option Duration} {capacity : Nat}
  {transport : Transport} (fresh : transport.Fresh)
  (run : Execution (new host registry callTimeout capacity transport) past l)

include fresh run

/-- Every ping that has come in was counted, or it was not looked at. -/
theorem Execution.pings_balance (hAlone : past.Alone) (hActive : host.meter.active = true) :
    l.meter.active = true ∧ l.meter.pings + l.transport.unlooked.countP transport.isPing =
      host.meter.pings + past.messages.countP transport.isPing := by
  induction run with
  | refl =>
      refine ⟨hActive, ?_⟩
      cases fresh with
      | framed room => rfl
      | webSocket room pingMessage => rfl
  | @step past l l' x prior last ih =>
      obtain ⟨hOn, hBalance⟩ := ih fun y hy => hAlone y (List.mem_append_left _ hy)
      have hKept : l.meter.SamePings l'.meter → l'.transport.unlooked = l.transport.unlooked →
          (∀ event, x ≠ .outside event) → l'.meter.active = true ∧
            l'.meter.pings + l'.transport.unlooked.countP transport.isPing =
              host.meter.pings + (History.messages (past ++ [(l, x)])).countP transport.isPing := by
        intro hSame hUnlooked hOther
        rw [hSame.active, hSame.pings, hUnlooked,
          History.messages_other fun message => hOther (.message message)]
        exact ⟨hOn, hBalance⟩
      cases x with
      | act a =>
          have hOwn : ∀ meter journal, a ≠ .others meter journal := fun meter journal he =>
            hAlone (l, .act a) (List.mem_append_right _ (List.mem_singleton.mpr rfl)) meter journal
              (congrArg Action.act he)
          rw [step?] at last
          split at last
          · obtain ⟨m, hStep, rfl⟩ := Option.map_eq_some_iff.mp last
            refine hKept ?_ rfl (by simp)
            rw [(Machine.step?_shared hStep).2]
            exact Machine.Action.samePings hOwn _
          · cases last
      | read =>
          rw [History.messages_other (by simp)]
          obtain ⟨hUnlooked, hSame⟩ | ⟨y, hNext, hMeter⟩ := prior.counted_of_read fresh last
          · rw [hUnlooked, hSame]
            exact ⟨hOn, hBalance⟩
          · rw [hNext, List.countP_cons] at hBalance
            rw [hMeter]
            split
            · next hPing =>
                rw [if_pos hPing] at hBalance
                rw [Meter.ping, if_pos hOn]
                exact ⟨hOn, by dsimp only; omega⟩
            · next hOther =>
                rw [if_neg hOther] at hBalance
                exact ⟨hOn, hBalance⟩
      | consume =>
          obtain ⟨⟨m, t⟩, hConsume, rfl⟩ := Option.map_eq_some_iff.mp last
          obtain ⟨a, hView, hStep, _⟩ := Transport.consume?_frame hConsume
          refine hKept ?_ (Transport.consume?_unlooked hConsume) (by simp)
          rw [(Machine.step?_shared hStep).2]
          refine Machine.Action.samePings (fun meter journal he => ?_) _
          obtain ⟨rfl, _⟩ | ⟨e, rfl, _⟩ := Transport.consumes_cases hView
          · cases he
          · cases he
      | write =>
          obtain ⟨d, hDispatching, _⟩ := prior.dispatching fresh
          have hSame := write_samePings last hDispatching.dispatch
          obtain ⟨⟨m, t⟩, hWrite, rfl⟩ := Option.map_eq_some_iff.mp last
          exact hKept hSame (Transport.write?_unlooked hWrite) (by simp)
      | outside event =>
          have hArriving := prior.pings_arriving fresh last
          obtain ⟨t, hChange, rfl⟩ := Option.map_eq_some_iff.mp last
          rw [hArriving, History.messages_append, List.countP_append, ← Nat.add_assoc, ← Nat.add_assoc,
            hBalance]
          exact ⟨hOn, rfl⟩

/-- In the end all pings in front of the first defect are counted. -/
theorem Execution.pings_of_over (undisturbed : past.Undisturbed) (hOver : l.isEnded = true ∨ l.Drained)
    (hAlone : past.Alone) (hActive : host.meter.active = true) : l.meter.pings = host.meter.pings +
      (past.messages.takeWhile Link.SocketMessage.isHarmless).countP transport.isPing := by
  obtain ⟨_, hBalance⟩ := run.pings_balance fresh hAlone hActive
  have hFree := run.not_interrupted fresh undisturbed
  cases fresh with
  | framed room =>
      rw [countP_isPing_framed, countP_isPing_framed] at hBalance
      rw [countP_isPing_framed]
      exact hBalance
  | webSocket room pingMessage =>
      obtain ⟨b, hMailing⟩ := run.mailing
      rw [Transport.unlooked_of_mailbox hMailing.mailbox] at hBalance
      have hInlet := Transport.inlet?_of_mailbox hMailing.mailbox
      have hDone : b.inlet.reader = .stopped ∨ b.incoming = [] := by
        cases hEnded : l.isEnded with
        | true =>
            obtain ⟨inlet, hSame, hExhausted⟩ :=
              run.exhausted_of_isEnded (.webSocket room pingMessage) undisturbed hEnded
            rw [hInlet] at hSame
            cases hSame
            exact .inl (Link.Inlet.isExhausted_iff.mp hExhausted).2
        | false =>
            have hDrained := hOver.resolve_left (by simp [hEnded])
            obtain ⟨_, _, _, _, _, hNone, _⟩ :=
              run.unread_at_rest (.webSocket room pingMessage) hEnded hDrained
            rw [Transport.unlooked_of_mailbox hMailing.mailbox] at hNone
            exact .inr hNone
      have hSplit := hMailing.countP_messages hFree hDone
        (Transport.webSocket (.new room pingMessage)).isPing fun _ => isPing_of_harmful
      omega

/-- A message that carries nothing and does no harm leaves the queue to the session alone. -/
theorem Execution.inlet?_of_nothing {y : Link.SocketMessage} (h : l.step? .read = some l')
    (hNext : l.transport.unlooked = y :: l'.transport.unlooked)
    (hNothing : Link.Parcel.ofMessage y = .nothing) :
    l'.transport.inlet? = l.transport.inlet? := by
  obtain ⟨⟨m, t⟩, hRead, rfl⟩ := Option.map_eq_some_iff.mp h
  cases fresh with
  | framed room =>
      obtain ⟨i, hReading⟩ := run.reading
      obtain ⟨f, hFramed, _⟩ := Transport.eq_framed hReading.intake
      rw [hFramed] at hNext
      cases hNext
  | webSocket room pingMessage =>
      obtain ⟨b, hMailing⟩ := run.mailing
      obtain ⟨b', hMailbox', hStep⟩ := Transport.read?_mailbox hRead hMailing.mailbox
      rw [Transport.inlet?_of_mailbox hMailbox', Transport.inlet?_of_mailbox hMailing.mailbox]
      rw [Transport.unlooked_of_mailbox hMailing.mailbox,
        Transport.unlooked_of_mailbox hMailbox'] at hNext
      cases hStep with
      | carried z e incoming _ next _ envelope =>
          rw [next] at hNext
          cases hNext
          rw [← Link.Parcel.ofMessage_envelope?, hNothing] at envelope
          cases envelope
      | passed => rfl
      | harmed z incoming _ _ next harm =>
          rw [next] at hNext
          cases hNext
          rw [← Link.Parcel.ofMessage_isSound, hNothing] at harm
          cases harm
      | waited | noticed | finished => exact absurd hNext.symm (List.cons_ne_self y b.incoming)

end

/-- What a session gets from a reader, if nobody disturbs it. -/
structure Delivers (host : Host) (transport : Transport) (past : History M S) (l : Linked M S) :
    Prop where
  /-- It handles the envelopes in front of the first defect, in order. -/
  heard : past.session.heard <+: Link.Parcel.sound (past.parcels transport)
  /-- It does not end before it has handled all of them, and not without a defect or the end of the
  source. -/
  ended : l.isEnded = true → past.session.heard = Link.Parcel.sound (past.parcels transport) ∧
    past.Terminated transport
  /-- When neither it nor the reader can move on, it has handled all of them, and it has ended if there was a
  reason to. -/
  rest : l.Drained → past.session.heard = Link.Parcel.sound (past.parcels transport) ∧
    (past.Terminated transport → l.isEnded = true)
  /-- They get there, since every step of them leaves fewer, and only what arrives gives them more. -/
  settles : ∀ x l', l.step? x = some l' → (∀ event, x ≠ .outside event) →
    l'.movesLeft ≤ l.movesLeft ∧ (x = .read ∨ x = .consume → l'.movesLeft < l.movesLeft)
  /-- Nothing behind a defect is looked at. -/
  unread : ∃ seen unread, past.parcels transport = seen ++ unread ∧ l.transport.Unread unread ∧
    .defect ∉ seen.dropLast
  /-- The reader leaves the session as it is, and what it counts are the pings at which it looks. -/
  looks : ∀ l', l.step? .read = some l' → l.toMachine.Noted l'.toMachine ∧
    ((l'.transport.unlooked = l.transport.unlooked ∧ l'.meter = l.meter) ∨
      ∃ y, l.transport.unlooked = y :: l'.transport.unlooked ∧
        l'.meter = if transport.isPing y then l.meter.ping else l.meter)
  /-- Other messages that carry nothing have no effect. -/
  passes : ∀ l' y, l.step? .read = some l' → l.transport.unlooked = y :: l'.transport.unlooked →
    Link.Parcel.ofMessage y = .nothing → l'.transport.inlet? = l.transport.inlet?
  /-- In the end the pings in front of the first defect are counted, each of them once. -/
  pings : past.Alone → host.meter.active = true → l.isEnded = true ∨ l.Drained →
    l.meter.pings = host.meter.pings +
      (past.messages.takeWhile Link.SocketMessage.isHarmless).countP transport.isPing

/-- A session that nobody disturbs handles the envelopes in front of the first defect and then ends, however
small the queue from its reader is. -/
theorem delivered_until_defect {host : Host} {registry : Registry M S}
    {callTimeout : Option Duration} {capacity : Nat} {transport : Transport}
    (fresh : transport.Fresh)
    (run : Execution (new host registry callTimeout capacity transport) past l)
    (undisturbed : past.Undisturbed) : Delivers host transport past l := by
  obtain ⟨inlet, seen, unread, hFeed⟩ := run.feed fresh undisturbed
  have hHanded : past.session.heard ++ inlet.waiting = Link.Parcel.sound seen := hFeed.handed
  have hHeard : past.session.heard <+: Link.Parcel.sound (past.parcels transport) := by
    have hSeen : past.session.heard <+: Link.Parcel.sound seen := ⟨_, hHanded⟩
    rw [hFeed.split]
    exact hSeen.trans (Link.Parcel.sound_prefix seen unread)
  -- The reader stops for a reason, and then nothing is in the queue any more.
  have hEnded : l.isEnded = true →
      past.session.heard = Link.Parcel.sound (past.parcels transport) ∧ past.Terminated transport := by
    intro hEnded
    obtain ⟨inlet', hSame, hExhausted⟩ := run.exhausted_of_isEnded fresh undisturbed hEnded
    rw [hFeed.queue] at hSame
    cases hSame
    rw [Link.Inlet.waiting_of_exhausted hExhausted, List.append_nil] at hHanded
    rw [hHanded, History.Terminated, hFeed.split]
    obtain hDefect | ⟨hOver, rfl⟩ := hFeed.stopped (Link.Inlet.isExhausted_iff.mp hExhausted).2
    · exact ⟨(Link.Parcel.sound_append_of_defect hDefect unread).symm,
        .inl (List.mem_append_left _ hDefect)⟩
    · exact ⟨by rw [List.append_nil], .inr hOver⟩
  refine ⟨hHeard, hEnded, fun hDrained => ?_, fun x l' => run.settles fresh, ?_, fun l' hRead => ?_,
    fun l' y => run.inlet?_of_nothing fresh, fun hAlone hActive hOver =>
      run.pings_of_over fresh undisturbed hOver hAlone hActive⟩
  · cases hLive : l.isEnded with
    | true => exact ⟨(hEnded hLive).1, fun _ => rfl⟩
    | false =>
        obtain ⟨inlet', hSame, hReader, hQueued, hOpen, _, hNone⟩ :=
          run.unread_at_rest fresh hLive hDrained
        rw [hFeed.queue] at hSame
        cases hSame
        rw [Link.Inlet.waiting_of_reading hReader, hQueued, List.append_nil] at hHanded
        have hAll := hFeed.split
        rw [hNone unread hFeed.left, List.append_nil] at hAll
        rw [hHanded, History.Terminated, hAll]
        refine ⟨rfl, fun hOver => ?_⟩
        obtain hDefect | hShut := hOver
        · exact absurd hDefect (hFeed.going (by simp [hReader]))
        · exact absurd hOpen hShut
  · exact ⟨seen, unread, hFeed.split, hFeed.left, hFeed.upToDefect⟩
  · refine ⟨?_, run.counted_of_read fresh hRead⟩
    obtain ⟨⟨m, t⟩, hMoved, rfl⟩ := Option.map_eq_some_iff.mp hRead
    exact (Transport.read?_frame hMoved).1

/-- If only the far end, the reader and the session did something, nobody disturbed the session. -/
theorem undisturbed_of_play {final : Linked M S} {actions : List Action}
    (h : l.play actions = some (past, final)) (hActs : ∀ a, Action.act a ∉ actions)
    (hWrites : Action.write ∉ actions) : past.Undisturbed ∧ past.Alone := by
  refine ⟨⟨fun y hy he => hActs _ (he ▸ mem_of_play h hy),
    fun y hy he => hActs _ (he ▸ mem_of_play h hy), ?_⟩,
    fun y hy meter journal he => hActs _ (he ▸ mem_of_play h hy)⟩
  rintro ⟨q, o, packet, hMem, _⟩
  exact hWrites (mem_of_play h hMem)

/-- A ping, a goodbye and another text come in, then the socket is closed. One more ping is not looked
at. There is room for one envelope between the reader and the session. -/
theorem delivered_until_defect_of_close : ∃ (past : History Unit Unit) (l : Linked Unit Unit),
    (Transport.webSocket (.new 0 "ping")).Fresh ∧
    Execution (new (Host.new true) Registry.empty none 8 (.webSocket (.new 0 "ping"))) past l ∧
    past.Undisturbed ∧ past.Alone ∧ l.isEnded = true ∧ past.session.heard = [.bye] ∧
    l.meter.pings = 1 ∧ l.transport.unlooked = [.text "ping"] := by
  let start : Linked Unit Unit :=
    new (Host.new true) Registry.empty none 8 (.webSocket (.new 0 "ping"))
  have hPlay : (start.play [.outside (.message (.text "ping")),
      .outside (.message (.binary byePacket.data)), .outside (.message (.text "pong")),
      .outside (.message .close), .outside (.message (.text "ping")), .read, .read, .read, .consume,
      .read, .read, .read, .consume]).map
      (fun x => (x.2.isEnded, Link.Parcel.sound (x.1.parcels (.webSocket (.new 0 "ping"))),
        (x.1.messages.takeWhile Link.SocketMessage.isHarmless).countP
          (Transport.webSocket (.new 0 "ping")).isPing, x.2.transport.unlooked)) =
        some (true, [.bye], 1, [.text "ping"]) := by decide +kernel
  obtain ⟨⟨past, l⟩, hRun, hFacts⟩ := Option.map_eq_some_iff.mp hPlay
  simp only [Prod.mk.injEq] at hFacts
  obtain ⟨hEnded, hSound, hPings, hUnlooked⟩ := hFacts
  have run := Execution.refl.play hRun
  rw [List.nil_append] at run
  obtain ⟨hUndisturbed, hAlone⟩ := undisturbed_of_play hRun (by simp) (by simp)
  have hFresh := Transport.Fresh.webSocket 0 "ping"
  have hDelivers := delivered_until_defect hFresh run hUndisturbed
  refine ⟨past, l, hFresh, run, hUndisturbed, hAlone, hEnded, ?_, ?_, hUnlooked⟩
  · rw [(hDelivers.ended hEnded).1, hSound]
  · rw [hDelivers.pings hAlone rfl (.inl hEnded), hPings]
    rfl

end Linked

end PeerLink