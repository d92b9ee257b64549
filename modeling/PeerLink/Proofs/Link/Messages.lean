import PeerLink.Proofs.Link.Reading

/-! What the reader of a websocket hands to its session. Unlike that of a byte transport it has nothing to
put together: a message carries an envelope, or it carries none and is passed over, or it stops the reader. Up
to there the session gets the envelopes of all messages, in order, and every ping is counted. -/
namespace PeerLink

namespace Link

/-- The packet in a message. -/
def SocketMessage.data? : SocketMessage → Option Bytes
  | .binary data => some data
  | _ => none

/-- The envelope in a message. -/
def SocketMessage.envelope? (x : SocketMessage) : Option Envelope :=
  x.data?.bind fun data => (Wire.decode data).toOption

/-- The reader goes on after the message. -/
def SocketMessage.isHarmless : SocketMessage → Bool
  | .binary data => (Wire.decode data).toOption.isSome
  | .close => false
  | .failure _ => false
  | _ => true

/-- The reading side of a websocket. -/
structure Mailbox where
  pingMessage : String
  incoming : List SocketMessage
  incomingEnded : Bool
  inlet : Inlet

def WebSocket.mailbox (l : WebSocket) : Mailbox :=
  { pingMessage := l.pingMessage, incoming := l.incoming, incomingEnded := l.incomingEnded
    inlet := l.inlet }

/-- What the counts are after a message was looked at. -/
def SocketMessage.counted (x : SocketMessage) (pingMessage : String) (meter : Meter) : Meter :=
  if x = .text pingMessage then meter.ping else meter

end Link

variable {M S : Type}

/-- What a step of the reader of a websocket can do. -/
inductive MailStep (m : Machine M S) (b : Link.Mailbox) : Machine M S → Link.Mailbox → Prop where
  /-- The reader has waited for room in the queue, or gives up since the session takes no more. -/
  | waited (inlet : Link.Inlet) (advance : b.inlet.advance? m.session.consuming = some inlet) :
      MailStep m b m { b with inlet }
  | noticed (reading : b.inlet.reader = .reading) (ended : m.isEnded = true) :
      MailStep m b m { b with inlet := b.inlet.stop }
  | carried (x : Link.SocketMessage) (e : Envelope) (incoming : List Link.SocketMessage)
      (reading : b.inlet.reader = .reading) (next : b.incoming = x :: incoming)
      (harmless : x.isHarmless = true) (envelope : x.envelope? = some e)
      (meter : m.meter = x.counted b.pingMessage m.meter) :
      MailStep m b m { b with incoming, inlet := b.inlet.offer e }
  | passed (x : Link.SocketMessage) (incoming : List Link.SocketMessage) (m' : Machine M S)
      (reading : b.inlet.reader = .reading) (next : b.incoming = x :: incoming)
      (harmless : x.isHarmless = true) (envelope : x.envelope? = none) (noted : m.Noted m')
      (meter : m'.meter = x.counted b.pingMessage m.meter) : MailStep m b m' { b with incoming }
  | harmed (x : Link.SocketMessage) (incoming : List Link.SocketMessage) (m' : Machine M S)
      (reading : b.inlet.reader = .reading) (next : b.incoming = x :: incoming)
      (harm : x.isHarmless = false) (noted : m.Noted m')
      (meter : m'.meter = x.counted b.pingMessage m.meter) :
      MailStep m b m' { b with incoming, inlet := b.inlet.stop }
  /-- Nothing more will come. -/
  | finished (reading : b.inlet.reader = .reading) (incoming : b.incoming = [])
      (ended : b.incomingEnded = true) : MailStep m b m { b with inlet := b.inlet.stop }

section Steps

variable {m m' : Machine M S} {w w' : Link.WebSocket}

theorem Link.WebSocket.gotMessage_step {x : Link.SocketMessage} {incoming : List Link.SocketMessage}
    (reading : w.inlet.reader = .reading) (next : w.incoming = x :: incoming)
    (h : gotMessage m { w with incoming } x = (m', w')) : MailStep m w.mailbox m' w'.mailbox := by
  cases x with
  | binary data =>
      simp only [gotMessage] at h
      split at h
      · next e hDecode =>
          cases h
          exact .carried _ e incoming reading next
            (by simp [SocketMessage.isHarmless, hDecode, Except.toOption])
            (by simp [SocketMessage.envelope?, SocketMessage.data?, hDecode, Except.toOption]) rfl
      · next cause hDecode =>
          cases h
          exact .harmed _ incoming _ reading next
            (by simp [SocketMessage.isHarmless, hDecode, Except.toOption]) (.log m _) rfl
  | text text =>
      simp only [gotMessage] at h
      split at h
      · next hPing =>
          cases h
          refine .passed _ incoming _ reading next rfl rfl (.count m Meter.ping) ?_
          exact (if_pos (congrArg SocketMessage.text hPing)).symm
      · next hOther =>
          cases h
          refine .passed _ incoming _ reading next rfl rfl (.log m _) ?_
          exact (if_neg fun he => hOther (SocketMessage.text.inj he)).symm
  | ping data =>
      cases h
      exact .passed _ incoming m reading next rfl rfl (.refl m) rfl
  | pong data =>
      cases h
      exact .passed _ incoming m reading next rfl rfl (.refl m) rfl
  | close =>
      cases h
      exact .harmed _ incoming m reading next rfl (.refl m) rfl
  | failure e =>
      cases h
      refine .harmed _ incoming _ reading next rfl ?_ ?_
      · split
        · exact .refl m
        · exact .log m _
      · split <;> rfl

theorem Link.WebSocket.read?_step (h : w.read? m = some (m', w')) :
    MailStep m w.mailbox m' w'.mailbox := by
  unfold Link.WebSocket.read? at h
  split at h
  · obtain ⟨inlet, hAdvance, he⟩ := Option.map_eq_some_iff.mp h
    cases he
    exact .waited inlet hAdvance
  · next hReading =>
      have hReading := Decidable.not_not.mp hReading
      split at h
      · next hEnded =>
          cases h
          exact .noticed hReading hEnded
      · split at h
        · next x incoming hNext => exact gotMessage_step hReading hNext (Option.some.inj h)
        · next hIncoming =>
            split at h
            · next hEnded =>
                cases h
                exact .finished hReading hIncoming hEnded
            · cases h

/-- The writer leaves the reading side alone. -/
theorem Link.WebSocket.write?_mailbox (h : w.write? m = some (m', w')) : w'.mailbox = w.mailbox := by
  unfold Link.WebSocket.write? at h
  split at h
  · split at h
    · cases h
      rfl
    · split at h
      · cases h
      · split at h
        · cases h
          rfl
        · cases h
          rfl
  all_goals
    first
    | cases h
      rfl
    | split at h
      · cases h
      · cases h
        rfl
      · cases h
        rfl
    | cases h

/-- The session stops, or it takes the envelope that was queued first. -/
theorem Link.WebSocket.consume?_mailbox (h : w.consume? m = some (m', w')) :
    ((∃ exhausted, (Transport.webSocket w).consumes m = some (.stop exhausted)) ∧
      w'.mailbox = w.mailbox) ∨
      ∃ e queued, (Transport.webSocket w).consumes m = some (.receive e) ∧
        w.inlet.queued = e :: queued ∧
        w'.mailbox = { w.mailbox with inlet := { w.inlet with queued } } := by
  unfold Link.WebSocket.consume? at h
  split at h
  · next hStop =>
      cases h
      exact .inl ⟨⟨_, Transport.consumes_of_stop (t := .webSocket w) hStop⟩, rfl⟩
  · next e queued hGoing hQueue =>
      obtain ⟨m₂, _, he⟩ := Option.map_eq_some_iff.mp h
      cases he
      have hNext : (Transport.webSocket w).next? = some e := by
        rw [Transport.next?, hQueue, List.head?_cons]
      exact .inr ⟨e, queued, Transport.consumes_of_next hGoing hNext, hQueue, rfl⟩
  · cases h

/-- A session that cannot move on has nothing queued, and its reader has not stopped. -/
theorem Link.WebSocket.consume?_eq_none (h : w.consume? m = none)
    (hConsuming : m.session.consuming = true) (hLive : m.isEnded = false) :
    w.inlet.queued = [] ∧ w.inlet.reader ≠ .stopped := by
  unfold Link.WebSocket.consume? at h
  split at h
  · cases h
  · next e queued _ hQueue =>
      rw [Option.map_eq_none_iff, Machine.receive?, hConsuming, hLive] at h
      cases h
  · next hGoing hQueue =>
      refine ⟨hQueue, fun hStopped => ?_⟩
      simp [Machine.stopConsuming?, hConsuming, Link.Inlet.isExhausted, hQueue, hStopped] at hGoing

/-- A reader that cannot move on although there is room has looked at all messages. -/
theorem Link.WebSocket.read?_eq_none (h : w.read? m = none) (hConsuming : m.session.consuming = true)
    (hLive : m.isEnded = false) (hQueued : w.inlet.queued = []) (hGoing : w.inlet.reader ≠ .stopped) :
    w.inlet.reader = .reading ∧ w.incoming = [] ∧ w.incomingEnded = false := by
  unfold Link.WebSocket.read? at h
  split at h
  · next hBusy =>
      rw [Option.map_eq_none_iff, Link.Inlet.advance?] at h
      split at h
      · simp [hConsuming, Link.Inlet.isFull, hQueued] at h
      · simp [hConsuming, Link.Inlet.isFull, hQueued] at h
      · next hOffering hFlushing =>
          cases hReader : w.inlet.reader with
          | reading => exact absurd hReader hBusy
          | offering e => exact absurd hReader (hOffering e)
          | flushing => exact absurd hReader hFlushing
          | stopped => exact absurd hReader hGoing
  · next hReading =>
      rw [if_neg (by simp [hLive])] at h
      split at h
      · cases h
      · next hIncoming =>
          split at h
          · cases h
          · next hOpen => exact ⟨Decidable.not_not.mp hReading, hIncoming, Bool.eq_false_iff.mpr hOpen⟩

end Steps

/-- The reading side of a websocket. -/
def Transport.mailbox? : Transport → Option Link.Mailbox
  | .webSocket w => some w.mailbox
  | _ => none

/-- The messages that the reader has not looked at. -/
def Transport.unlooked : Transport → List Link.SocketMessage
  | .webSocket w => w.incoming
  | _ => []

namespace Transport

variable {t t' : Transport} {m m' : Machine M S} {b : Link.Mailbox}

theorem eq_webSocket (h : t.mailbox? = some b) : ∃ w, t = .webSocket w ∧ w.mailbox = b := by
  cases t with
  | webSocket w => exact ⟨w, rfl, Option.some.inj h⟩
  | _ => cases h

theorem unlooked_of_mailbox (h : t.mailbox? = some b) : t.unlooked = b.incoming := by
  obtain ⟨w, rfl, rfl⟩ := eq_webSocket h
  rfl

theorem read?_mailbox (h : t.read? m = some (m', t')) (hMailbox : t.mailbox? = some b) :
    ∃ b', t'.mailbox? = some b' ∧ MailStep m b m' b' := by
  obtain ⟨w, rfl, rfl⟩ := eq_webSocket hMailbox
  obtain ⟨⟨m₁, w'⟩, hRead, he⟩ := Option.map_eq_some_iff.mp h
  cases he
  exact ⟨w'.mailbox, rfl, Link.WebSocket.read?_step hRead⟩

theorem consume?_mailbox (h : t.consume? m = some (m', t')) (hMailbox : t.mailbox? = some b) :
    ((∃ exhausted, t.consumes m = some (.stop exhausted)) ∧ t'.mailbox? = some b) ∨
      ∃ e queued, t.consumes m = some (.receive e) ∧ b.inlet.queued = e :: queued ∧
        t'.mailbox? = some { b with inlet := { b.inlet with queued } } := by
  obtain ⟨w, rfl, rfl⟩ := eq_webSocket hMailbox
  obtain ⟨⟨m₁, w'⟩, hConsume, he⟩ := Option.map_eq_some_iff.mp h
  cases he
  obtain ⟨hStop, hSame⟩ | ⟨e, queued, hView, hQueue, hNext⟩ :=
    Link.WebSocket.consume?_mailbox hConsume
  · exact .inl ⟨hStop, congrArg some hSame⟩
  · exact .inr ⟨e, queued, hView, hQueue, congrArg some hNext⟩

theorem write?_mailbox (h : t.write? m = some (m', t')) (hMailbox : t.mailbox? = some b) :
    t'.mailbox? = some b := by
  obtain ⟨w, rfl, rfl⟩ := eq_webSocket hMailbox
  obtain ⟨⟨m₁, w'⟩, hWrite, he⟩ := Option.map_eq_some_iff.mp h
  cases he
  exact congrArg some (Link.WebSocket.write?_mailbox hWrite)

end Transport

namespace Linked

variable {l l' : Linked M S} {x : Action} {past : History M S} {b : Link.Mailbox}

/-- The messages that have arrived on a websocket, in order. -/
def History.messages (past : History M S) : List Link.SocketMessage :=
  past.filterMap fun x => match x.2 with
    | .outside (.message message) => some message
    | _ => none

theorem History.messages_append :
    History.messages (past ++ [(l, x)]) = past.messages ++ History.messages [(l, x)] :=
  List.filterMap_append

theorem History.messages_other (h : ∀ message, x ≠ .outside (.message message)) :
    History.messages (past ++ [(l, x)]) = past.messages := by
  have hNone : History.messages [(l, x)] = [] := by
    cases x with
    | outside event =>
        cases event with
        | message y => exact absurd rfl (h y)
        | _ => rfl
    | _ => rfl
  rw [History.messages_append, hNone, List.append_nil]

theorem History.handed_read :
    ∀ inlet, History.handed (past ++ [(l, .read)]) inlet = past.handed inlet :=
  History.handed_other nofun

/-- Where a websocket stands with the messages that have arrived. -/
structure Mailing (past : History M S) (l : Linked M S) (pingMessage : String) (b : Link.Mailbox) :
    Prop where
  mailbox : l.transport.mailbox? = some b
  pingMessage : b.pingMessage = pingMessage
  ended : b.incomingEnded = true ↔ ¬ past.Open
  order : ∃ seen, seen <+: past.messages ∧ (∀ y ∈ seen, y.isHarmless = true) ∧
    past.handed b.inlet <+: seen.filterMap Link.SocketMessage.envelope?
  /-- All messages that were looked at are harmless, and what they carry was handed over. -/
  going : b.inlet.reader ≠ .stopped → ∃ seen, past.messages = seen ++ b.incoming ∧
    (∀ y ∈ seen, y.isHarmless = true) ∧
    past.handed b.inlet = seen.filterMap Link.SocketMessage.envelope?
  /-- Why the reader stopped. What comes after a harmful message was not looked at. -/
  stopped : b.inlet.reader = .stopped → past.Interrupted ∨ ∃ seen,
    (∀ y ∈ seen, y.isHarmless = true) ∧
    past.handed b.inlet = seen.filterMap Link.SocketMessage.envelope? ∧
    ((b.incomingEnded = true ∧ b.incoming = [] ∧ past.messages = seen) ∨
      ∃ y, y.isHarmless = false ∧ past.messages = seen ++ y :: b.incoming)

variable {pingMessage : String}

theorem mailing_new {host : Host} {registry : Registry M S} {callTimeout : Option Duration}
    {capacity inbound : Nat} :
    Mailing [] (new host registry callTimeout capacity (.webSocket (.new inbound pingMessage)))
      pingMessage (Link.WebSocket.new inbound pingMessage).mailbox where
  mailbox := rfl
  pingMessage := rfl
  ended := iff_of_false Bool.false_ne_true (not_not_intro History.open_nil)
  order := ⟨[], List.prefix_rfl, fun _ hy => absurd hy List.not_mem_nil, List.prefix_rfl⟩
  going _ := ⟨[], rfl, fun _ hy => absurd hy List.not_mem_nil, rfl⟩
  stopped := nofun

/-- A reader that goes on has handed over what it has looked at. -/
theorem Mailing.on {seen : List Link.SocketMessage} (hMailbox : l.transport.mailbox? = some b)
    (hPing : b.pingMessage = pingMessage) (hOver : b.incomingEnded = true ↔ ¬ past.Open)
    (hReader : b.inlet.reader ≠ .stopped) (hSeen : past.messages = seen ++ b.incoming)
    (hHarmless : ∀ y ∈ seen, y.isHarmless = true)
    (hHanded : past.handed b.inlet = seen.filterMap Link.SocketMessage.envelope?) :
    Mailing past l pingMessage b where
  mailbox := hMailbox
  pingMessage := hPing
  ended := hOver
  order := ⟨seen, hSeen ▸ List.prefix_append _ _, hHarmless, hHanded ▸ List.prefix_rfl⟩
  going _ := ⟨seen, hSeen, hHarmless, hHanded⟩
  stopped hStopped := absurd hStopped hReader

/-- Nothing arrives and nothing is looked at, and what was handed over stays so. -/
theorem Mailing.move {inlet : Link.Inlet} (hMailing : Mailing past l pingMessage b)
    (hMailbox : l'.transport.mailbox? = some { b with inlet }) (hOther : ∀ event, x ≠ .outside event)
    (hHanded : History.handed (past ++ [(l, x)]) inlet = past.handed b.inlet)
    (hReader : inlet.reader = .stopped ↔ b.inlet.reader = .stopped) :
    Mailing (past ++ [(l, x)]) l' pingMessage { b with inlet } := by
  have hMessages : History.messages (past ++ [(l, x)]) = past.messages :=
    History.messages_other fun message => hOther (.message message)
  refine ⟨hMailbox, hMailing.pingMessage, ?_, ?_, fun hGoing => ?_, fun hStopped => ?_⟩
  · rw [History.open_append, and_iff_left (hOther .ended)]
    exact hMailing.ended
  · rw [hMessages, hHanded]
    exact hMailing.order
  · rw [hMessages, hHanded]
    exact hMailing.going fun hStopped => hGoing (hReader.mpr hStopped)
  · rw [hMessages, hHanded]
    exact (hMailing.stopped (hReader.mp hStopped)).imp_left .step

/-- The reader stops since the session has ended, and what it could not queue is lost. -/
theorem Mailing.stop (hMailing : Mailing past l pingMessage b)
    (hMailbox : l'.transport.mailbox? = some { b with inlet := b.inlet.stop })
    (hEnded : l.isEnded = true) :
    Mailing (past ++ [(l, .read)]) l' pingMessage { b with inlet := b.inlet.stop } where
  mailbox := hMailbox
  pingMessage := hMailing.pingMessage
  ended := by
    rw [History.open_append, and_iff_left (by nofun)]
    exact hMailing.ended
  order := by
    obtain ⟨seen, hSeen, hHarmless, hOrder⟩ := hMailing.order
    rw [History.messages_other (by simp), History.handed_read]
    exact ⟨seen, hSeen, hHarmless,
      ((List.prefix_append_right_inj _).mpr b.inlet.waiting_stop).trans hOrder⟩
  going hGoing := absurd rfl hGoing
  stopped _ := .inl (History.interrupted_of_isEnded hEnded)

/-- The reader looks at a harmless message and hands over the envelope in it, if there is one. -/
theorem Mailing.look {inlet : Link.Inlet} {y : Link.SocketMessage} {incoming : List Link.SocketMessage}
    (hMailing : Mailing past l pingMessage b) (reading : b.inlet.reader = .reading)
    (next : b.incoming = y :: incoming) (hHarmless : y.isHarmless = true)
    (hMailbox : l'.transport.mailbox? = some { b with incoming, inlet })
    (hWaiting : inlet.waiting = b.inlet.waiting ++ y.envelope?.toList)
    (hReader : inlet.reader ≠ .stopped) :
    Mailing (past ++ [(l, .read)]) l' pingMessage { b with incoming, inlet } := by
  obtain ⟨seen, hSplit, hSeen, hHanded⟩ := hMailing.going (by simp [reading])
  have hNext : [y].filterMap Link.SocketMessage.envelope? = y.envelope?.toList := by
    rw [List.filterMap_cons]
    cases y.envelope? <;> rfl
  have hOver : b.incomingEnded = true ↔ ¬ History.Open (past ++ [(l, .read)]) := by
    rw [History.open_append, and_iff_left (by nofun)]
    exact hMailing.ended
  have hMessages : History.messages (past ++ [(l, .read)]) = (seen ++ [y]) ++ incoming := by
    rw [History.messages_other (by simp), hSplit, next, List.append_assoc]
    rfl
  refine .on hMailbox hMailing.pingMessage hOver hReader hMessages ?_ ?_
  · intro z hz
    obtain hz | hz := List.mem_append.mp hz
    · exact hSeen z hz
    · rw [List.mem_singleton.mp hz]
      exact hHarmless
  · rw [History.handed_read, History.handed, hWaiting, ← List.append_assoc, ← History.handed,
      hHanded, List.filterMap_append, hNext]

/-- The reader comes to a harmful message, or to the end. All before it was handed over. -/
theorem Mailing.halt {incoming : List Link.SocketMessage} (hMailing : Mailing past l pingMessage b)
    (reading : b.inlet.reader = .reading)
    (hMailbox : l'.transport.mailbox? = some { b with incoming, inlet := b.inlet.stop })
    (hReason : (b.incomingEnded = true ∧ b.incoming = [] ∧ incoming = []) ∨
      ∃ y, y.isHarmless = false ∧ b.incoming = y :: incoming) :
    Mailing (past ++ [(l, .read)]) l' pingMessage { b with incoming, inlet := b.inlet.stop } := by
  obtain ⟨seen, hSplit, hSeen, hHanded⟩ := hMailing.going (by simp [reading])
  have hMessages : History.messages (past ++ [(l, .read)]) = past.messages :=
    History.messages_other (by simp)
  have hSame : History.handed (past ++ [(l, .read)]) b.inlet.stop =
      seen.filterMap Link.SocketMessage.envelope? := by
    rw [History.handed_read, ← hHanded, History.handed, History.handed,
      Link.Inlet.waiting_of_reading reading]
    rfl
  refine ⟨hMailbox, hMailing.pingMessage, ?_, ?_, fun hGoing => absurd rfl hGoing, fun _ => .inr ?_⟩
  · rw [History.open_append, and_iff_left (by simp)]
    exact hMailing.ended
  · refine ⟨seen, ?_, hSeen, hSame ▸ List.prefix_rfl⟩
    rw [hMessages, hSplit]
    exact List.prefix_append _ _
  · refine ⟨seen, hSeen, hSame, ?_⟩
    rw [hMessages, hSplit]
    obtain ⟨hEnded, hNone, rfl⟩ | ⟨y, hHarm, hNext⟩ := hReason
    · exact .inl ⟨hEnded, rfl, by rw [hNone, List.append_nil]⟩
    · exact .inr ⟨y, hHarm, by rw [hNext]⟩

theorem Mailing.read (hMailing : Mailing past l pingMessage b)
    (hOver : l.session.consuming = false → l.isEnded = true) (h : l.step? .read = some l') :
    ∃ b', Mailing (past ++ [(l, .read)]) l' pingMessage b' := by
  obtain ⟨⟨m, t⟩, hRead, rfl⟩ := Option.map_eq_some_iff.mp h
  obtain ⟨b', hMailbox, hMoved⟩ := Transport.read?_mailbox hRead hMailing.mailbox
  refine ⟨b', ?_⟩
  cases hMoved with
  | waited inlet advance =>
      obtain ⟨hGoing, ⟨hOff, rfl⟩ | ⟨hStill, hWaiting⟩⟩ := Link.Inlet.advance?_eq_some advance
      · exact hMailing.stop hMailbox (hOver hOff)
      · refine hMailing.move hMailbox nofun ?_ (iff_of_false hStill hGoing)
        rw [History.handed_read, History.handed, History.handed, hWaiting]
  | noticed reading ended => exact hMailing.stop hMailbox ended
  | carried y e incoming reading next harmless envelope _ =>
      refine hMailing.look reading next harmless hMailbox ?_ (by simp [Link.Inlet.offer])
      rw [envelope, Link.Inlet.waiting_of_reading reading]
      rfl
  | passed y incoming _ reading next harmless envelope =>
      refine hMailing.look reading next harmless hMailbox ?_ (by simp [reading])
      rw [envelope, Option.toList_none, List.append_nil]
  | harmed y incoming _ reading next harm =>
      exact hMailing.halt reading hMailbox (.inr ⟨y, harm, next⟩)
  | finished reading incoming ended =>
      exact hMailing.halt reading hMailbox (.inl ⟨ended, incoming, incoming⟩)

/-- A message is counted when it is looked at, and nothing else is counted by the reader. -/
theorem Mailing.counted (hMailing : Mailing past l pingMessage b) (h : l.step? .read = some l') :
    (l'.transport.unlooked = l.transport.unlooked ∧ l'.meter = l.meter) ∨
      ∃ y, l.transport.unlooked = y :: l'.transport.unlooked ∧
        l'.meter = y.counted pingMessage l.meter := by
  obtain ⟨⟨m, t⟩, hRead, rfl⟩ := Option.map_eq_some_iff.mp h
  obtain ⟨b', hMailbox, hMoved⟩ := Transport.read?_mailbox hRead hMailing.mailbox
  rw [Transport.unlooked_of_mailbox hMailbox, Transport.unlooked_of_mailbox hMailing.mailbox,
    ← hMailing.pingMessage]
  cases hMoved with
  | waited inlet _ => exact .inl ⟨rfl, rfl⟩
  | noticed => exact .inl ⟨rfl, rfl⟩
  | carried y e incoming _ next _ _ meter => exact .inr ⟨y, next, meter⟩
  | passed y incoming _ _ next _ _ _ meter => exact .inr ⟨y, next, meter⟩
  | harmed y incoming _ _ next _ _ meter => exact .inr ⟨y, next, meter⟩
  | finished => exact .inl ⟨rfl, rfl⟩

theorem Mailing.consume (hMailing : Mailing past l pingMessage b)
    (h : l.step? .consume = some l') : ∃ b', Mailing (past ++ [(l, .consume)]) l' pingMessage b' := by
  obtain ⟨⟨m, t⟩, hConsume, rfl⟩ := Option.map_eq_some_iff.mp h
  obtain ⟨⟨exhausted, hStop⟩, hMailbox⟩ | ⟨e, queued, hReceive, hQueue, hMailbox⟩ :=
    Transport.consume?_mailbox hConsume hMailing.mailbox
  · have hView : l.view .consume = some (.stop exhausted) := hStop
    exact ⟨b, hMailing.move hMailbox nofun
      (History.handed_other (by simp [hView]) b.inlet) Iff.rfl⟩
  · have hView : l.view .consume = some (.receive e) := hReceive
    refine ⟨_, hMailing.move hMailbox nofun ?_ Iff.rfl⟩
    rw [History.handed, History.heard_receive hView, History.handed, Link.Inlet.waiting_cons hQueue,
      List.append_assoc]
    rfl

/-- What the far end does to the reading side. -/
def Event.onMailbox : Event → Link.Mailbox → Link.Mailbox
  | .message y, b => { b with incoming := b.incoming ++ [y] }
  | .ended, b => { b with incomingEnded := true }
  | _, b => b

theorem Event.change?_mailbox {event : Event} {t t' : Transport} (h : event.change? t = some t')
    (hMailbox : t.mailbox? = some b) : t'.mailbox? = some (event.onMailbox b) ∧
      ∀ y, event = .message y → b.incomingEnded = false := by
  obtain ⟨w, rfl, rfl⟩ := Transport.eq_webSocket hMailbox
  cases event with
  | message y =>
      obtain ⟨hGuard, hArrive⟩ := Option.ite_none_left_eq_some.mp h
      cases hArrive
      exact ⟨rfl, fun _ _ => Bool.eq_false_iff.mpr hGuard⟩
  | _ =>
      cases h
      exact ⟨rfl, nofun⟩

theorem Event.onMailbox_incoming (event : Event) (b : Link.Mailbox) : (event.onMailbox b).incoming =
    b.incoming ++ History.messages [(l, .outside event)] := by
  cases event with
  | message y => rfl
  | _ => exact (List.append_nil _).symm

theorem Mailing.outside {event : Event} (hMailing : Mailing past l pingMessage b)
    (h : l.step? (.outside event) = some l') :
    ∃ b', Mailing (past ++ [(l, .outside event)]) l' pingMessage b' := by
  have hHanded : ∀ inlet, History.handed (past ++ [(l, .outside event)]) inlet = past.handed inlet :=
    History.handed_other nofun
  have hMessages : History.messages (past ++ [(l, .outside event)]) =
      past.messages ++ History.messages [(l, .outside event)] := History.messages_append
  obtain ⟨t, hChange, rfl⟩ := Option.map_eq_some_iff.mp h
  obtain ⟨hMailbox, hGuard⟩ := Event.change?_mailbox hChange hMailing.mailbox
  have hIncoming := Event.onMailbox_incoming (l := l) event b
  have hInlet : (event.onMailbox b).inlet = b.inlet := by
    cases event <;> rfl
  refine ⟨_, hMailbox, ?_, ?_, ?_, fun hGoing => ?_, fun hStopped => ?_⟩
  · rw [← hMailing.pingMessage]
    cases event <;> rfl
  · rw [History.open_append]
    cases event with
    | ended => exact iff_of_true rfl fun hOpen => hOpen.2 rfl
    | _ => exact hMailing.ended.trans (not_congr (and_iff_left nofun).symm)
  · obtain ⟨seen, hSeen, hHarmless, hOrder⟩ := hMailing.order
    rw [hMessages, hHanded, hInlet]
    exact ⟨seen, hSeen.trans (List.prefix_append _ _), hHarmless, hOrder⟩
  · rw [hInlet] at hGoing
    obtain ⟨seen, hSplit, hHarmless, hSame⟩ := hMailing.going hGoing
    refine ⟨seen, ?_, hHarmless, by rw [hHanded, hInlet, hSame]⟩
    rw [hMessages, hSplit, hIncoming, List.append_assoc]
  · rw [hInlet] at hStopped
    obtain hCut | ⟨seen, hHarmless, hSame, hReason⟩ := hMailing.stopped hStopped
    · exact .inl hCut.step
    · refine .inr ⟨seen, hHarmless, by rw [hHanded, hInlet, hSame], ?_⟩
      obtain ⟨hOver, hNone, hAll⟩ | ⟨y, hHarm, hSplit⟩ := hReason
      · -- Nothing arrives after the end.
        have hNothing : History.messages [(l, .outside event)] = [] := by
          cases event with
          | message y =>
              rw [hGuard y rfl] at hOver
              cases hOver
          | _ => rfl
        refine .inl ⟨?_, by rw [hIncoming, hNone, hNothing]; rfl, ?_⟩
        · cases event <;> first | rfl | exact hOver
        · rw [hMessages, hNothing, List.append_nil, hAll]
      · refine .inr ⟨y, hHarm, ?_⟩
        rw [hMessages, hSplit, hIncoming, List.append_assoc, List.cons_append]

theorem Mailing.act {a : Machine.Action} (hMailing : Mailing past l pingMessage b)
    (h : l.step? (.act a) = some l') :
    Mailing (past ++ [(l, .act a)]) l' pingMessage b := by
  rw [step?] at h
  split at h
  · next hLocal =>
      obtain ⟨m, _, rfl⟩ := Option.map_eq_some_iff.mp h
      refine hMailing.move hMailing.mailbox (by simp)
        (History.handed_other (fun e hView => ?_) b.inlet) Iff.rfl
      cases hView
      cases hLocal
  · cases h

theorem Mailing.write (hMailing : Mailing past l pingMessage b)
    (h : l.step? .write = some l') : Mailing (past ++ [(l, .write)]) l' pingMessage b := by
  obtain ⟨⟨m, t⟩, hWrite, rfl⟩ := Option.map_eq_some_iff.mp h
  have hView : ∀ e, l.view .write ≠ some (.receive e) := fun e => Transport.write?_quiet hWrite
  exact hMailing.move (Transport.write?_mailbox hWrite hMailing.mailbox) nofun
    (History.handed_other hView b.inlet) Iff.rfl

theorem Execution.mailing {host : Host} {registry : Registry M S} {callTimeout : Option Duration}
    {capacity inbound : Nat}
    (run : Execution (new host registry callTimeout capacity (.webSocket (.new inbound pingMessage)))
      past l) : ∃ b, Mailing past l pingMessage b := by
  induction run with
  | refl => exact ⟨_, mailing_new⟩
  | @step past l l' x prior last ih =>
      obtain ⟨b, hMailing⟩ := ih
      obtain ⟨_, alone⟩ := prior.reaches
      cases x with
      | act a => exact ⟨b, hMailing.act last⟩
      | read => exact hMailing.read alone.isEnded_of_stopped last
      | consume => exact hMailing.consume last
      | write => exact ⟨b, hMailing.write last⟩
      | outside event => exact hMailing.outside last

/-- Harmless messages stop nobody. -/
theorem Mailing.interrupted_of_stopped (hMailing : Mailing past l pingMessage b) (hOpen : past.Open)
    (hHarmless : ∀ y ∈ past.messages, y.isHarmless = true) (hStopped : b.inlet.reader = .stopped) :
    past.Interrupted := by
  obtain hCut | ⟨seen, _, _, ⟨hOver, _⟩ | ⟨y, hHarm, hSplit⟩⟩ := hMailing.stopped hStopped
  · exact hCut
  · exact absurd hOpen (hMailing.ended.mp hOver)
  · rw [hHarmless y (hSplit ▸ List.mem_append_right _ List.mem_cons_self)] at hHarm
    cases hHarm

/-- When neither the reader nor the session can move on and the session has not ended, the reader waits for
more messages. -/
theorem Mailing.idle (hMailing : Mailing past l pingMessage b) (hLive : l.isEnded = false)
    (hConsuming : l.session.consuming = true) (hRead : l.step? .read = none)
    (hConsume : l.step? .consume = none) : b.inlet.reader = .reading ∧ b.inlet.queued = [] ∧
      b.incoming = [] ∧ b.incomingEnded = false := by
  obtain ⟨w, hSocket, rfl⟩ := Transport.eq_webSocket hMailing.mailbox
  have hRead := Option.map_eq_none_iff.mp hRead
  have hConsume := Option.map_eq_none_iff.mp hConsume
  rw [hSocket] at hRead hConsume
  obtain ⟨hQueued, hGoing⟩ :=
    Link.WebSocket.consume?_eq_none (Option.map_eq_none_iff.mp hConsume) hConsuming hLive
  obtain ⟨hReader, hRest⟩ :=
    Link.WebSocket.read?_eq_none (Option.map_eq_none_iff.mp hRead) hConsuming hLive hQueued hGoing
  exact ⟨hReader, hQueued, hRest⟩

/-- All messages were looked at then, and the envelopes in them were handled. -/
theorem Mailing.at_rest (hMailing : Mailing past l pingMessage b) (hLive : l.isEnded = false)
    (hConsuming : l.session.consuming = true) (hRead : l.step? .read = none)
    (hConsume : l.step? .consume = none) : l.transport.unlooked = [] ∧
      past.session.heard = past.messages.filterMap Link.SocketMessage.envelope? := by
  obtain ⟨hReader, hQueued, hIncoming, _⟩ := hMailing.idle hLive hConsuming hRead hConsume
  obtain ⟨seen, hSeen, _, hAll⟩ := hMailing.going (by simp [hReader])
  rw [History.handed, Link.Inlet.waiting_of_reading hReader, hQueued, List.append_nil] at hAll
  rw [hIncoming, List.append_nil] at hSeen
  rw [Transport.unlooked_of_mailbox hMailing.mailbox, hSeen]
  exact ⟨hIncoming, hAll⟩

end Linked

end PeerLink
