import PeerLink.Proofs.Echo.Handling
import PeerLink.Proofs.Link.Course
import PeerLink.Proofs.Link.Lasting
import PeerLink.Proofs.Registry

/-! A connection to the echo server. `Standing` says where the server stands when it has taken the first of
some requests from its transport; every step of one of its tasks keeps this. So at any time it has taken the
first requests and nothing else, and no other lifetime was cancelled than those of calls and streams that are
over. -/
namespace PeerLink.EchoServer

variable {requests : List ((Int32 × Ask) × Bytes)} {asked : List (Int32 × Ask)}
  {past : Linked.History CallScript StreamScript} {x y : Staffed}

/-- The requests in the form in which they are sent, each with its packet. -/
def packetsOf (requests : List ((Int32 × Ask) × Bytes)) : List (Envelope × Bytes) :=
  requests.map fun r => (envelopeOf r.1, r.2)

theorem packetsOf_envelopes : (packetsOf requests).map Prod.fst = (requests.map Prod.fst).map envelopeOf := by
  rw [packetsOf, List.map_map, List.map_map]
  rfl

theorem packetsOf_packets : (packetsOf requests).map Prod.snd = requests.map Prod.snd := by
  rw [packetsOf, List.map_map]
  rfl

/-- Requests arrive as what they were sent for. -/
theorem carries_of_streamable (encoded : ∀ r ∈ requests, Wire.Streamable (envelopeOf r.1) r.2) :
    ∀ y ∈ packetsOf requests, Wire.Carries y.1 y.2 := by
  intro y hy
  obtain ⟨⟨⟨id, ask⟩, packet⟩, hMem, rfl⟩ := List.mem_map.mp hy
  refine ⟨encoded _ hMem, ?_⟩
  cases ask with
  | call m => rfl
  | message m => rfl
  | close => rfl

/-! ### New handlers -/

section Handlers

variable {s : ScriptSession} {calls : List CallTask} {streams : List StreamTask}

/-- A handler that is new changes nothing. -/
theorem Echoing.spawnCall (h : Echoing asked s calls streams) :
    Echoing asked s (calls ++ [.new calls.length]) streams := by
  have hSame : ∀ i, callProgress (calls ++ [.new calls.length]) i = callProgress calls i :=
    progressOf_concat rfl
  refine ⟨h.replying, h.attending.new_call, fun i run hRun => ?_, h.served, h.nodup, h.known, h.silent⟩
  rw [hSame]
  exact h.runs i run hRun

theorem Echoing.spawnStream (h : Echoing asked s calls streams) :
    Echoing asked s calls (streams ++ [.new streams.length]) := by
  have hSame : ∀ i, streamProgress (streams ++ [.new streams.length]) i = streamProgress streams i :=
    progressOf_concat rfl
  have hAttending : Attending calls (streams ++ [.new streams.length]) :=
    ⟨h.attending.call, h.attending.stream.concat rfl, h.attending.watchers⟩
  refine ⟨h.replying, hAttending, h.runs, fun i x hx => ?_, h.nodup, h.known, h.silent⟩
  rw [hSame]
  exact h.served i x hx

end Handlers

/-! ### Steps -/

/-- A new connection. -/
structure Connection where
  host : Host
  registry : ScriptRegistry
  callTimeout : Option Duration
  capacity : Nat
  room : Nat

/-- Its session, over a transport that has got nothing yet. -/
abbrev Connection.start (c : Connection) : Linked CallScript StreamScript :=
  .new c.host c.registry c.callTimeout c.capacity (.framed (.new c.room))

/-- Where the server stands when it has taken the first of the requests. -/
structure Standing (c : Connection) (requests asked : List (Int32 × Ask))
    (past : Linked.History CallScript StreamScript) (x : Staffed) : Prop where
  serving : Linked.Serving c.start past x.link
  first : asked <+: requests
  heard : past.session.heard = asked.map envelopeOf
  alone : ∀ y ∈ past.session, y.1.SaysAlone y.2
  echoing : Echoing asked x.link.session x.calls x.streams
  callRoom : x.calls.length ≤ x.link.session.runs.length
  streamRoom : x.streams.length ≤ x.link.session.servedStreams.length

/-- The server has gone on, and nothing has arrived or was looked at in the meantime. -/
def Goes (c : Connection) (requests : List (Int32 × Ask))
    (past : Linked.History CallScript StreamScript) (y : Staffed) : Prop :=
  ∃ asked past', Standing c requests asked past' y ∧ past'.arrived = past.arrived ∧
    past'.looked = past.looked

section Steps

variable {c : Connection} {all : List (Int32 × Ask)} {l : Linked CallScript StreamScript}
  {action : Linked.Action}

theorem goes_of_standing
    (standing : Standing c all asked (past ++ [(x.link, action)]) y)
    (inside : ∀ event, action ≠ .outside event) : Goes c all past y := by
  refine ⟨asked, _, standing, Linked.History.arrived_other fun event => inside _, ?_⟩
  rw [Linked.History.looked_append, Linked.History.looked_other (inside _), List.append_nil]

/-- A step by which the session says nothing. -/
theorem alone_append (alone : ∀ y ∈ past.session, y.1.SaysAlone y.2)
    (mute : ∀ a, x.link.view action = some a → ∀ sender e, ¬ x.link.Says a sender e) :
    ∀ y ∈ Linked.History.session (past ++ [(x.link, action)]), y.1.SaysAlone y.2 := by
  intro y hy
  rw [Linked.History.session_append] at hy
  obtain hy | hy := List.mem_append.mp hy
  · exact alone y hy
  · obtain ⟨a, hView, rfl⟩ := Option.map_eq_some_iff.mp (Option.mem_toList.mp hy)
    exact fun sender _ _ cause => absurd cause (mute a hView sender _)

/-- A step of the session or its transport in which nothing is taken and no run or stream changes. -/
theorem Standing.quiet (h : Standing c all asked past x)
    (serving : Linked.Serving c.start (past ++ [(x.link, action)]) l)
    (unheard : ∀ e, x.link.view action ≠ some (.receive e))
    (mute : ∀ a, x.link.view action = some a → ∀ sender e, ¬ x.link.Says a sender e)
    (echoing : Echoing asked l.session x.calls x.streams)
    (runs : l.session.runs.length = x.link.session.runs.length)
    (served : l.session.servedStreams.length = x.link.session.servedStreams.length) :
    Standing c all asked (past ++ [(x.link, action)]) { x with link := l } where
  serving := serving
  first := h.first
  heard := (Linked.History.heard_other unheard).trans h.heard
  alone := alone_append h.alone mute
  echoing := echoing
  callRoom := h.callRoom.trans runs.ge
  streamRoom := h.streamRoom.trans served.ge

variable (h : Standing c all asked past x)

include h

/-- Something arrives, or somebody looks at what was written. -/
theorem Standing.outside {event : Linked.Event} (calm : (∃ e, event = .source e) ∨ event = .looked)
    (step : x.link.step? (.outside event) = some l) :
    Standing c all asked (past ++ [(x.link, .outside event)]) { x with link := l } := by
  have hSession : l.session = x.link.session := by
    obtain ⟨t, _, rfl⟩ := Option.map_eq_some_iff.mp step
    rfl
  refine h.quiet (h.serving.outside calm step) nofun (fun _ hView => by cases hView) ?_ ?_ ?_
  · exact hSession ▸ h.echoing
  · rw [hSession]
  · rw [hSession]

/-- As long as the connection is open, bytes can arrive. -/
theorem Standing.can_arrive (data : Bytes) :
    ∃ l, x.link.step? (.outside (.source (.chunk data))) = some l := by
  obtain ⟨i, hIntake, hOver⟩ := h.serving.exec.sourceEnded_iff
  obtain ⟨f, hFramed, rfl⟩ := Transport.eq_framed hIntake
  have hEnded : ¬ f.sourceEnded = true := fun hEnded => hOver.mp hEnded h.serving.opened
  have hArrive : World.arriveEvent (.chunk data) x.link.transport =
      some (.framed { f with source := f.source ++ [.chunk data] }) := by
    rw [hFramed, World.arriveEvent, if_neg hEnded]
  exact ⟨_, congrArg (Option.map _) hArrive⟩

/-- The session sends: no other task of its own has anything to do. -/
theorem Standing.task {a : Machine.Action} (isTask : Staffed.IsTask a) {m : Station}
    (step : x.link.toMachine.step? a = some m) :
    Goes c all past
      { x with link := ⟨m, x.link.transport⟩ } := by
  have hReplying := h.echoing.replying
  obtain ⟨t, rfl⟩ := isTask.eq_advance step hReplying.refusals hReplying.calls hReplying.clientStreams
  have hFrame := Machine.advanceOutbound?_session step
  have hStanding : Standing c all asked (past ++ [(x.link, .act (.advance t))])
      { x with link := ⟨m, x.link.transport⟩ } := by
    refine h.quiet (h.serving.act step rfl rfl) nofun ?_ (h.echoing.advance step) ?_ ?_
    · rintro _ ⟨⟩ _ _ ⟨⟩
    · exact congrArg List.length (by rw [hFrame])
    · exact congrArg List.length (by rw [hFrame])
  exact goes_of_standing hStanding nofun

/-- The writer takes an envelope or writes a packet. -/
theorem Standing.write (step : x.link.step? .write = some l) :
    Goes c all past
      { x with link := l } := by
  obtain ⟨hServing, hSession⟩ := h.serving.write (.framed c.room) step
  obtain ⟨_, hWrite, _⟩ := Option.map_eq_some_iff.mp step
  have hUnheard : ∀ e, x.link.view .write ≠ some (.receive e) := fun _ => Transport.write?_quiet hWrite
  have hReplying := h.echoing.replying
  refine goes_of_standing (h.quiet hServing hUnheard ?_ ?_ ?_ ?_) nofun
  · intro a hView _ _ cause
    obtain hNone | hAbandons | hTakes := Transport.write?_view hWrite
    · cases hView.symm.trans hNone
    · cases hView.symm.trans hAbandons
      cases cause
    · cases hView.symm.trans hTakes
      cases cause
  · rw [hSession]
    exact h.echoing.quiet (hReplying.keep rfl hReplying.sends rfl rfl rfl) rfl rfl rfl fun _ _ => id
  · rw [hSession]
  · rw [hSession]

/-- The reader goes on. -/
theorem Standing.read (step : x.link.step? .read = some l) :
    Goes c all past
      { x with link := l } := by
  obtain ⟨hServing, hSession⟩ := h.serving.read step
  refine goes_of_standing (h.quiet hServing nofun (fun _ hView => by cases hView) ?_ ?_ ?_) nofun
  · exact hSession ▸ h.echoing
  · rw [hSession]
  · rw [hSession]

/-- The handlers do something. -/
theorem Standing.works {m : Station} (works : x.link.toMachine.Works m) {calls : List CallTask}
    {streams : List StreamTask} (echoing : Echoing asked m.session calls streams)
    (sameCalls : calls.length = x.calls.length) (sameStreams : streams.length = x.streams.length) :
    Goes c all past
      ⟨⟨m, x.link.transport⟩, calls, streams⟩ := by
  obtain ⟨past', hServing, hAlone, hHeard, hArrived, hLooked⟩ := h.serving.works works
  obtain ⟨_, exec, _⟩ := works
  have hGrows := exec.life.grows
  refine ⟨asked, past', ⟨hServing, h.first, hHeard.trans h.heard, fun y hy => ?_, echoing, ?_, ?_⟩, hArrived,
    hLooked⟩
  · exact (hAlone y hy).elim (h.alone y) id
  · exact sameCalls.le.trans (h.callRoom.trans hGrows.runs.length_le)
  · exact sameStreams.le.trans (h.streamRoom.trans hGrows.servedStreams.length_le)

theorem Standing.call {i : Nat} {t t' : CallTask} {m : Station} {stage stage' : Stage}
    (found : x.calls[i]? = some t) (step : t.step? x.link.toMachine stage = some (t', m, stage')) :
    Goes c all past
      { x with link := ⟨m, x.link.transport⟩, calls := x.calls.set i t' } := by
  obtain ⟨hEchoing, hWorks⟩ := h.echoing.stepCall found step
  exact h.works hWorks hEchoing List.length_set rfl

theorem Standing.stream {i : Nat} {t t' : StreamTask} {m : Station} {stage stage' : Stage}
    (found : x.streams[i]? = some t) (step : t.step? x.link.toMachine stage = some (t', m, stage')) :
    Goes c all past
      { x with link := ⟨m, x.link.transport⟩, streams := x.streams.set i t' } := by
  have hExact := h.serving.exact
  have hGone : ∀ z, x.link.session.servedStreams[i]? = some z → z.inboxClosed = true →
      x.link.session.openStreams.get? z.id ≠ some i := by
    intro z hz hClosed hEntry
    obtain ⟨_, hOpen⟩ := hExact.here i z hz hEntry
    rw [hClosed] at hOpen
    cases hOpen
  obtain ⟨hEchoing, hWorks⟩ := h.echoing.stepStream found (h.serving.not_refused (.framed c.room))
    (fun z hz hOpen => h.serving.spares.not_cancelled h.serving.rooted hz hOpen) hGone step
  exact h.works hWorks hEchoing rfl List.length_set

/-- The session takes the next request. -/
theorem Standing.consume {packets : List (Envelope × Bytes)}
    (envelopes : packets.map Prod.fst = all.map envelopeOf)
    (carries : ∀ y ∈ packets, Wire.Carries y.1 y.2) (disciplined : Disciplined all)
    (fed : past.Fed packets (.framed (.new c.room))) (step : x.link.step? .consume = some l) :
    Goes c all past
      { x with link := l } := by
  have hBefore := h.serving.exec.inbound (.framed c.room) carries h.serving.opened fed
  have hGoing : x.link.transport.isExhausted = false := by
    by_contra hOver
    have hEnded := hBefore.exhausted (eq_true_of_ne_false hOver)
    rw [h.serving.not_ended] at hEnded
    cases hEnded
  obtain ⟨e, hView, hReceive, hServing⟩ := h.serving.consume hGoing step
  have hFed : Linked.History.Fed (past ++ [(x.link, .consume)]) packets (.framed (.new c.room)) := by
    rw [Linked.History.Fed, Linked.History.arrived_other (x := .consume) (by simp)]
    exact fed
  have hAfter := hServing.exec.inbound (.framed c.room) carries hServing.opened hFed
  have hHeard : (Linked.History.session (past ++ [(x.link, .consume)])).heard =
      asked.map envelopeOf ++ [e] := by
    rw [Linked.History.heard_receive hView, h.heard]
  -- What it takes is the first of the requests that it has not taken yet.
  obtain ⟨rest, rfl⟩ := h.first
  have hNext : asked.map envelopeOf ++ [e] <+: (asked ++ rest).map envelopeOf := by
    rw [← envelopes, ← hHeard]
    exact hAfter.heard.trans (Wire.whole_first packets _)
  rw [List.map_append, List.prefix_append_right_inj] at hNext
  obtain ⟨⟨id, ask⟩, rest, rfl⟩ : ∃ r later, rest = r :: later := by
    cases rest with
    | nil => cases List.prefix_nil.mp hNext
    | cons r later => exact ⟨r, later, rfl⟩
  rw [List.map_cons] at hNext
  obtain ⟨rfl, _⟩ := List.cons_prefix_cons.mp hNext
  have hAll : asked ++ (id, ask) :: rest = asked ++ [(id, ask)] ++ rest := List.append_cons _ _ _
  rw [hAll] at disciplined ⊢
  have hGrows := Machine.step?_grows (a := .receive (envelopeOf (id, ask))) hReceive
  have hStanding : Standing c (asked ++ [(id, ask)] ++ rest) (asked ++ [(id, ask)])
      (past ++ [(x.link, .consume)]) { x with link := l } := by
    refine ⟨hServing, List.prefix_append _ _, ?_, alone_append h.alone ?_, ?_, ?_, ?_⟩
    · rw [hHeard, List.map_append, List.map_singleton]
    · rw [hView]
      rintro _ ⟨⟩ _ _ ⟨⟩
    · exact h.echoing.hear disciplined.before h.serving.exact h.callRoom h.streamRoom hReceive
    · exact h.callRoom.trans hGrows.runs.length_le
    · exact h.streamRoom.trans hGrows.servedStreams.length_le
  exact goes_of_standing hStanding (by simp)

/-- What was started gets its handler. -/
theorem Standing.spawnCall (room : x.calls.length < x.link.session.runs.length) :
    Goes c all past { x with calls := x.calls ++ [.new x.calls.length] } := by
  refine ⟨asked, past, ⟨h.serving, h.first, h.heard, h.alone, h.echoing.spawnCall, ?_, h.streamRoom⟩, rfl, rfl⟩
  rw [List.length_append]
  exact room

theorem Standing.spawnStream (room : x.streams.length < x.link.session.servedStreams.length) :
    Goes c all past { x with streams := x.streams ++ [.new x.streams.length] } := by
  refine ⟨asked, past, ⟨h.serving, h.first, h.heard, h.alone, h.echoing.spawnStream, h.callRoom, ?_⟩, rfl, rfl⟩
  rw [List.length_append]
  exact room

/-- Nobody watches a handler. -/
theorem Standing.watch_none {i : Nat} {t : CallTask} {stage : Stage} (found : x.calls[i]? = some t) :
    t.watch? x.link.toMachine stage = none := by
  have hWatchers := h.echoing.attending.watchers t (List.mem_of_getElem? found)
  unfold CallTask.watch?
  split
  · rfl
  · rw [if_neg fun hWatch => hWatch.1 hWatchers]

/-- Every step of a task keeps where the server stands. -/
theorem Standing.step {packets : List (Envelope × Bytes)}
    (envelopes : packets.map Prod.fst = all.map envelopeOf)
    (carries : ∀ y ∈ packets, Wire.Carries y.1 y.2) (disciplined : Disciplined all)
    (fed : past.Fed packets (.framed (.new c.room))) (step : x.Step y) : Goes c all past y := by
  cases step with
  | task a isTask m step => exact h.task isTask step
  | read l step => exact h.read step
  | consume l step => exact h.consume envelopes carries disciplined fed step
  | write l step => exact h.write step
  | spawnCall room => exact h.spawnCall room
  | spawnStream room => exact h.spawnStream room
  | call i t t' m stage stage' found step => exact h.call found step
  | stream i t t' m stage stage' found step => exact h.stream found step
  | watch i t t' stage stage' found step =>
      rw [h.watch_none found] at step
      cases step

end Steps

/-! ### The start -/

/-- What the echo server serves. -/
def served : ScriptRegistry :=
  .ofServices [echoService]

theorem served_method : ∃ method, served.method? "Echo.Call" = some method ∧
    method.handler = callScript := by
  have hHandler : (served.method? "Echo.Call").map Method.handler = some callScript := by
    decide
  exact Option.map_eq_some_iff.mp hHandler

theorem served_stream : ∃ stream, served.stream? "Echo.Stream" = some stream ∧
    stream.handler = streamScript := by
  have hHandler : (served.stream? "Echo.Stream").map StreamMethod.handler = some streamScript := by
    decide
  exact Option.map_eq_some_iff.mp hHandler

/-- In a new session nobody was asked for anything. -/
theorem echoing_new {registry : ScriptRegistry} {callTimeout : Option Duration} {capacity : Nat}
    {lifetime : LifetimeId}
    (method : ∃ method, registry.method? "Echo.Call" = some method ∧ method.handler = callScript)
    (stream : ∃ stream, registry.stream? "Echo.Stream" = some stream ∧ stream.handler = streamScript) :
    Echoing [] (Session.new registry callTimeout capacity lifetime) [] [] where
  replying :=
    { method, stream, sends := by simp [Session.new], refusals := rfl, calls := rfl, clientStreams := rfl }
  attending := { call := by simp [InPlace], stream := by simp [InPlace], watchers := by simp }
  runs i run hRun := by simp [Session.new] at hRun
  served i x hx := by simp [Session.new] at hx
  nodup := List.nodup_nil
  known id hId := absurd rfl hId
  silent id _ := rfl

/-- A new connection of the server, with the options in this configuration. -/
def connected (config : Config) : Connection where
  host := .new false
  registry := served
  callTimeout := config.callDuration
  capacity := config.channelCapacity
  room := config.channelCapacity

theorem standing_new (config : Config) (all : List (Int32 × Ask)) :
    Standing (connected config) all [] [] ⟨(connected config).start, [], []⟩ where
  serving := Linked.serving_new (fun _ => rfl) (.framed _)
  first := List.nil_prefix
  heard := rfl
  alone _ hy := absurd hy List.not_mem_nil
  echoing := echoing_new served_method served_stream
  callRoom := Nat.le_refl 0
  streamRoom := Nat.le_refl 0

theorem connection?_eq_some {server : EchoServer} {w : World} (h : server.connection? = some w) :
    w.IsAlone ∧ w.staffed = ⟨(connected server.config).start, [], []⟩ := by
  obtain ⟨v, hAlone, hStaffed, hJournal, rfl⟩ : ∃ v : World, v.IsAlone ∧
      v.staffed = ⟨(connected server.config).start, [], []⟩ ∧ v.host.journal = [] ∧
      w = v.settle.setHost fun h => { h with journal := [] } := by
    unfold connection? World.ofSetup? at h
    split at h
    · cases h
    · cases h
      refine ⟨_, ⟨rfl, rfl⟩, ?_, rfl, rfl⟩
      rw [connected, Connection.start, served, ← Registry.registry_peer [echoService] server.config .none]
      rfl
  have hSettled := World.settle_of_step?_eq_none (hAlone.step?_eq_none (fun y => by
    have hNone : ∀ k, (connected server.config).host.lifetimes.isFlagged k = false := fun _ => rfl
    obtain ⟨hRead, hConsume, hWrite⟩ := Linked.new_at_rest hNone (connected server.config).room
    rw [hStaffed]
    exact World.not_step_of_unused (fun _ => rfl) hRead hConsume hWrite rfl rfl rfl rfl rfl)
    (congrArg (fun x => x.link.session.outbound.waiting) hStaffed))
  have hSame : (v.setHost fun h => { h with journal := [] }) = v := by
    rw [World.setHost, ← hJournal]
  rw [hSettled, hSame]
  exact ⟨hAlone, hStaffed⟩

/-! ### What becomes of a connection -/

theorem sourceBytes_chunks (pieces : List Bytes) :
    Wire.sourceBytes (pieces.map .chunk) = pieces.flatten := by
  rw [Wire.sourceBytes, List.flatMap_map]
  exact List.flatMap_id

theorem failures_chunks (pieces : List Bytes) :
    (pieces.map Wire.SourceEvent.chunk).filterMap Wire.SourceEvent.failure? = [] := by
  rw [List.filterMap_map]
  exact List.filterMap_eq_nil_iff.mpr fun _ _ => rfl

section Course

variable {server : EchoServer} {start w : World} {arrived : List Bytes} {seen : List Link.Written}
  (connection : server.connection? = some start)
  (encoded : ∀ r ∈ requests, Wire.Streamable (envelopeOf r.1) r.2)
  (disciplined : Disciplined (requests.map Prod.fst))
  (course : World.Course start arrived seen w)
  (bytes : arrived.flatten <+: (requests.map Prod.snd).flatten)

include connection encoded disciplined course bytes

/-- At any time the server has taken the first of the requests and answered the first part of them. -/
theorem standing_of_course : ∃ asked past, w.IsAlone ∧
    Standing (connected server.config) (requests.map Prod.fst) asked past w.staffed ∧
    past.arrived = arrived.map .chunk ∧ past.looked = seen := by
  induction course with
  | start =>
      obtain ⟨hAlone, hStaffed⟩ := connection?_eq_some connection
      refine ⟨[], [], hAlone, ?_, rfl, rfl⟩
      rw [hStaffed]
      exact standing_new _ _
  | @task arrived seen w w' _ step ih =>
      obtain ⟨asked, past, hAlone, hStanding, hArrived, hLooked⟩ := ih bytes
      obtain ⟨hAlone', hStep | ⟨hSame, _⟩⟩ := hAlone.step step
      · have hFed : past.Fed (packetsOf requests) (.framed (.new (connected server.config).room)) := by
          rw [Linked.History.Fed, hArrived, sourceBytes_chunks, packetsOf_packets]
          exact ⟨failures_chunks arrived, bytes⟩
        obtain ⟨asked', past', hStanding', hArrived', hLooked'⟩ :=
          hStanding.step packetsOf_envelopes (carries_of_streamable encoded) disciplined hFed hStep
        exact ⟨asked', past', hAlone', hStanding', hArrived'.trans hArrived, hLooked'.trans hLooked⟩
      · exact ⟨asked, past, hAlone', hSame ▸ hStanding, hArrived, hLooked⟩
  | @arrive arrived seen w _ data ih =>
      have hBefore : arrived.flatten <+: (requests.map Prod.snd).flatten := by
        refine List.IsPrefix.trans ?_ bytes
        rw [List.flatten_append]
        exact List.prefix_append _ _
      obtain ⟨asked, past, hAlone, hStanding, hArrived, hLooked⟩ := ih hBefore
      obtain ⟨l, hStep⟩ := hStanding.can_arrive data
      refine ⟨asked, past ++ [(w.staffed.link, .outside (.source (.chunk data)))],
        hAlone.receiveBytes data, ?_, ?_, ?_⟩
      · rw [World.staffed_receiveBytes hStep]
        exact hStanding.outside (.inl ⟨_, rfl⟩) hStep
      · rw [Linked.History.arrived_append, hArrived, List.map_append]
        rfl
      · rw [Linked.History.looked_append, hLooked]
        exact List.append_nil _
  | @look arrived seen w _ ih =>
      obtain ⟨asked, past, hAlone, hStanding, hArrived, hLooked⟩ := ih bytes
      refine ⟨asked, past ++ [(w.staffed.link, .outside .looked)], ⟨hAlone.session, hAlone.wire⟩,
        hStanding.outside (.inr rfl) rfl, ?_, ?_⟩
      · rw [Linked.History.arrived_append, hArrived]
        exact List.append_nil _
      · rw [Linked.History.looked_append, hLooked]
        rw [Linked.History.looked, List.flatMap_singleton]
        rfl
  | @report arrived seen w _ ih =>
      obtain ⟨asked, past, hAlone, hStanding, hArrived, hLooked⟩ := ih bytes
      exact ⟨asked, past, ⟨hAlone.session, hAlone.wire⟩, hStanding, hArrived, hLooked⟩

end Course

end PeerLink.EchoServer
