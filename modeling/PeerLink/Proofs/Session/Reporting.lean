import PeerLink.Proofs.HandlerError
import PeerLink.Proofs.Session.Answering
import PeerLink.Proofs.Session.Speaking
import PeerLink.Proofs.Wire.Limits

/-! The errors that a session reports. There are three reasons for an error response: no handler has the
name that was asked for, the handler of a call failed, or that of a stream did. Whichever it is, the error
has a name and a message, so reading the packet that is written for it finds the same error. -/
namespace PeerLink

variable {M S : Type}

/-- Reading undoes writing for the error, whatever the id of the response is. A packet is written unless
the error takes more bytes than fit into one. -/
structure RemoteError.Survives (e : RemoteError) : Prop where
  written : ∀ id, (∃ packet, Wire.encode (.response ⟨id, .error e⟩) = .ok packet) ↔
    (Text.Utf8.encode e.toJson).length ≤ Wire.maxBody
  read : ∀ id packet, Wire.encode (.response ⟨id, .error e⟩) = .ok packet →
    Wire.decode packet = .ok (.response ⟨id, .error e⟩)

theorem RemoteError.IsComplete.survives {e : RemoteError} (h : e.IsComplete) : e.Survives where
  written id := by
    constructor
    · rintro ⟨packet, hPacket⟩
      obtain ⟨bytes, hBody, hFits, _⟩ := Wire.body_of_encode hPacket
      have hBytes : Text.Utf8.encode e.toJson = bytes := Except.ok.inj hBody
      rwa [hBytes]
    · exact fun hFits => ⟨_, Wire.encode_of_body rfl hFits⟩
  read id packet hPacket := by
    obtain ⟨bytes, hBody, hFits, rfl⟩ := Wire.body_of_encode hPacket
    rw [Wire.decode_build hBody hFits, Wire.delivered_of_complete]
    intro id' error hSame
    cases hSame
    exact h

/-- The error for a request that no handler serves. -/
def Registry.notFound? (registry : Registry M S) (r : Request) : Option RemoteError :=
  if r.isStream then
    match registry.stream? r.method with
    | some _ => none
    | none => some (.streamNotFound r.method)
  else
    match registry.method? r.method with
    | some _ => none
    | none => some (.methodNotFound r.method)

theorem Registry.notFound?_isComplete {registry : Registry M S} {r : Request} {e : RemoteError}
    (h : registry.notFound? r = some e) : e.IsComplete := by
  unfold notFound? at h
  split at h
  · split at h
    · cases h
    · cases h
      exact RemoteError.new_isComplete _ _
  · split at h
    · cases h
    · cases h
      exact RemoteError.new_isComplete _ _

namespace Machine

variable {m m' : Machine M S} {a : Action} {past : History M S} {s : Session M S}

/-- Why a session that has heard the envelopes says that there was an error. -/
inductive ErrorCause (heard : List Envelope) (s : Session M S) : Sender → Int32 → RemoteError → Prop
  where
  | notFound (k : RefusalId) (r : Request) {error : RemoteError} (asked : .request r ∈ heard)
      (missing : s.registry.notFound? r = some error) : ErrorCause heard s (.refusal k) r.id error
  | call {r : RunId} {x : Run M} {e : HandlerError} (found : s.runs[r]? = some x)
      (failed : x.result = some (.error e)) : ErrorCause heard s (.run r) x.id e.toRemote
  | stream {i : ServedStreamId} {x : ServedStream S} {f : Failure}
      (found : s.servedStreams[i]? = some x) (failed : x.result = some (.error f)) :
      ErrorCause heard s (.completion i) x.id f.toRemote

theorem ErrorCause.isComplete {heard : List Envelope} {x : Sender} {id : Int32} {error : RemoteError}
    (h : ErrorCause heard s x id error) : error.IsComplete := by
  cases h with
  | notFound _ _ _ missing => exact Registry.notFound?_isComplete missing
  | call => exact HandlerError.toRemote_isComplete _
  | stream => exact Failure.toRemote_isComplete _

theorem ErrorCause.grow {heard heard' : List Envelope} {s' : Session M S} {x : Sender} {id : Int32}
    {error : RemoteError} (h : ErrorCause heard s x id error) (hHeard : heard ⊆ heard')
    (hGrows : s.Grows s') : ErrorCause heard' s' x id error := by
  cases h with
  | notFound k r asked missing =>
      exact .notFound k r (hHeard asked) (by rw [hGrows.registry, missing])
  | call found failed =>
      obtain ⟨y, hy, hKeeps⟩ := hGrows.runs _ _ found
      rw [← hKeeps.id]
      exact .call hy (hKeeps.result _ failed)
  | stream found failed =>
      obtain ⟨y, hy, hKeeps⟩ := hGrows.servedStreams _ _ found
      rw [← hKeeps.id]
      exact .stream hy (hKeeps.result _ failed)

/-- The refusal answers a request that was heard and that no handler serves. -/
def Refusal.Due (heard : List Envelope) (registry : Registry M S) (x : Refusal) : Prop :=
  ∃ r error, .request r ∈ heard ∧ registry.notFound? r = some error ∧
    x.response = ⟨r.id, .error error⟩

theorem handle_refusal (m : Machine M S) (r : Request) {x : Refusal}
    (hx : x ∈ (m.handle (.request r)).session.refusals) :
    (∃ y ∈ m.session.refusals, y.response = x.response) ∨
      Refusal.Due [.request r] m.session.registry x := by
  rw [handle] at hx
  split at hx
  · next hStream =>
      obtain ⟨i, _, he⟩ | ⟨_, hNone, he⟩ | ⟨method, _, _, he⟩ := handleStream_cases m r
      · rw [he] at hx
        exact .inl ⟨x, hx, rfl⟩
      · rw [he] at hx
        rcases List.mem_append.mp hx with hOld | hNew
        · exact .inl ⟨x, hOld, rfl⟩
        · have hMissing : m.session.registry.notFound? r = some (.streamNotFound r.method) := by
            rw [Registry.notFound?, if_pos hStream, hNone]
          cases List.mem_singleton.mp hNew
          exact .inr ⟨r, _, List.mem_singleton.mpr rfl, hMissing, rfl⟩
      · rw [he] at hx
        exact .inl ⟨x, hx, rfl⟩
  · next hCall =>
      obtain ⟨hNone, he⟩ | ⟨method, _, he⟩ := handleCall_cases m r
      · rw [he] at hx
        rcases List.mem_append.mp hx with hOld | hNew
        · exact .inl ⟨x, hOld, rfl⟩
        · have hMissing : m.session.registry.notFound? r = some (.methodNotFound r.method) := by
            rw [Registry.notFound?, if_neg hCall, hNone]
          cases List.mem_singleton.mp hNew
          exact .inr ⟨r, _, List.mem_singleton.mpr rfl, hMissing, rfl⟩
      · rw [he] at hx
        exact .inl ⟨x, hx, rfl⟩

/-- A refusal is noted for a request that no handler serves, and for no other reason. -/
theorem step?_refusal (h : m.step? a = some m') {x : Refusal} (hx : x ∈ m'.session.refusals) :
    (∃ y ∈ m.session.refusals, y.response = x.response) ∨
      Refusal.Due (History.heard [(m, a)]) m.session.registry x := by
  have hSame : m'.session.refusals = m.session.refusals →
      (∃ y ∈ m.session.refusals, y.response = x.response) ∨
        Refusal.Due (History.heard [(m, a)]) m.session.registry x :=
    fun hSame => .inl ⟨x, hSame ▸ hx, rfl⟩
  cases step?_answers h with
  | kept _ _ refusals => exact hSame refusals
  | started _ _ _ _ _ refusals => exact hSame refusals
  | returned _ _ _ _ _ _ _ refusals => exact hSame refusals
  | sent k response _ _ _ refusals =>
      rw [refusals] at hx
      obtain hOld | ⟨y, hy, rfl⟩ := mem_modify hx
      · exact .inl ⟨x, hOld, rfl⟩
      · exact .inl ⟨y, List.mem_of_getElem? hy, rfl⟩
  | refused r response cause runs refusals =>
      subst cause
      obtain ⟨_, _, rfl⟩ := receive?_eq_some h
      exact handle_refusal m r hx

theorem Life.refusals_due {start : Session M S} (hStart : start.refusals = [])
    (life : Life start past s) :
    ∀ x ∈ s.refusals, Refusal.Due (History.heard past) s.registry x := by
  induction life with
  | refl =>
      intro x hx
      rw [hStart] at hx
      cases hx
  | @step past s host a m' prior last ih =>
      have hRegistry := (step?_grows last).registry
      intro x hx
      rw [hRegistry, History.heard_append]
      obtain ⟨y, hy, hSame⟩ | ⟨r, error, hAsked, hMissing, hResponse⟩ := step?_refusal last hx
      · obtain ⟨r, error, hAsked, hMissing, hResponse⟩ := ih y hy
        exact ⟨r, error, List.mem_append_left _ hAsked, hMissing, hSame ▸ hResponse⟩
      · exact ⟨r, error, List.mem_append_right _ hAsked, hMissing, hResponse⟩

/-- A call has the result with which its handler returned. -/
theorem step?_finishRun {r : RunId} {run : Run M} {result : Except HandlerError Payload}
    (h : m.step? (.finishRun r result) = some m') (found : m.session.runs[r]? = some run) :
    m' = m.finishRun r result ∧
      m'.session.runs[r]? = some { run with result := some result } := by
  obtain ⟨_, _, _, rfl⟩ := step?_finishRun_eq_some h
  refine ⟨rfl, ?_⟩
  rw [finishRun_runs, List.getElem?_modify, found]
  simp

/-- What begins to be said about an error has its cause. -/
theorem Says.errorCause {x : Sender} {id : Int32} {error : RemoteError}
    (cause : m.Says a x (.response ⟨id, .error error⟩)) (h : m.step? a = some m')
    (hDue : ∀ y ∈ m.session.refusals, Refusal.Due (History.heard past) m.session.registry y) :
    ErrorCause (History.heard (past ++ [(m, a)])) m'.session x id error := by
  generalize hSaid : Envelope.response ⟨id, .error error⟩ = e at cause
  cases cause with
  | refusal found unstarted =>
      obtain ⟨r, error', hAsked, hMissing, hResponse⟩ := hDue _ (List.mem_of_getElem? found)
      rw [hResponse] at hSaid
      cases hSaid
      refine .notFound _ r (History.mem_heard_of_mem hAsked _) ?_
      rw [(step?_grows h).registry, hMissing]
  | @run _ run result found running =>
      cases result with
      | ok payload => cases hSaid
      | error e =>
          cases hSaid
          obtain ⟨rfl, hFailed⟩ := step?_finishRun h found
          exact .call (x := { run with result := some (.error e) }) hFailed rfl
  | finishServed result found =>
      cases result with
      | ok _ => cases hSaid
      | error f =>
          cases hSaid
          obtain ⟨x, y, hx, _, _, hy, hResult⟩ := step?_finishServed h
          cases hx.symm.trans found
          rw [← ((step?_grows h).servedStreams.rel hx hy).id]
          exact .stream hy hResult
  | sendServed | readyServed | closeServed | call | sendClient | closeClient | bye => cases hSaid

/-- Every error response of a session has its cause. -/
theorem Life.errorCause {start : Session M S} (hStart : start.refusals = [] ∧ start.sends = [])
    (life : Life start past s) {x : Sender} {id : Int32} {error : RemoteError}
    (hSaid : (x, .response ⟨id, .error error⟩) ∈ s.said) :
    ErrorCause (History.heard past) s x id error := by
  induction life with
  | refl =>
      rw [Session.said, hStart.2] at hSaid
      cases hSaid
  | @step past s host a m' prior last ih =>
      have hHeard : History.heard past ⊆ History.heard (past ++ [(⟨host, s⟩, a)]) := fun e he =>
        History.mem_heard_of_mem he _
      obtain ⟨begun, hMore, hBegun, _⟩ := step?_flow last
      rw [hMore] at hSaid
      rcases List.mem_append.mp hSaid with hOld | hNew
      · exact (ih hOld).grow hHeard (step?_grows last)
      · obtain rfl | ⟨y, e, cause, rfl⟩ := hBegun
        · cases hNew
        · obtain ⟨rfl, rfl⟩ := Prod.mk.inj (List.mem_singleton.mp hNew)
          exact cause.errorCause last (prior.refusals_due hStart.1)

/-- A session that has heard the envelopes reports the errors of its handlers, and no others than there
were. -/
structure ReportsErrors (heard : List Envelope) (m : Machine M S) : Prop where
  /-- Each handler of a call can fail, and the peer is told what is to be seen of it. -/
  call : ∀ r run e, m.session.runs[r]? = some run → run.result = none →
    (m.step? (.finishRun r (.error e))).map (fun m' => m'.session.said) =
      some (m.session.said ++ [(.run r, .response ⟨run.id, .error e.toRemote⟩)])
  /-- So can each handler of a stream. -/
  stream : ∀ i x f, m.session.servedStreams[i]? = some x → x.result = none →
    (m.step? (.finishServed i (.error f))).map (fun m' => m'.session.said) =
      some (m.session.said ++ [(.completion i, .response ⟨x.id, .error f.toRemote⟩)])
  /-- Whatever was reported has its cause, and reading finds what was written. -/
  said : ∀ x id error, (x, .response ⟨id, .error error⟩) ∈ m.session.said →
    ErrorCause heard m.session x id error ∧ error.IsComplete ∧ error.Survives

/-- Handler errors reach the peer as they are, and never empty. -/
theorem handler_errors_reported {host : Host} {registry : Registry M S}
    {callTimeout : Option Duration} {capacity : Nat}
    (exec : Execution (Machine.new host registry callTimeout capacity) past m) :
    (∀ root notes, Failure.Seen root notes (Failure.build root notes).toRemote ∧
      (HandlerError.failed (.build root notes)).toRemote = (Failure.build root notes).toRemote) ∧
    (∀ cause, (HandlerError.responseEncoding cause).toRemote = ⟨"ResponseMarshallingFailed",
      if cause.message = "" then "unknown error" else cause.message⟩) ∧
    m.ReportsErrors (History.heard past) := by
  refine ⟨fun root notes => ⟨Failure.seen_toRemote root notes, rfl⟩,
    HandlerError.toRemote_responseEncoding, ?_⟩
  constructor
  · intro r run e found hRunning
    simp only [step?, isRunning_iff.mpr ⟨run, found, hRunning⟩, if_true, Option.map_some]
    rw [finishRun_said found]
    rfl
  · intro i x f found hServing
    simp only [step?, isServing_iff.mpr ⟨x, found, hServing⟩, if_true, Option.map_some]
    obtain ⟨_, hOk, _⟩ | hSaid := finishServed_said found (.error f)
    · cases hOk
    · rw [hSaid]
      rfl
  · intro x id error hSaid
    have hCause := exec.life.errorCause ⟨rfl, rfl⟩ hSaid
    exact ⟨hCause, hCause.isComplete, hCause.isComplete.survives⟩

/-- The handler of a call fails with an error that was told about with a text. -/
theorem handler_errors_reported_of_denied : ∃ (past : History Unit Unit) (m : Machine Unit Unit),
    Execution (Machine.new (Host.new false) ⟨[⟨"A.b", ()⟩], []⟩ none 4) past m ∧
      (.run 0, .response ⟨7, .error ⟨"HandlerFailed", "denied"⟩⟩) ∈ m.session.said ∧
      (⟨"HandlerFailed", "denied"⟩ : RemoteError).Survives := by
  let failure : Failure := .build (.message "lost") [.error ⟨"", "denied"⟩, .text "outside"]
  have hPlay : ((Machine.new (Host.new false) (⟨[⟨"A.b", ()⟩], []⟩ : Registry Unit Unit) none 4).play
      [.receive (.request { id := 7, method := "A.b", payload := .ofValue [], isStream := false }),
        .finishRun 0 (.error (.failed failure))]).map (fun r => r.2.session.said) =
      some [(.run 0, .response ⟨7, .error ⟨"HandlerFailed", "denied"⟩⟩)] := by decide +kernel
  obtain ⟨⟨past, m⟩, hRun, hSaid⟩ := Option.map_eq_some_iff.mp hPlay
  have exec := Execution.refl.play hRun
  have hMem : (.run 0, .response ⟨7, .error ⟨"HandlerFailed", "denied"⟩⟩) ∈ m.session.said := by
    rw [hSaid]
    exact List.mem_singleton.mpr rfl
  exact ⟨_, m, exec, hMem, ((handler_errors_reported exec).2.2.said _ _ _ hMem).2.2⟩

end Machine

end PeerLink
