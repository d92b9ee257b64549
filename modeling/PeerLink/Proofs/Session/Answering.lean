import PeerLink.Proofs.Session.Correspondence
import PeerLink.Proofs.Session.Shared

/-! The answers to the calls of the remote peer. Ids are of no help here: the remote peer may use one for
any number of calls and for a stream besides, all at the same time. What answers a call is therefore
named by its number: the run that was started for the call, or the refusal. Each has exactly one answer to
give, and the answers of a session are in step with the returns of its handlers. -/
namespace PeerLink

variable {M S : Type}

/-- Everything that was sent on behalf of a sender, in order. -/
def Session.saidBy (s : Session M S) (x : Sender) : List Envelope :=
  s.said.filterMap fun y => if y.1 = x then some y.2 else none

/-- The one response that a run or a refusal sends, once it is due. -/
def Session.verdict? (s : Session M S) : Sender → Option Envelope
  | .run r =>
    s.runs[r]?.bind fun x => x.result.map fun result => .response ⟨x.id, Machine.answer result⟩
  | .refusal k =>
    s.refusals[k]?.bind fun x => if x.started then some (.response x.response) else none
  | _ => none

/-- The sender answers calls. -/
def Sender.answers : Sender → Bool
  | .run _ => true
  | .refusal _ => true
  | _ => false

namespace Machine

/-- Who answers a call by this action. -/
def Action.answerer? : Action → Option Sender
  | .finishRun r _ => some (.run r)
  | .startRefusal k => some (.refusal k)
  | _ => none

/-- What the handler of a run has returned. -/
def History.returns (past : History M S) (r : RunId) : List (Except HandlerError Payload) :=
  past.filterMap fun x => match x.2 with
    | .finishRun j result => if j = r then some result else none
    | _ => none

variable {m m' : Machine M S} {a : Action} {past : History M S}

/-- What one action does to the runs and refusals of a session. -/
inductive AnswerStep (m m' : Machine M S) (a : Action) : Prop where
  | kept (silent : a.answerer? = none) (runs : m'.session.runs = m.session.runs)
      (refusals : m'.session.refusals = m.session.refusals)
  | started (r : Request) (x : Run M) (cause : a = .receive (.request r)) (running : x.result = none)
      (runs : m'.session.runs = m.session.runs ++ [x])
      (refusals : m'.session.refusals = m.session.refusals)
  | refused (r : Request) (response : Response) (cause : a = .receive (.request r))
      (runs : m'.session.runs = m.session.runs)
      (refusals : m'.session.refusals = m.session.refusals ++ [⟨response, false⟩])
  | returned (r : RunId) (x : Run M) (result : Except HandlerError Payload)
      (cause : a = .finishRun r result) (found : m.session.runs[r]? = some x)
      (running : x.result = none)
      (runs : m'.session.runs = m.session.runs.modify r fun x => { x with result := some result })
      (refusals : m'.session.refusals = m.session.refusals)
  | sent (k : RefusalId) (response : Response) (cause : a = .startRefusal k)
      (found : m.session.refusals[k]? = some ⟨response, false⟩)
      (runs : m'.session.runs = m.session.runs)
      (refusals : m'.session.refusals =
        m.session.refusals.modify k fun x => { x with started := true })

theorem handleCall_answers (m : Machine M S) (r : Request) :
    m.AnswerStep (m.handleCall r) (.receive (.request r)) := by
  obtain ⟨_, he⟩ | ⟨method, _, he⟩ := handleCall_cases m r
  · rw [he]
    exact .refused r _ rfl rfl rfl
  · rw [he]
    exact .started r _ rfl rfl rfl rfl

theorem handleStream_answers (m : Machine M S) (r : Request) :
    m.AnswerStep (m.handleStream r) (.receive (.request r)) := by
  obtain ⟨_, _, he⟩ | ⟨_, _, he⟩ | ⟨_, _, _, he⟩ := handleStream_cases m r
  · rw [he]
    exact .kept rfl rfl rfl
  · rw [he]
    exact .refused r _ rfl rfl rfl
  · rw [he]
    exact .kept rfl rfl rfl

theorem step?_answers (h : m.step? a = some m') : m.AnswerStep m' a := by
  cases a with
  | finishRun r result =>
      obtain ⟨x, hx, hRunning, rfl⟩ := step?_finishRun_eq_some h
      refine .returned r x result rfl hx hRunning (finishRun_runs m r result) ?_
      rw [finishRun_session hx]
      rfl
  | startRefusal k =>
      obtain ⟨response, hx, rfl⟩ := startRefusal?_eq_some h
      exact .sent k response rfl hx rfl rfl
  | receive e =>
      obtain ⟨_, _, rfl⟩ := receive?_eq_some h
      cases e with
      | request r =>
          simp only [handle]
          split
          · exact handleStream_answers m r
          · exact handleCall_answers m r
      | _ =>
          refine .kept rfl ?_ ?_ <;>
            · rw [handle_session]
              rfl
  | _ =>
      refine .kept rfl ?_ ?_ <;>
        · rw [step?_frame h]
          rfl

/-! ### One answer each -/

/-- Only the return of its handler speaks for a run, and only its start for a refusal. -/
theorem Says.answerer? {x : Sender} {e : Envelope} (cause : m.Says a x e) (hx : x.answers = true) :
    a.answerer? = some x := by
  cases cause <;> first | rfl | cases hx

theorem saidBy_concat {s s' : Session M S} {x y : Sender} {e : Envelope}
    (h : s'.said = s.said ++ [(y, e)]) :
    s'.saidBy x = s.saidBy x ++ if y = x then [e] else [] := by
  rw [Session.saidBy, h, List.filterMap_append, ← Session.saidBy]
  by_cases hy : y = x <;> simp [hy]

/-- An action that does not speak for `x` leaves alone what `x` has said. -/
theorem step?_saidBy (h : m.step? a = some m') {x : Sender} (hx : x.answers = true)
    (hOther : a.answerer? ≠ some x) : m'.session.saidBy x = m.session.saidBy x := by
  obtain ⟨begun, hSaid, rfl | ⟨y, e, cause, rfl⟩, _⟩ := step?_flow h
  · rw [List.append_nil] at hSaid
    rw [Session.saidBy, hSaid, Session.saidBy]
  · have hne : y ≠ x := by
      rintro rfl
      exact hOther (cause.answerer? hx)
    rw [saidBy_concat hSaid, if_neg hne, List.append_nil]

/-- An action that does not speak for `x` leaves alone what `x` is to say. -/
theorem step?_verdict (h : m.step? a = some m') {x : Sender} (hOther : a.answerer? ≠ some x) :
    m'.session.verdict? x = m.session.verdict? x := by
  cases step?_answers h with
  | kept _ runs refusals => cases x <;> simp only [Session.verdict?, runs, refusals]
  | started r run cause running runs refusals =>
      cases x with
      | run j =>
          simp only [Session.verdict?, runs, bind_append_singleton, running]
          split
          · next hj => simp [hj]
          · rfl
      | _ => simp only [Session.verdict?, refusals]
  | refused r response cause runs refusals =>
      cases x with
      | refusal j =>
          simp only [Session.verdict?, refusals, bind_append_singleton]
          split
          · next hj => simp [hj]
          · rfl
      | _ => simp only [Session.verdict?, runs]
  | returned r run result cause found running runs refusals =>
      cases x with
      | run j =>
          have hj : j ≠ r := by
            rintro rfl
            exact hOther (by rw [cause]; rfl)
          simp only [Session.verdict?, runs, bind_modify, if_neg hj]
      | _ => simp only [Session.verdict?, refusals]
  | sent k response cause found runs refusals =>
      cases x with
      | refusal j =>
          have hj : j ≠ k := by
            rintro rfl
            exact hOther (by rw [cause]; rfl)
          simp only [Session.verdict?, refusals, bind_modify, if_neg hj]
      | _ => simp only [Session.verdict?, runs]

theorem finishRun_said {r : RunId} {x : Run M} (h : m.session.runs[r]? = some x)
    (result : Except HandlerError Payload) : (m.finishRun r result).session.said =
      m.session.said ++ [(.run r, .response ⟨x.id, answer result⟩)] := by
  rw [finishRun_session h]
  exact said_beginSend _ _ _

/-- An action that speaks for `x` says what `x` is to say, which was not due before. -/
theorem step?_saidBy_answerer (h : m.step? a = some m') {x : Sender} (ha : a.answerer? = some x) :
    m.session.verdict? x = none ∧
      ∃ e, m'.session.verdict? x = some e ∧ m'.session.saidBy x = m.session.saidBy x ++ [e] := by
  cases a with
  | finishRun r result =>
      cases ha
      obtain ⟨run, hRun, hRunning, rfl⟩ := step?_finishRun_eq_some h
      refine ⟨by simp [Session.verdict?, hRun, hRunning],
        .response ⟨run.id, answer result⟩, ?_, ?_⟩
      · simp [Session.verdict?, finishRun_runs, hRun]
      · rw [saidBy_concat (finishRun_said hRun result), if_pos rfl]
  | startRefusal k =>
      cases ha
      obtain ⟨response, hRefusal, rfl⟩ := startRefusal?_eq_some h
      refine ⟨by simp [Session.verdict?, hRefusal], .response response, ?_, ?_⟩
      · simp [Session.verdict?, Session.beginSend, hRefusal]
      · exact (saidBy_concat (said_beginSend _ _ _)).trans (by rw [if_pos rfl]; rfl)
  | _ => cases ha

/-- What was sent to answer a call is what there was to send, and it was sent once. -/
theorem Life.saidBy {start s : Session M S}
    (hStart : ∀ x, start.saidBy x = [] ∧ start.verdict? x = none) (life : Life start past s)
    {x : Sender} (hx : x.answers = true) : s.saidBy x = (s.verdict? x).toList := by
  induction life with
  | refl => rw [(hStart x).1, (hStart x).2]; rfl
  | @step past s host a m' prior last ih =>
      by_cases ha : a.answerer? = some x
      · obtain ⟨hNone, e, hSome, hSaid⟩ := step?_saidBy_answerer last ha
        rw [hSaid, ih, hNone, hSome]
        rfl
      · rw [step?_saidBy last hx ha, step?_verdict last ha, ih]

/-! ### One return each -/

theorem History.returns_append (r : RunId) : History.returns (past ++ [(m, a)]) r =
    History.returns past r ++ History.returns [(m, a)] r :=
  List.filterMap_append

theorem History.returns_other {r : RunId} (h : a.answerer? ≠ some (.run r)) :
    History.returns [(m, a)] r = [] := by
  cases a with
  | finishRun j result =>
      have hj : j ≠ r := by
        rintro rfl
        exact h rfl
      simp [History.returns, hj]
  | _ => rfl

theorem step?_returns (h : m.step? a = some m') (r : RunId) :
    (m'.session.runs[r]?.bind Run.result).toList =
      (m.session.runs[r]?.bind Run.result).toList ++ History.returns [(m, a)] r := by
  cases step?_answers h with
  | kept silent runs =>
      rw [runs, History.returns_other (by rw [silent]; simp), List.append_nil]
  | started request run cause running runs =>
      rw [runs, bind_append_singleton, cause, History.returns_other (by simp [Action.answerer?]),
        List.append_nil]
      split
      · next hr => simp [hr, running]
      · rfl
  | refused request response cause runs =>
      rw [runs, cause, History.returns_other (by simp [Action.answerer?]), List.append_nil]
  | returned j run result cause found running runs =>
      rw [runs, bind_modify, cause]
      by_cases hr : r = j
      · subst hr
        simp [History.returns, found, running]
      · rw [if_neg hr, History.returns_other (by simp [Action.answerer?, Ne.symm hr]),
          List.append_nil]
  | sent k response cause found runs =>
      rw [runs, cause, History.returns_other (by simp [Action.answerer?]), List.append_nil]

/-- The handler of a run returns at most once, and the run keeps the result. -/
theorem Life.returns {start s : Session M S} (hStart : start.runs = []) (life : Life start past s)
    (r : RunId) : History.returns past r = (s.runs[r]?.bind Run.result).toList := by
  induction life with
  | refl => rw [hStart]; rfl
  | step prior last ih => rw [History.returns_append, ih, step?_returns last]

/-! ### Each call -/

end Machine

end PeerLink
