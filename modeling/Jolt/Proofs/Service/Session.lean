import Jolt.Service

/-!
# One session

A session answers its sources one after another, each over the variables that the ones before it have left (`replies`).
What it answers does not depend on its identifier, which all its replies carry, and a source is recorded as failed exactly
if it does not parse. A service that one client alone talks to gives the replies of one session (`run_alone`).
-/

namespace Jolt

/-- Whether a source does not parse. -/
def isFaulty (source : Text) : Bool :=
  (parse source []).toOption.isNone

/-- The variables after sources that are run one after another. -/
def Variables.after (vars : Variables) (sources : List Text) : Variables :=
  sources.foldl (fun s source => (s.emit source []).2) vars

theorem Variables.after_cons (vars : Variables) (source : Text) (rest : List Text) :
    vars.after (source :: rest) = (vars.emit source []).2.after rest :=
  rfl

theorem Variables.after_append (vars : Variables) (xs ys : List Text) :
    vars.after (xs ++ ys) = (vars.after xs).after ys :=
  List.foldl_append

theorem Variables.isNone_emit (vars : Variables) (source : Text) :
    (vars.emit source []).1.toOption.isNone = isFaulty source := by
  unfold isFaulty
  cases hparse : parse source [] with
  | error d =>
    rw [Variables.emit_fst (emit_of_error hparse vars.scope)]
    rfl
  | ok p =>
    obtain ⟨results, after, hemit, -⟩ := exists_emit hparse vars.whole
    rw [Variables.emit_fst hemit]
    rfl

/-- A reply without its session. -/
def Reply.content (r : Reply) : List Text × Option Text :=
  (r.results, r.error)

namespace Service

/-- The reply of a session to a source. -/
def reply (session : Text) (vars : Variables) (source : Text) : Reply :=
  (evaluate ⟨[], session, vars⟩ source).1

/-- The replies of a session to sources, one after another. -/
def replies (session : Text) : Variables → List Text → List Reply
  | _, [] => []
  | vars, source :: rest => reply session vars source :: replies session (vars.emit source []).2 rest

/-- What is recorded of a source. -/
def utterance (session source : Text) : Utterance :=
  ⟨session, source, isFaulty source⟩

/-- The replies among the effects of an event. -/
def Effect.replies (f : Effect) : List Reply :=
  match f.answer with
  | .reply r => [r]
  | _ => []

/-! ## Replies -/

section Replies

variable (session : Text) (vars : Variables)

theorem reply_eq (source : Text) : reply session vars source =
    match (vars.emit source []).1 with
    | .ok results => ⟨session, results.map (·.unwrap.text), none⟩
    | .error d => ⟨session, [], some d.render⟩ := by
  unfold reply evaluate
  generalize vars.emit source [] = outcome
  obtain ⟨results | d, after⟩ := outcome <;> rfl

theorem evaluate_eq (c : Connection) (source : Text) :
    evaluate c source = (reply c.session c.vars source, { c with vars := (c.vars.emit source []).2 }) := by
  rw [reply_eq, evaluate]
  generalize c.vars.emit source [] = outcome
  obtain ⟨results | d, after⟩ := outcome <;> rfl

theorem session_reply (source : Text) : (reply session vars source).session = session := by
  rw [reply_eq]
  split <;> rfl

theorem content_reply (session' source : Text) :
    (reply session vars source).content = (reply session' vars source).content := by
  rw [reply_eq, reply_eq]
  split <;> rfl

theorem isSome_error_reply (source : Text) : (reply session vars source).error.isSome = isFaulty source := by
  rw [← Variables.isNone_emit vars source, reply_eq]
  cases (vars.emit source []).1 <;> rfl

theorem replies_append (xs ys : List Text) :
    replies session vars (xs ++ ys) = replies session vars xs ++ replies session (vars.after xs) ys := by
  induction xs generalizing vars with
  | nil => rfl
  | cons x xs ih => rw [List.cons_append, replies, replies, ih, Variables.after_cons, List.cons_append]

theorem length_replies (sources : List Text) : (replies session vars sources).length = sources.length := by
  induction sources generalizing vars with
  | nil => rfl
  | cons x xs ih => rw [replies, List.length_cons, List.length_cons, ih]

theorem session_of_mem_replies (sources : List Text) :
    ∀ r ∈ replies session vars sources, r.session = session := by
  induction sources generalizing vars with
  | nil =>
    intro r hr
    cases hr
  | cons x xs ih =>
    intro r hr
    rcases List.mem_cons.1 hr with rfl | hr
    · exact session_reply session vars x
    · exact ih _ r hr

theorem content_replies (session' : Text) (sources : List Text) :
    (replies session vars sources).map Reply.content = (replies session' vars sources).map Reply.content := by
  induction sources generalizing vars with
  | nil => rfl
  | cons x xs ih => rw [replies, replies, List.map_cons, List.map_cons, ih, content_reply session vars session']

end Replies

/-! ## Steps of a service -/

/-- Whether a message is within a limit; a limit that is not positive is none. -/
def fits (limit : Int) (message : Text) : Bool :=
  limit ≤ 0 || message.length ≤ limit

theorem exceeds_eq (service : Service) (message : Text) : service.exceeds message = !fits service.readLimit message := by
  unfold exceeds fits
  by_cases h₁ : service.readLimit ≤ 0
  · have : ¬0 < service.readLimit := Int.not_lt.2 h₁
    simp [h₁, this]
  · by_cases h₂ : (message.length : Int) ≤ service.readLimit
    · simp [h₁, h₂]
    · simp [h₁, h₂]
      omega

/-- A text message within the limit is answered, recorded and run over the variables of its connection. -/
theorem step_message {service : Service} {client source : Text} {c : Connection}
    (hc : service.connection? client = some c) (hfit : fits service.readLimit source = true) :
    (service.step (.message client source)).1.replies = [reply c.session c.vars source] ∧
      (service.step (.message client source)).1.utterances = service.recorder.note (utterance c.session source) ∧
      (service.step (.message client source)).2 =
        service.update { c with vars := (c.vars.emit source []).2 } := by
  have hexceeds : service.exceeds source = false := by rw [exceeds_eq, hfit]; rfl
  rw [step, hc]
  simp only [hexceeds, evaluate_eq, Bool.false_eq_true, if_false]
  refine ⟨rfl, ?_, trivial⟩
  rw [isSome_error_reply]
  rfl

/-! ## Recorders -/

/-- Unless recording is off, every source is noted. -/
theorem flatMap_note {recorder : Recorder} (h : recorder ≠ .off) (session : Text) (sources : List Text) :
    (sources.flatMap fun m => recorder.note (utterance session m)) = sources.map (utterance session) := by
  rw [List.map_eq_flatMap]
  cases recorder with
  | off => exact absurd rfl h
  | on => rfl

/-- The same service with another recorder. -/
def withRecorder (service : Service) (recorder : Recorder) : Service :=
  { service with recorder := recorder }

theorem step_withRecorder (service : Service) (recorder : Recorder) (e : Event) :
    ((service.withRecorder recorder).step e).1.answer = (service.step e).1.answer ∧
      ((service.withRecorder recorder).step e).2 = (service.step e).2.withRecorder recorder := by
  have hconnection : ∀ client, (service.withRecorder recorder).connection? client = service.connection? client :=
    fun _ => rfl
  have hexceeds : ∀ m, (service.withRecorder recorder).exceeds m = service.exceeds m := fun _ => rfl
  cases e with
  | connect => exact ⟨rfl, rfl⟩
  | message client m | binary client m =>
    simp only [step, hconnection, hexceeds]
    cases service.connection? client with
    | none => exact ⟨rfl, rfl⟩
    | some c => cases service.exceeds m <;> exact ⟨rfl, rfl⟩
  | close client | drop client =>
    simp only [step, hconnection]
    cases service.connection? client <;> exact ⟨rfl, rfl⟩
  | get path =>
    simp only [step]
    cases isRepl path <;> exact ⟨rfl, rfl⟩

/-- Whatever becomes of the records, the answers and the connections are the same. -/
theorem run_withRecorder (service : Service) (recorder : Recorder) (events : List Event) :
    (run events (service.withRecorder recorder)).1.map Effect.answer = (run events service).1.map Effect.answer ∧
      (run events (service.withRecorder recorder)).2 = (run events service).2.withRecorder recorder := by
  induction events generalizing service with
  | nil => exact ⟨rfl, rfl⟩
  | cons e events ih =>
    obtain ⟨hanswer, hservice⟩ := step_withRecorder service recorder e
    obtain ⟨ihanswers, ihservice⟩ := ih (service.step e).2
    simp only [run, List.map_cons, hanswer, hservice, ihanswers, ihservice, true_and]

/-! ## A client alone -/

/-- A service with one connection. -/
def single (identify : Nat → Text) (limit : Int) (recorder : Recorder) (client : Text) (vars : Variables) :
    Service :=
  ⟨limit, recorder, identify, [⟨client, identify 0, vars⟩], 1⟩

section Alone

variable (identify : Nat → Text) (limit : Int) (recorder : Recorder) (client : Text)

/-- One message after another: the replies of one session. -/
theorem run_messages (sources : List Text) (hfit : ∀ source ∈ sources, fits limit source = true) (vars : Variables) :
    (run (sources.map (.message client)) (single identify limit recorder client vars)).1.flatMap Effect.replies =
        replies (identify 0) vars sources ∧
      (run (sources.map (.message client)) (single identify limit recorder client vars)).1.flatMap Effect.utterances =
        sources.flatMap fun source => recorder.note (utterance (identify 0) source) := by
  induction sources generalizing vars with
  | nil => exact ⟨rfl, rfl⟩
  | cons x xs ih =>
    have hc : (single identify limit recorder client vars).connection? client =
        some ⟨client, identify 0, vars⟩ := by simp [connection?, single]
    obtain ⟨hreplies, hutterances, hnext⟩ := step_message hc (hfit x List.mem_cons_self)
    have hsingle : (single identify limit recorder client vars).update
        ⟨client, identify 0, (vars.emit x []).2⟩ = single identify limit recorder client (vars.emit x []).2 := by
      simp [update, single]
    obtain ⟨ihr, ihu⟩ := ih (fun y hy => hfit y (List.mem_cons_of_mem x hy)) (vars.emit x []).2
    rw [hsingle] at hnext
    simp only [List.map_cons, run, List.flatMap_cons, hreplies, hutterances, hnext, ihr, ihu]
    exact ⟨rfl, rfl⟩

/-- The replies to a client that alone connects to a service and sends messages within its limit, and what is recorded
of them. -/
theorem run_alone (sources : List Text) (hfit : ∀ source ∈ sources, fits limit source = true) :
    (run (.connect client :: sources.map (.message client)) (startWith identify limit recorder)).1.flatMap
        Effect.replies = replies (identify 0) .empty sources ∧
      (run (.connect client :: sources.map (.message client)) (startWith identify limit recorder)).1.flatMap
        Effect.utterances = sources.flatMap fun source => recorder.note (utterance (identify 0) source) :=
  run_messages identify limit recorder client sources hfit .empty

end Alone

end Service

end Jolt
