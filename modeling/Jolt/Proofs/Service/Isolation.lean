import Jolt.Proofs.Service.Session
import Mathlib.Data.List.Nodup

/-!
# Sessions are isolated

A `Ledger` says of a row of events which connections were opened, which are still open and which messages came on which
of them; it knows no variables, no session and no reply. A service is tracked by the ledger of its events (`Tracks`): its
connections are the open ones, each with the variables that its own messages alone have left. What an event can do is said
once (`Happens`), and what it does for one connection composes over a run (`Served`). So on every connection the replies
are those it would get if it were alone with the service.
-/

namespace Jolt.Service

/-- The client whose connection an event is about. -/
def Event.client? : Event → Option Text
  | .message client _ | .binary client _ | .close client _ | .drop client => some client
  | .connect _ | .get _ => none

/-- Whether an event closes the connection it is about. A message over the limit does, of whatever kind. -/
def Event.ends (limit : Int) : Event → Bool
  | .message _ content | .binary _ content => !fits limit content
  | .close _ _ | .drop _ => true
  | .connect _ | .get _ => false

/-- The connections of a service, numbered in the order in which they are opened: how many there were, the clients and
numbers of the open ones with the newest first, and the messages that came on them. -/
structure Ledger where
  opened : Nat
  current : List (Text × Nat)
  messages : List (Nat × Text)

namespace Ledger

/-- The ledger before the first event. -/
def empty : Ledger := ⟨0, [], []⟩

/-- The number of the newest connection of a client that is still open. -/
def number? (l : Ledger) (client : Text) : Option Nat :=
  (l.current.find? (·.1 = client)).map Prod.snd

/-- The connection an event is about. -/
def addressee (l : Ledger) (e : Event) : Option Nat :=
  e.client?.bind l.number?

/-- The messages that came on a connection. -/
def messagesOf (l : Ledger) (k : Nat) : List Text :=
  (l.messages.filter (·.1 = k)).map Prod.snd

/-- A connection is opened. -/
def enroll (l : Ledger) (client : Text) : Ledger :=
  { l with opened := l.opened + 1, current := (client, l.opened) :: l.current }

/-- A message comes on a connection. -/
def hear (l : Ledger) (k : Nat) (message : Text) : Ledger :=
  { l with messages := l.messages ++ [(k, message)] }

/-- A connection is closed. -/
def dismiss (l : Ledger) (k : Nat) : Ledger :=
  { l with current := l.current.filter (·.2 ≠ k) }

/-- The ledger after an event. -/
def next (limit : Int) (l : Ledger) (e : Event) : Ledger :=
  match e, l.addressee e with
  | .connect client, _ => l.enroll client
  | .message client source, some k =>
    if (Event.message client source).ends limit then l.dismiss k else l.hear k source
  | e, some k => if e.ends limit then l.dismiss k else l
  | _, none => l

/-- The ledger after events. -/
def after (limit : Int) (l : Ledger) (events : List Event) : Ledger :=
  events.foldl (next limit) l

/-- The replies on one connection, among the effects of events. -/
def repliesOn (limit : Int) (k : Nat) (l : Ledger) : List Event → List Effect → List Reply
  | e :: events, f :: effects =>
    (if l.addressee e = some k then f.replies else []) ++ (l.next limit e).repliesOn limit k events effects
  | _, _ => []

/-! ## Messages of one connection -/

section Messages

variable (l : Ledger) (k : Nat)

theorem messagesOf_hear (message : Text) : (l.hear k message).messagesOf k = l.messagesOf k ++ [message] := by
  simp [messagesOf, hear]

theorem messagesOf_hear_of_ne {j : Nat} (hj : j ≠ k) (message : Text) :
    (l.hear j message).messagesOf k = l.messagesOf k := by
  simp [messagesOf, hear, hj]

theorem mem_messagesOf {message : Text} : message ∈ l.messagesOf k ↔ (k, message) ∈ l.messages := by
  unfold messagesOf
  constructor
  · intro h
    obtain ⟨⟨j, m⟩, hp, rfl⟩ := List.mem_map.1 h
    obtain ⟨hmem, hj⟩ := List.mem_filter.1 hp
    rw [← show j = k by simpa using hj]
    exact hmem
  · intro h
    exact List.mem_map.2 ⟨(k, message), List.mem_filter.2 ⟨h, by simp⟩, rfl⟩

end Messages

/-! ## Ledgers are well formed -/

/-- The open connections are different, everything is about connections that were opened, and no message is over the
limit. -/
structure Valid (limit : Int) (l : Ledger) : Prop where
  nodup : (l.current.map Prod.snd).Nodup
  current_lt : ∀ p ∈ l.current, p.2 < l.opened
  messages_lt : ∀ p ∈ l.messages, p.1 < l.opened
  within : ∀ p ∈ l.messages, fits limit p.2 = true

namespace Valid

variable {limit : Int} {l : Ledger}

theorem empty : Valid limit .empty :=
  ⟨List.nodup_nil, nofun, nofun, nofun⟩

theorem enroll (h : Valid limit l) (client : Text) : Valid limit (l.enroll client) where
  nodup := by
    refine List.nodup_cons.2 ⟨?_, h.nodup⟩
    intro hmem
    obtain ⟨p, hp, hnumber⟩ := List.mem_map.1 hmem
    exact Nat.ne_of_lt (h.current_lt p hp) hnumber
  current_lt := by
    intro p hp
    rcases List.mem_cons.1 hp with rfl | hp
    · exact Nat.lt_succ_self _
    · exact Nat.lt_succ_of_lt (h.current_lt p hp)
  messages_lt p hp := Nat.lt_succ_of_lt (h.messages_lt p hp)
  within := h.within

theorem hear (h : Valid limit l) {k : Nat} (hk : k < l.opened) {message : Text} (hfit : fits limit message = true) :
    Valid limit (l.hear k message) where
  nodup := h.nodup
  current_lt := h.current_lt
  messages_lt := by
    intro p hp
    rcases List.mem_append.1 hp with hp | hp
    · exact h.messages_lt p hp
    · rw [List.mem_singleton.1 hp]
      exact hk
  within := by
    intro p hp
    rcases List.mem_append.1 hp with hp | hp
    · exact h.within p hp
    · rw [List.mem_singleton.1 hp]
      exact hfit

theorem dismiss (h : Valid limit l) (k : Nat) : Valid limit (l.dismiss k) where
  nodup := h.nodup.sublist (List.filter_sublist.map Prod.snd)
  current_lt p hp := h.current_lt p (List.mem_of_mem_filter hp)
  messages_lt := h.messages_lt
  within := h.within

/-- A connection that has not been opened yet has no messages. -/
theorem messagesOf_eq_nil (h : Valid limit l) {k : Nat} (hk : l.opened ≤ k) : l.messagesOf k = [] := by
  apply List.eq_nil_iff_forall_not_mem.2
  intro message hmem
  exact Nat.not_lt.2 hk (h.messages_lt _ ((mem_messagesOf l k).1 hmem))

end Valid

section Next

variable {limit : Int} {l : Ledger} {e : Event}

theorem next_of_none {client : Text} (he : e.client? = some client) (hn : l.number? client = none) :
    l.next limit e = l := by
  cases e <;> cases he <;> simp [next, addressee, Event.client?, hn]

theorem next_of_ends {k : Nat} (hk : l.addressee e = some k) (hends : e.ends limit = true) :
    l.next limit e = l.dismiss k := by
  cases e with
  | connect | get => cases hends
  | _ => simp [next, hk, hends]

theorem next_message {client m : Text} {k : Nat} (hk : l.number? client = some k) (hfit : fits limit m = true) :
    l.next limit (.message client m) = l.hear k m := by
  simp [next, addressee, Event.client?, Event.ends, hk, hfit]

theorem next_binary {client content : Text} (hfit : fits limit content = true) :
    l.next limit (.binary client content) = l := by
  unfold next
  cases l.addressee (.binary client content) <;> simp [Event.ends, hfit]

theorem opened_le_next : l.opened ≤ (l.next limit e).opened := by
  unfold next
  split
  · exact Nat.le_succ _
  · split <;> exact Nat.le_refl _
  · split <;> exact Nat.le_refl _
  · exact Nat.le_refl _

end Next

theorem opened_le_after (limit : Int) (l : Ledger) (events : List Event) : l.opened ≤ (l.after limit events).opened := by
  induction events generalizing l with
  | nil => exact Nat.le_refl _
  | cons e events ih => exact Nat.le_trans opened_le_next (ih (l.next limit e))

end Ledger

/-! ## A service and its ledger -/

/-- The connection of a client and a number: its variables are those of its own messages. -/
def Ledger.connection (identify : Nat → Text) (l : Ledger) (p : Text × Nat) : Connection :=
  ⟨p.1, identify p.2, Variables.empty.after (l.messagesOf p.2)⟩

/-- An event of a client without connection does nothing. -/
theorem step_of_none {service : Service} {e : Event} {client : Text} (he : e.client? = some client)
    (hn : service.connection? client = none) : service.step e = (⟨.nothing, [], []⟩, service) := by
  cases e <;> cases he <;> simp [step, hn]

/-- An event that closes a connection says and records nothing else. -/
theorem step_of_ends {service : Service} {e : Event} {client : Text} {c : Connection} (he : e.client? = some client)
    (hc : service.connection? client = some c) (hends : e.ends service.readLimit = true) :
    (service.step e).1.replies = [] ∧ (service.step e).1.utterances = [] ∧ (service.step e).2 = service.remove c := by
  cases e with
  | connect | get => cases he
  | close | drop =>
    cases he
    rw [step, hc]
    exact ⟨rfl, rfl, rfl⟩
  | message client content | binary client content =>
    cases he
    have hexceeds : service.exceeds content = true := (exceeds_eq service content).trans hends
    rw [step, hc]
    simp only [hexceeds, if_true]
    exact ⟨rfl, rfl, rfl⟩

/-- The ledger of a service. -/
structure Tracks (l : Ledger) (service : Service) : Prop where
  valid : l.Valid service.readLimit
  connected : service.connected = l.opened
  connections : service.connections = l.current.map (l.connection service.identify)

/-- The first identifiers are different. -/
def Distinct (identify : Nat → Text) (n : Nat) : Prop :=
  ∀ i < n, ∀ j < n, identify i = identify j → i = j

theorem Distinct.mono {identify : Nat → Text} {m n : Nat} (h : Distinct identify n) (hm : m ≤ n) :
    Distinct identify m :=
  fun i hi j hj => h i (Nat.lt_of_lt_of_le hi hm) j (Nat.lt_of_lt_of_le hj hm)

/-- What an event can do: the replies and utterances it brings, and the service and the ledger after it. -/
inductive Happens (l : Ledger) (service : Service) (e : Event) :
    List Reply → List Utterance → Service → Ledger → Prop
  | idle : Happens l service e [] [] service l
  | enroll (client : Text) : Happens l service e [] []
      { service with
        connections := ⟨client, service.identify service.connected, .empty⟩ :: service.connections
        connected := service.connected + 1 } (l.enroll client)
  | dismiss {client : Text} {k : Nat} : (client, k) ∈ l.current →
      Happens l service e [] [] (service.remove (l.connection service.identify (client, k))) (l.dismiss k)
  | hear {client : Text} {k : Nat} {m : Text} : (client, k) ∈ l.current → l.addressee e = some k →
      fits service.readLimit m = true →
      Happens l service e [reply (service.identify k) (Variables.empty.after (l.messagesOf k)) m]
        (service.recorder.note (utterance (service.identify k) m))
        (service.update ⟨client, service.identify k, Variables.empty.after (l.messagesOf k ++ [m])⟩) (l.hear k m)

namespace Tracks

variable {l : Ledger} {service : Service}

theorem start (identify : Nat → Text) (limit : Int) (recorder : Recorder) :
    Tracks .empty (startWith identify limit recorder) :=
  ⟨.empty, rfl, rfl⟩

theorem connection?_eq (h : Tracks l service) (client : Text) :
    service.connection? client = (l.current.find? (·.1 = client)).map (l.connection service.identify) := by
  rw [connection?, h.connections, List.find?_map]
  rfl

theorem connection?_of_none (h : Tracks l service) {client : Text} (hn : l.number? client = none) :
    service.connection? client = none := by
  rw [h.connection?_eq, Option.map_eq_none_iff.1 hn]
  rfl

theorem connection?_of_some (h : Tracks l service) {client : Text} {k : Nat} (hn : l.number? client = some k) :
    (client, k) ∈ l.current ∧ service.connection? client = some (l.connection service.identify (client, k)) := by
  obtain ⟨⟨client', k'⟩, hfind, rfl⟩ := Option.map_eq_some_iff.1 hn
  have hclient : client' = client := by simpa using List.find?_some hfind
  subst hclient
  refine ⟨List.mem_of_find?_eq_some hfind, ?_⟩
  rw [h.connection?_eq, hfind]
  rfl

/-- What happens on a connection that stays open. -/
theorem happens_open (h : Tracks l service) {e : Event} {client : Text} {k : Nat} (he : e.client? = some client)
    (hn : l.number? client = some k) (hends : e.ends service.readLimit = false) :
    Happens l service e (service.step e).1.replies (service.step e).1.utterances (service.step e).2
      (l.next service.readLimit e) := by
  obtain ⟨hmem, hc⟩ := h.connection?_of_some hn
  cases e with
  | connect | get => cases he
  | close | drop => cases hends
  | binary client content =>
    cases he
    have hfit : fits service.readLimit content = true := by simpa [Event.ends] using hends
    rw [Ledger.next_binary hfit, Service.step, hc]
    simp only [exceeds_eq, hfit, Bool.not_true, Bool.false_eq_true, if_false]
    exact .idle
  | message client m =>
    cases he
    have hfit : fits service.readLimit m = true := by simpa [Event.ends] using hends
    obtain ⟨hreplies, hutterances, hservice⟩ := step_message hc hfit
    have hvariables : ((Variables.empty.after (l.messagesOf k)).emit m []).2 =
        Variables.empty.after (l.messagesOf k ++ [m]) := by
      rw [Variables.after_append]
      rfl
    rw [hreplies, hutterances, hservice, Ledger.next_message hn hfit]
    dsimp only [Ledger.connection]
    rw [hvariables]
    exact .hear hmem hn hfit

/-- Every event does one of the four things. -/
theorem happens (h : Tracks l service) (e : Event) :
    Happens l service e (service.step e).1.replies (service.step e).1.utterances (service.step e).2
      (l.next service.readLimit e) := by
  cases he : e.client? with
  | none =>
    cases e with
    | connect client => exact .enroll client
    | get path =>
      rw [Service.step]
      split <;> exact .idle
    | _ => cases he
  | some client =>
    cases hn : l.number? client with
    | none =>
      rw [step_of_none he (h.connection?_of_none hn), Ledger.next_of_none he hn]
      exact .idle
    | some k =>
      obtain ⟨hmem, hc⟩ := h.connection?_of_some hn
      have haddressee : l.addressee e = some k := by rw [Ledger.addressee, he]; exact hn
      cases hends : e.ends service.readLimit with
      | true =>
        obtain ⟨hreplies, hutterances, hservice⟩ := step_of_ends he hc hends
        rw [hreplies, hutterances, hservice, Ledger.next_of_ends haddressee hends]
        exact .dismiss hmem
      | false => exact h.happens_open he hn hends

end Tracks

/-! ## One event -/

namespace Happens

variable {l l' : Ledger} {service service' : Service} {e : Event} {rs : List Reply} {us : List Utterance}

/-- No event changes the settings of a service. -/
theorem settings (h : Happens l service e rs us service' l') :
    service'.readLimit = service.readLimit ∧ service'.recorder = service.recorder ∧
      service'.identify = service.identify := by
  cases h <;> exact ⟨rfl, rfl, rfl⟩

/-- The ledger goes along with the service. -/
theorem tracks (h : Happens l service e rs us service' l') (ht : Tracks l service)
    (hid : Distinct service.identify l.opened) : Tracks l' service' := by
  have same : ∀ p ∈ l.current, ∀ q ∈ l.current, service.identify p.2 = service.identify q.2 → p.2 = q.2 :=
    fun p hp q hq => hid _ (ht.valid.current_lt p hp) _ (ht.valid.current_lt q hq)
  cases h with
  | idle => exact ht
  | enroll client =>
    refine ⟨ht.valid.enroll client, congrArg (· + 1) ht.connected, ?_⟩
    have hnew : (l.enroll client).connection service.identify (client, l.opened) =
        ⟨client, service.identify l.opened, .empty⟩ := by
      have hnone : (l.enroll client).messagesOf l.opened = [] := ht.valid.messagesOf_eq_nil (Nat.le_refl _)
      rw [Ledger.connection, hnone]
      rfl
    show _ :: service.connections = List.map _ (_ :: l.current)
    rw [List.map_cons, hnew, ht.connections, ht.connected]
    rfl
  | @dismiss client k hmem =>
    refine ⟨ht.valid.dismiss k, ht.connected, ?_⟩
    show List.filter _ service.connections = List.map (l.connection service.identify) (List.filter _ l.current)
    rw [ht.connections, List.filter_map]
    apply congrArg
    apply List.filter_congr
    intro p hp
    show decide (service.identify p.2 ≠ service.identify k) = decide (p.2 ≠ k)
    exact decide_eq_decide.2 (not_congr ⟨same p hp (client, k) hmem, congrArg _⟩)
  | @hear client k m hmem haddressee hfit =>
    refine ⟨ht.valid.hear (ht.valid.current_lt _ hmem) hfit, ht.connected, ?_⟩
    show List.map _ service.connections = List.map ((l.hear k m).connection service.identify) l.current
    rw [ht.connections, List.map_map]
    apply List.map_congr_left
    intro p hp
    by_cases hk : p.2 = k
    · -- The connection that is replaced is the one the message came on.
      obtain rfl : p = (client, k) := List.inj_on_of_nodup_map ht.valid.nodup hp hmem hk
      simp [Ledger.connection, Ledger.messagesOf_hear]
    · have hne : service.identify p.2 ≠ service.identify k := fun heq => hk (same p hp (client, k) hmem heq)
      simp [Ledger.connection, Ledger.messagesOf_hear_of_ne l p.2 (Ne.symm hk), hne]

end Happens

/-! ## One connection -/

/-- From one ledger to a later one, a connection got the replies of its own session to the messages that came on it in
between, and under its identifier those were recorded and nothing else. -/
def Served (identify : Nat → Text) (recorder : Recorder) (k : Nat) (l l' : Ledger) (rs : List Reply)
    (us : List Utterance) : Prop :=
  ∃ ms, l'.messagesOf k = l.messagesOf k ++ ms ∧
    rs = replies (identify k) (Variables.empty.after (l.messagesOf k)) ms ∧
    us.filter (·.session = identify k) = ms.flatMap fun m => recorder.note (utterance (identify k) m)

namespace Served

variable {identify : Nat → Text} {recorder : Recorder} {k : Nat} {l l' l'' : Ledger} {rs rs' : List Reply}
  {us us' : List Utterance}

theorem idle (hl : l'.messagesOf k = l.messagesOf k) (hus : us.filter (·.session = identify k) = []) :
    Served identify recorder k l l' [] us :=
  ⟨[], by rw [hl, List.append_nil], rfl, hus⟩

theorem trans (h : Served identify recorder k l l' rs us) (h' : Served identify recorder k l' l'' rs' us') :
    Served identify recorder k l l'' (rs ++ rs') (us ++ us') := by
  obtain ⟨ms, hms, rfl, hus⟩ := h
  obtain ⟨ms', hms', rfl, hus'⟩ := h'
  refine ⟨ms ++ ms', ?_, ?_, ?_⟩
  · rw [hms', hms, List.append_assoc]
  · rw [replies_append, hms, Variables.after_append]
  · rw [List.filter_append, hus, hus', List.flatMap_append]

end Served

/-- What is noted of a source is noted under the session it came in. -/
theorem filter_note (recorder : Recorder) (session session' source : Text) :
    (recorder.note (utterance session source)).filter (·.session = session') =
      if session = session' then recorder.note (utterance session source) else [] := by
  cases recorder <;> simp [Recorder.note, utterance, List.filter_cons]

/-- What an event does for one connection. -/
theorem Happens.served {l l' : Ledger} {service service' : Service} {e : Event} {rs : List Reply} {us : List Utterance}
    (h : Happens l service e rs us service' l') (hv : l.Valid service.readLimit) {n k : Nat} (hk : k < n)
    (hn : l.opened ≤ n) (hid : Distinct service.identify n) :
    Served service.identify service.recorder k l l' (if l.addressee e = some k then rs else []) us := by
  cases h with
  | idle => rw [ite_self]; exact .idle rfl rfl
  | enroll => rw [ite_self]; exact .idle rfl rfl
  | dismiss => rw [ite_self]; exact .idle rfl rfl
  | @hear client j m hmem haddressee hfit =>
    by_cases hj : j = k
    · subst hj
      rw [if_pos haddressee]
      refine ⟨[m], Ledger.messagesOf_hear l j m, rfl, ?_⟩
      rw [filter_note, if_pos rfl, List.flatMap_singleton]
    · have hne : service.identify j ≠ service.identify k :=
        fun heq => hj (hid j (Nat.lt_of_lt_of_le (hv.current_lt _ hmem) hn) k hk heq)
      rw [if_neg (by rw [haddressee]; exact fun heq => hj (Option.some.inj heq))]
      refine .idle (Ledger.messagesOf_hear_of_ne l k hj m) ?_
      rw [filter_note, if_neg hne]

/-! ## Runs -/

/-- Over a run the ledger stays with the service, and every connection is served as if it were alone. -/
theorem Tracks.run {l : Ledger} {service : Service} (h : Tracks l service) (events : List Event)
    (hid : Distinct service.identify (l.after service.readLimit events).opened) :
    Tracks (l.after service.readLimit events) (Service.run events service).2 ∧
      (Service.run events service).2.readLimit = service.readLimit ∧
      ∀ k < (l.after service.readLimit events).opened,
        Served service.identify service.recorder k l (l.after service.readLimit events)
          (l.repliesOn service.readLimit k events (Service.run events service).1)
          ((Service.run events service).1.flatMap Effect.utterances) := by
  induction events generalizing l service with
  | nil => exact ⟨h, rfl, fun k _ => .idle rfl rfl⟩
  | cons e events ih =>
    have hstep := h.happens e
    have hopened := Ledger.opened_le_after service.readLimit l (e :: events)
    obtain ⟨hlimit, hrecorder, hidentify⟩ := hstep.settings
    obtain ⟨htracks, hlast, hserved⟩ := ih (hstep.tracks h (hid.mono hopened)) (by rw [hidentify, hlimit]; exact hid)
    rw [hlimit, hrecorder, hidentify] at hserved
    rw [hlimit] at htracks hlast
    exact ⟨htracks, hlast, fun k hk => (hstep.served h.valid hk hopened hid).trans (hserved k hk)⟩

/-- Whatever the events and however they interleave, as long as the identifiers are different: the replies on a
connection are those its messages would get if they were sent alone to a service nobody else talks to, one for each
message and all under the identifier of the connection; what is recorded under that identifier is its messages in order,
each failed if and only if it does not parse; and after every event as many sessions are open as connections. -/
theorem run_isolated (limit : Int) (recorder : Recorder) (identify : Nat → Text) (events : List Event)
    (hid : Distinct identify (Ledger.empty.after limit events).opened) :
    (∀ k < (Ledger.empty.after limit events).opened,
      let effects := (run events (startWith identify limit recorder)).1
      let own := Ledger.empty.repliesOn limit k events effects
      let messages := (Ledger.empty.after limit events).messagesOf k
      (∀ client identify' recorder', own.map Reply.content =
        ((run (.connect client :: messages.map (.message client)) (startWith identify' limit recorder')).1.flatMap
          Effect.replies).map Reply.content) ∧
      own.length = messages.length ∧
      (∀ r ∈ own, r.session = identify k) ∧
      (recorder ≠ .off → (effects.flatMap Effect.utterances).filter (·.session = identify k) =
        messages.map fun m => ⟨identify k, m, isFaulty m⟩)) ∧
    ∀ past, past <+: events →
      (run past (startWith identify limit recorder)).2.sessions = (Ledger.empty.after limit past).current.length := by
  have hstart : Tracks .empty (startWith identify limit recorder) := .start identify limit recorder
  constructor
  · intro k hk effects own messages
    obtain ⟨htracks, hlimit, hserved⟩ := hstart.run events hid
    obtain ⟨ms, hms, hown, hrecorded⟩ := hserved k hk
    obtain rfl : messages = ms := hms
    have hreplies : own = replies (identify k) .empty messages := hown
    have hfit : ∀ m ∈ messages, fits limit m = true := by
      intro m hm
      have hwithin := htracks.valid.within _ ((Ledger.mem_messagesOf _ k).1 hm)
      rw [hlimit] at hwithin
      exact hwithin
    refine ⟨?_, ?_, ?_, ?_⟩
    · intro client identify' recorder'
      rw [(run_alone identify' limit recorder' client messages hfit).1, hreplies]
      exact content_replies _ _ _ _
    · rw [hreplies, length_replies]
    · rw [hreplies]
      exact session_of_mem_replies _ _ _
    · intro hrecorder
      exact hrecorded.trans (flatMap_note hrecorder _ _)
  · intro past hpast
    obtain ⟨rest, rfl⟩ := hpast
    have hopened : (Ledger.empty.after limit past).opened ≤ (Ledger.empty.after limit (past ++ rest)).opened := by
      rw [Ledger.after, Ledger.after, List.foldl_append]
      exact Ledger.opened_le_after limit _ rest
    obtain ⟨htracks, -, -⟩ := hstart.run past (hid.mono hopened)
    rw [sessions, htracks.connections, List.length_map]
    rfl

/-- Two clients that use one variable, one of them with a source that does not parse and after the other has left. -/
theorem run_isolated_interleaved :
    let a := utf8 "a"
    let b := utf8 "b"
    let one := utf8 "x = \"one\""
    let bad := utf8 "out ("
    let last := utf8 "out x"
    let events : List Event := [.connect a, .connect b, .message a one, .message b (utf8 "x = \"two\""), .binary b a,
      .message a bad, .message b last, .close b 1000, .message a last]
    let identify := fun n => SessionId.nth (n + 1)
    let effects := (run events (startWith identify 64 .keeping)).1
    let own := Ledger.empty.repliesOn 64 0 events effects
    (Distinct identify (Ledger.empty.after 64 events).opened ∧ 0 < (Ledger.empty.after 64 events).opened ∧
      Recorder.keeping ≠ .off ∧ events.take 7 <+: events) ∧
    own.map Reply.content = ((run [.connect b, .message b one, .message b bad, .message b last]
      (startWith identify 64 .off)).1.flatMap Effect.replies).map Reply.content ∧
    own.length = 3 ∧ (∀ r ∈ own, r.session = SessionId.nth 1) ∧
    (effects.flatMap Effect.utterances).filter (·.session = SessionId.nth 1) =
      [⟨SessionId.nth 1, one, false⟩, ⟨SessionId.nth 1, bad, true⟩, ⟨SessionId.nth 1, last, false⟩] ∧
    (run (events.take 7) (startWith identify 64 .keeping)).2.sessions = 2 ∧
    (run events (startWith identify 64 .keeping)).2.sessions = 1 := by
  intro a b one bad last events identify effects own
  have hid : Distinct identify (Ledger.empty.after 64 events).opened := by
    unfold Distinct
    decide +kernel
  have hon : Recorder.keeping ≠ .off := by rintro ⟨⟩
  have hmessages : (Ledger.empty.after 64 events).messagesOf 0 = [one, bad, last] := by decide
  obtain ⟨hall, hsessions⟩ := run_isolated 64 .keeping identify events hid
  obtain ⟨halone, hlength, hsession, hrecorded⟩ := hall 0 (by decide)
  rw [hmessages] at halone hlength hrecorded
  refine ⟨⟨hid, by decide, hon, List.take_prefix 7 events⟩, halone b identify .off, hlength, hsession, ?_, ?_, ?_⟩
  · rw [hrecorded hon]
    decide +kernel
  · exact (hsessions (events.take 7) (List.take_prefix 7 events)).trans (by decide)
  · exact (hsessions events (List.prefix_refl events)).trans (by decide)

end Jolt.Service
