import Montage.Proofs.Render.Cleanup
import Montage.Render.Session

/-!
# What sessions send and leave behind

While a session passes on the events of its render, the client is heard and the render goes on in
any order. The relations below leave this order open. Whatever it is, the session sends the events
in theirs, up to the terminal one or to a send that fails, and returns when nothing is left behind.
-/

namespace Montage

/-! ## Messages one by one -/

namespace ClientWatch

variable {watch : ClientWatch} {frame : Frame} {rest : List Frame} {sent : Nat}

/-- A watch that reads no more: the render is to stop, or the watch broke off. -/
def ended (watch : ClientWatch) : Bool :=
  watch.cancelled || watch.broken

/-- Read the next message, unless the watch has ended. -/
def readNext (watch : ClientWatch) : ClientWatch :=
  if watch.ended then watch
  else
    match watch.frames with
    | [] => watch
    | frame :: rest =>
        match frame.message with
        | .left _ => { frames := rest, cancelled := true, clientLeft := true }
        | .broken _ => { frames := rest, broken := true }
        | .unreadable _ => { frames := rest }
        | .json value => { frames := rest, cancelled := isCancelRequest value }

/-- A watch that goes on has seen the client neither cancel nor leave. -/
def Fresh (watch : ClientWatch) : Prop :=
  watch.ended = false → watch = { frames := watch.frames }

/-- A message ends the watch or is passed over. -/
theorem readNext_cons (frame : Frame) (rest : List Frame) :
    (readNext { frames := frame :: rest }).ended = true ∨
      readNext { frames := frame :: rest } = { frames := rest } := by
  cases message : frame.message with
  | left => simp [readNext, ended, message]
  | unreadable => simp [readNext, ended, message]
  | broken => simp [readNext, ended, message]
  | json value =>
      cases request : isCancelRequest value with
      | true => simp [readNext, ended, message, request]
      | false => simp [readNext, ended, message, request]

/-- What has arrived is read one message after another, up to the one that ends the watch. -/
theorem readFrames_cons (arrived : frame.after ≤ sent) :
    readFrames sent (frame :: rest) =
      if (readNext { frames := frame :: rest }).ended then
        readNext { frames := frame :: rest }
      else readFrames sent rest := by
  cases message : frame.message with
  | left => simp [readFrames, readNext, ended, arrived, message]
  | unreadable => simp [readFrames, readNext, ended, arrived, message]
  | broken => simp [readFrames, readNext, ended, arrived, message]
  | json value =>
      cases request : isCancelRequest value with
      | true => simp [readFrames, readNext, ended, arrived, message, request]
      | false => simp [readFrames, readNext, ended, arrived, message, request]

theorem Fresh.readNext (fresh : watch.Fresh) : watch.readNext.Fresh := by
  intro going
  cases done : watch.ended with
  | true =>
      rw [ClientWatch.readNext, if_pos done, done] at going
      contradiction
  | false =>
      rw [fresh done] at going ⊢
      generalize watch.frames = frames at going ⊢
      cases frames with
      | nil => rfl
      | cons frame rest =>
          rcases readNext_cons frame rest with ended | passed
          · rw [ended] at going
            contradiction
          · rw [passed]

end ClientWatch

namespace Session

variable {studio : Studio} {order : RenderOrder} {frames : List Frame} {failing : Option Nat}
variable {start session : Session} {events : List RenderEvent} {event : RenderEvent}

/-! ## Turns of a session -/

/-- A session before the first event of a render. -/
def opening (studio : Studio) (order : RenderOrder) (frames : List Frame)
    (failing : Option Nat) : Session where
  studio := studio
  stream := { order := order }
  watch := { frames := frames }
  failing := failing

/-- Act on what a watch has seen: a watch that has ended cancels the render. -/
def act (session : Session) (watch : ClientWatch) : Session :=
  { session with
    watch := watch
    stream := if watch.cancelled then session.stream.cancel else session.stream }

/-- Hear the next message of the client, which may ask to cancel or tell that the client left. -/
def hear (session : Session) : Session :=
  session.act session.watch.readNext

/-- What the stream of a session signals when it goes on. -/
def signal (session : Session) : Signal :=
  (RenderStream.resume session.studio session.stream).signal

/-- Let the stream of a session go on. -/
def resume (session : Session) : Session :=
  let step := RenderStream.resume session.studio session.stream
  { session with studio := step.studio, stream := step.state }

/-- Let the stream go on and pass on what it shows. -/
def go (session : Session) : Session :=
  session.signal.events.foldl send session.resume

/-- What a session can come to, with the events that its stream has shown. The client may be heard
at every moment. The stream goes on until it has shown a terminal event. -/
inductive Reaches (start : Session) : List RenderEvent → Session → Prop where
  | start : Reaches start [] start
  | hear {events : List RenderEvent} {session : Session} (reached : Reaches start events session) :
      Reaches start events session.hear
  | go {events : List RenderEvent} {session : Session} (reached : Reaches start events session)
      (onward : ∀ event ∈ events, event.isTerminal = false) :
      Reaches start (events ++ session.signal.events) session.go

/-- The report with which a session returns: once a terminal event was shown, or when the stream
ends without one. -/
inductive Returns (start : Session) : SessionReport → Prop where
  | concluded {events : List RenderEvent} {event : RenderEvent} {session : Session}
      (reached : Reaches start events session) (shown : event ∈ events)
      (terminal : event.isTerminal = true) : Returns start session.finish
  | exhausted {events : List RenderEvent} {session : Session}
      (reached : Reaches start events session)
      (onward : ∀ event ∈ events, event.isTerminal = false) (ended : session.signal = .ended) :
      Returns start session.go.finish

/-- The report with which serving a client returns whose first message is given. -/
inductive Serves (connection : Connection) (studio : Studio)
    (orders : RenderPayload → RenderOrder) (first : ClientMessage) (later : List Frame) :
    SessionReport → Prop where
  | nothing (nothing : requestOf first = .nothing) :
      Serves connection studio orders first later { studio := studio }
  | broken {failure : Failure} (broken : requestOf first = .broken failure) :
      Serves connection studio orders first later { studio := studio, raised := some failure }
  | invalid {reason : String} (invalid : requestOf first = .invalid reason) :
      Serves connection studio orders first later (refuse connection studio reason)
  | busy {payload : RenderPayload} (valid : requestOf first = .render payload)
      (busy : studio.gate.busy = true) :
      Serves connection studio orders first later
        (refuse connection studio ErrorKind.inProgress.message)
  | rendered {payload : RenderPayload} {report : SessionReport}
      (valid : requestOf first = .render payload) (free : studio.gate.busy = false)
      (returns : Returns
        (opening studio (orders payload) later (connection.failing.map (·.1))) report) :
      Serves connection studio orders first later report

/-! ## What a session sends -/

/-- The events of a stream and those of them that were sent, where the send at a position fails. -/
structure Relayed (failing : Option Nat) (events sent : List RenderEvent) : Prop where
  /-- Events are sent in their order, and nothing else is. -/
  ordered : sent <+: events
  /-- Nothing is sent after a send that failed. -/
  quiet : ∀ position ∈ failing, 0 < position → sent.length < position
  /-- An event that was not sent is one whose send failed, or comes after it. -/
  complete : sent = events ∨ sent.length < events.length ∧ failing = some (sent.length + 1)

/-- The invariant of a session: it has sent all events, or the send after the last one failed. -/
inductive Relays (start : Session) (events : List RenderEvent) (session : Session) : Prop where
  | connected (connected : session.connected = true) (same : session.failing = start.failing)
      (sent : session.sent = events) (attempts : session.attempts = events.length)
      (fine : ∀ position ∈ start.failing, 0 < position → events.length < position)
  | broken (connected : session.connected = false) (sent : session.sent <+: events)
      (missing : session.sent.length < events.length)
      (failed : start.failing = some (session.sent.length + 1))

theorem Relays.relayed (relays : Relays start events session) :
    Relayed start.failing events session.sent := by
  cases relays with
  | connected _ _ sent _ fine =>
      subst sent
      exact ⟨List.prefix_rfl, fine, .inl rfl⟩
  | broken _ sent missing failed =>
      refine ⟨sent, ?_, .inr ⟨missing, failed⟩⟩
      rw [failed]
      rintro position ⟨⟩ -
      exact Nat.lt_succ_self _

/-- Only what is sent counts. -/
theorem Relays.congr {next : Session} (relays : Relays start events session)
    (connected : next.connected = session.connected) (failing : next.failing = session.failing)
    (sent : next.sent = session.sent) (attempts : next.attempts = session.attempts) :
    Relays start events next := by
  cases relays with
  | connected connected' same sent' attempts' fine =>
      exact .connected (connected.trans connected') (failing.trans same) (sent.trans sent')
        (attempts.trans attempts') fine
  | broken connected' sent' missing failed =>
      rw [← sent] at sent' missing failed
      exact .broken (connected.trans connected') sent' missing failed

theorem Relays.send (relays : Relays start events session) (event : RenderEvent) :
    Relays start (events ++ [event]) (session.send event) := by
  cases relays with
  | connected connected same sent attempts fine =>
      simp only [Session.send, connected, if_true]
      split
      next fails =>
        rw [same, attempts] at fails
        subst sent
        refine .broken rfl (List.prefix_append _ _) ?_ fails
        simp
      next sends =>
        refine .connected rfl same (congrArg (· ++ [event]) sent) (by simp [attempts]) ?_
        intro position fails positive
        have before := fine position fails positive
        have other : position ≠ events.length + 1 := by
          rintro rfl
          exact sends (by rw [same, attempts, fails])
        simp only [List.length_append, List.length_singleton]
        omega
  | broken connected sent missing failed =>
      have same : session.send event = session := by simp [Session.send, connected]
      rw [same]
      refine .broken connected (sent.trans (List.prefix_append _ _)) ?_ failed
      simp only [List.length_append]
      omega

theorem Relays.foldl_send (relays : Relays start events session) (more : List RenderEvent) :
    Relays start (events ++ more) (more.foldl Session.send session) := by
  induction more generalizing events session with
  | nil =>
      rw [List.append_nil]
      exact relays
  | cons event rest ih =>
      rw [List.append_cons]
      exact ih (relays.send event)

/-- Wherever a session can come to, it has passed on what its stream has shown. -/
theorem relays_of_reaches
    (reached : (opening studio order frames failing).Reaches events session) :
    Relays (opening studio order frames failing) events session := by
  induction reached with
  | start => exact .connected rfl rfl rfl rfl fun _ _ => id
  | hear _ ih => exact ih.congr rfl rfl rfl rfl
  | @go events session _ _ ih =>
      have resumed : Relays _ events session.resume := ih.congr rfl rfl rfl rfl
      exact resumed.foldl_send session.signal.events

/-! ## What the stream of a session comes to -/

/-- A send that fails cancels the stream, and leaves the studio as it is. -/
theorem stream_send (session : Session) (event : RenderEvent) :
    (session.send event).studio = session.studio ∧
      ((session.send event).stream = session.stream ∨
        (session.send event).stream = session.stream.cancel) := by
  simp only [send]
  split
  · split
    · exact ⟨rfl, .inr rfl⟩
    · exact ⟨rfl, .inl rfl⟩
  · exact ⟨rfl, .inl rfl⟩

theorem reaches_foldl_send {studio : Studio} {stream : RenderStream} {shown : List RenderEvent}
    (reached : RenderStream.producer.Reaches studio stream shown session.studio session.stream)
    (more : List RenderEvent) :
    RenderStream.producer.Reaches studio stream shown (more.foldl send session).studio
      (more.foldl send session).stream := by
  induction more generalizing session with
  | nil => exact reached
  | cons event rest ih =>
      obtain ⟨studio', same | cancelled⟩ := stream_send session event
      · exact ih (by rwa [studio', same])
      · exact ih (by rw [studio', cancelled]; exact reached.cancel)

/-- The stream of a session only goes on and is cancelled. -/
theorem stream_of_reaches (reached : start.Reaches events session) :
    RenderStream.producer.Reaches start.studio start.stream events session.studio
      session.stream := by
  induction reached with
  | start => exact .start
  | hear _ ih =>
      simp only [hear, act]
      split
      · exact ih.cancel
      · exact ih
  | @go events session _ _ ih => exact reaches_foldl_send ih.resume session.signal.events

/-! ## Whole sessions -/

/-- What a session has done that passes on the events of a render. -/
structure Rendered (studio : Studio) (order : RenderOrder) (failing : Option Nat)
    (report : SessionReport) : Prop where
  /-- The events are those of a render up to its only terminal one. -/
  relayed : ∃ events after stream,
    RenderStream.producer.Reaches studio { order := order } events after stream ∧
      EndsOnce events ∧ Relayed failing events report.sent
  released : Released studio report.studio
  returned : report.failure = none ∧ report.raised = none

/-- What a session has done that turns its client away: nothing but one attempt to say why. -/
structure TurnedAway (connection : Connection) (studio : Studio) (reason : String)
    (report : SessionReport) : Prop where
  untouched : report.studio = studio
  read : report.raised = none
  told : report.sent = [.failed reason] ∧ report.failure = none ∨
    report.sent = [] ∧ ∃ fault, connection.failing = some (1, fault) ∧ report.failure = some fault

theorem turnedAway_refuse (connection : Connection) (studio : Studio) (reason : String) :
    TurnedAway connection studio reason (refuse connection studio reason) := by
  simp only [refuse]
  split
  next fault failing => exact ⟨rfl, rfl, .inr ⟨rfl, fault, failing, rfl⟩⟩
  next => exact ⟨rfl, rfl, .inl ⟨rfl, rfl⟩⟩

/-- Giving up the stream of a session settles everything. -/
theorem rendered_finish
    (reached : (opening studio order frames failing).Reaches events session)
    (once : EndsOnce events) : Rendered studio order failing session.finish where
  relayed := ⟨events, _, _, stream_of_reaches reached, once, (relays_of_reaches reached).relayed⟩
  released := RenderStream.released_close (stream_of_reaches reached)
  returned := ⟨rfl, rfl⟩

theorem rendered_of_returns {report : SessionReport}
    (returns : (opening studio order frames failing).Returns report) :
    Rendered studio order failing report := by
  cases returns with
  | @concluded events event session reached shown terminal =>
      refine rendered_finish reached ?_
      rcases RenderStream.told_of_reaches (stream_of_reaches reached) with ⟨-, onward⟩ | ⟨-, once⟩
      · rw [onward event shown] at terminal
        contradiction
      · exact once
  | @exhausted events session reached onward ended =>
      -- A stream ends only after it has shown a terminal event.
      have told := RenderStream.told_of_reaches (stream_of_reaches reached)
      have move := RenderStream.move_of_resume session.studio session.stream
      obtain ⟨earlier, last, rfl, terminal, -⟩ :=
        (RenderStream.signal_of_told told move).2 ended
      rw [onward last (by simp)] at terminal
      contradiction

/-! ## Sessions that run -/

/-- A session can come to wait for a process that hangs, while nobody has cancelled its render. -/
def Hangs (start : Session) : Prop :=
  ∃ events session, start.Reaches events session ∧
    session.stream.cancelled = false ∧ session.signal = .stuck

@[simp] theorem watch_send (session : Session) (event : RenderEvent) :
    (session.send event).watch = session.watch := by
  simp only [send]
  split
  · split <;> rfl
  · rfl

theorem watch_foldl_send (session : Session) (more : List RenderEvent) :
    (more.foldl send session).watch = session.watch := by
  induction more generalizing session with
  | nil => rfl
  | cons event rest ih => rw [List.foldl_cons, ih, watch_send]

theorem fresh_of_reaches
    (reached : (opening studio order frames failing).Reaches events session) :
    session.watch.Fresh := by
  induction reached with
  | start => exact fun _ => rfl
  | hear _ ih => exact ih.readNext
  | @go events session _ _ ih =>
      rw [go, watch_foldl_send]
      exact ih

/-- Acting on a watch that goes on changes nothing but the watch. -/
theorem act_of_going {watch : ClientWatch} (going : watch.cancelled = false) :
    session.act watch = { session with watch := watch } := by
  rw [act, going]
  rfl

/-- Reading the messages that have arrived is hearing them one after another. -/
theorem reaches_readFrames {frames : List Frame} (reached : start.Reaches events session)
    (watch : session.watch = { frames := frames }) (sent : Nat) :
    start.Reaches events (session.act (ClientWatch.readFrames sent frames)) := by
  induction frames generalizing session with
  | nil =>
      rw [ClientWatch.readFrames, act_of_going rfl, ← watch]
      exact reached
  | cons frame rest ih =>
      by_cases arrived : frame.after ≤ sent
      · have heard := reached.hear
        rw [hear, watch] at heard
        rw [ClientWatch.readFrames_cons arrived]
        split
        next => exact heard
        next going =>
          have passed := (ClientWatch.readNext_cons frame rest).resolve_left going
          rw [passed, act_of_going rfl] at heard
          have later := ih heard rfl
          exact later
      · rw [ClientWatch.readFrames, if_neg arrived, act_of_going rfl, ← watch]
        exact reached

/-- Noticing the client is hearing some of its messages. -/
theorem reaches_noticeClient (reached : start.Reaches events session)
    (fresh : session.watch.Fresh) : start.Reaches events session.noticeClient := by
  have noticed : session.noticeClient = session.act
      (if session.watch.ended then session.watch
        else ClientWatch.readFrames session.attempts session.watch.frames) := rfl
  rw [noticed]
  split
  next done =>
    have heard := reached.hear
    rwa [hear, ClientWatch.readNext, if_pos done] at heard
  next going =>
    exact reaches_readFrames reached (fresh (Bool.not_eq_true _ ▸ going)) session.attempts

theorem work_send (session : Session) (event : RenderEvent) :
    RenderStream.work (session.send event).studio (session.send event).stream =
      RenderStream.work session.studio session.stream := by
  obtain ⟨studio, same | cancelled⟩ := stream_send session event
  · rw [studio, same]
  · rw [studio, cancelled]
    rfl

theorem work_noticeClient (session : Session) :
    RenderStream.work session.noticeClient.studio session.noticeClient.stream =
      RenderStream.work session.studio session.stream := by
  simp only [noticeClient]
  split <;> rfl

/-- What a session does in one step of following its stream. -/
theorem follow_succ (session : Session) (steps : Nat) :
    session.follow (steps + 1) =
      match session.signal with
      | .paused => session.go.follow steps
      | .event event =>
          if event.isTerminal then session.go.noticeClient.finish
          else session.go.noticeClient.follow steps
      | _ => session.go.finish := by
  simp only [follow, go]
  split
  all_goals
    rename_i shown
    simp only [signal, shown]
    rfl

/-- A session that may take more steps than it has work left returns, or can come to hang. -/
theorem returns_follow (steps : Nat)
    (reached : (opening studio order frames failing).Reaches events session)
    (onward : ∀ event ∈ events, event.isTerminal = false)
    (enough : RenderStream.work session.studio session.stream < steps) :
    (opening studio order frames failing).Returns (session.follow steps) ∨
      (opening studio order frames failing).Hangs := by
  induction steps generalizing events session with
  | zero => exact absurd enough (Nat.not_lt_zero _)
  | succ steps ih =>
      have move := RenderStream.move_of_resume session.studio session.stream
      have gone := reached.go onward
      have lessens (goes : session.signal.Goes) :
          RenderStream.work session.resume.studio session.resume.stream < steps := by
        have less := RenderStream.work_of_move move goes
        simp only [RenderStream.work] at enough ⊢
        simp only [resume]
        omega
      rw [follow_succ]
      cases shown : session.signal with
      | paused =>
          have less := lessens (by simp [Signal.Goes, shown])
          have same : session.go = session.resume := by rw [go, shown]; rfl
          rw [shown, Signal.events_paused, List.append_nil] at gone
          exact ih gone onward (same ▸ less)
      | event event =>
          have less := lessens (by simp [Signal.Goes, shown])
          have same : session.go = session.resume.send event := by rw [go, shown]; rfl
          rw [shown, Signal.events_event] at gone
          have noticed := reaches_noticeClient gone (fresh_of_reaches gone)
          dsimp only
          split
          next terminal => exact .inl (.concluded noticed (by simp) terminal)
          next nonterminal =>
            refine ih noticed ?_ ?_
            · intro other member
              rcases List.mem_append.mp member with old | new
              · exact onward other old
              · rw [List.mem_singleton.mp new]
                simpa using nonterminal
            · rw [work_noticeClient, same, work_send]
              exact less
      | stuck =>
          refine .inr ⟨events, session, reached, ?_, shown⟩
          rw [← Bool.not_eq_true]
          intro cancelled
          exact RenderStream.ne_stuck_of_move move cancelled shown
      | ended => exact .inl (.exhausted reached onward shown)
      | failed failure =>
          have told := RenderStream.told_of_reaches (stream_of_reaches reached)
          exact absurd shown ((RenderStream.signal_of_told told move).1 failure)

/-- Serving a client returns in one of the ways listed, unless the session can come to hang. -/
theorem serves_serve {connection : Connection} {orders : RenderPayload → RenderOrder}
    {first : Frame} {later : List Frame} (frames : connection.frames = first :: later) :
    Serves connection studio orders first.message later (serve connection studio orders) ∨
      ∃ payload, requestOf first.message = .render payload ∧
        (opening studio (orders payload) later (connection.failing.map (·.1))).Hangs := by
  simp only [serve, frames]
  split
  next nothing => exact .inl (.nothing nothing)
  next failure broken => exact .inl (.broken broken)
  next reason invalid => exact .inl (.invalid invalid)
  next payload valid =>
    split
    next busy => exact .inl (.busy valid busy)
    next free =>
      have begun : (opening studio (orders payload) later
          (connection.failing.map (·.1))).Reaches [] _ := .start
      have noticed := reaches_noticeClient begun fun _ => rfl
      have enough : RenderStream.work studio { order := orders payload } < studio.stepBound := by
        have bound := studio.work_add_le_stepBound
        simp only [RenderStream.work, StreamPhase.work]
        omega
      rcases returns_follow studio.stepBound noticed (by simp)
        ((work_noticeClient _).trans_lt enough) with returns | hangs
      · exact .inl (.rendered valid (Bool.not_eq_true _ ▸ free) returns)
      · exact .inr ⟨payload, valid, hangs⟩

/-- What serving a client has done whose first message is given. -/
structure Served (connection : Connection) (studio : Studio)
    (orders : RenderPayload → RenderOrder) (first : ClientMessage) (report : SessionReport) :
    Prop where
  /-- A client that leaves at once is told nothing. -/
  nothing : requestOf first = .nothing → report = { studio := studio }
  /-- Neither is one whose message cannot even be refused. The session ends with that failure. -/
  broken : ∀ failure, requestOf first = .broken failure →
    report = { studio := studio, raised := some failure }
  invalid : ∀ reason, requestOf first = .invalid reason →
    TurnedAway connection studio reason report
  busy : ∀ payload, requestOf first = .render payload → studio.gate.busy = true →
    TurnedAway connection studio ErrorKind.inProgress.message report
  rendered : ∀ payload, requestOf first = .render payload → studio.gate.busy = false →
    Rendered studio (orders payload) (connection.failing.map (·.1)) report

theorem served_of_serves {connection : Connection} {orders : RenderPayload → RenderOrder}
    {first : ClientMessage} {later : List Frame} {report : SessionReport}
    (serves : Serves connection studio orders first later report) :
    Served connection studio orders first report where
  nothing request := by
    cases serves with
    | nothing => rfl
    | broken other | invalid other | busy other | rendered other =>
        cases request.symm.trans other
  broken failure request := by
    cases serves with
    | broken other =>
        cases request.symm.trans other
        rfl
    | nothing other | invalid other | busy other | rendered other =>
        cases request.symm.trans other
  invalid reason request := by
    cases serves with
    | invalid other =>
        cases request.symm.trans other
        exact turnedAway_refuse connection studio reason
    | nothing other | broken other | busy other | rendered other =>
        cases request.symm.trans other
  busy payload request busy := by
    cases serves with
    | busy => exact turnedAway_refuse connection studio _
    | rendered _ free =>
        rw [free] at busy
        contradiction
    | nothing other | broken other | invalid other => cases request.symm.trans other
  rendered payload request free := by
    cases serves with
    | rendered other _ returns =>
        cases request.symm.trans other
        exact rendered_of_returns returns
    | busy _ busy =>
        rw [free] at busy
        contradiction
    | nothing other | broken other | invalid other => cases request.symm.trans other

/-- A session serves its client in one of the ways listed, unless it can come to hang. However its
client and its render take turns, it sends the events of a stream up to the one that ends it or to
a send that fails, and leaves nothing behind but what a failed write or deletion left. It turns a
client away with one message and does nothing else, unless it breaks off at the first message. -/
theorem served_of_frames {connection : Connection} {orders : RenderPayload → RenderOrder}
    {first : Frame} {later : List Frame} (frames : connection.frames = first :: later) :
    (Serves connection studio orders first.message later (serve connection studio orders) ∨
        ∃ payload, requestOf first.message = .render payload ∧
          (opening studio (orders payload) later (connection.failing.map (·.1))).Hangs) ∧
      ∀ report, Serves connection studio orders first.message later report →
        Served connection studio orders first.message report :=
  ⟨serves_serve frames, fun _ => served_of_serves⟩

/-- What the stream of a session shows in a number of turns in which the client is not heard. -/
def shownBy (session : Session) (count : Nat) : List RenderEvent :=
  (List.range count).flatMap fun turn => (go^[turn] session).signal.events

theorem reaches_iterate_go (count : Nat)
    (onward : ∀ event ∈ session.shownBy count, event.isTerminal = false) :
    session.Reaches (session.shownBy count) (go^[count] session) := by
  induction count with
  | zero => exact .start
  | succ count ih =>
      have more : session.shownBy (count + 1) =
          session.shownBy count ++ (go^[count] session).signal.events := by
        simp [shownBy, List.range_succ]
      have before : ∀ event ∈ session.shownBy count, event.isTerminal = false := by
        intro event member
        exact onward event (more ▸ List.mem_append_left _ member)
      rw [more, Function.iterate_succ_apply']
      exact (ih before).go before

/-- A client that sends an empty payload and cannot be reached from the second event on. -/
def lostConnection : Connection where
  frames := [{ message := .json (.object []) }]
  failing := some (2, .disconnected)

/-- A session of that client that renders the sample film. -/
def lostSession : Session :=
  opening RenderStream.sampleStudio RenderStream.sampleOrder [] (some 2)

/-- The session starts a process, and returns with the sixth turn of its stream. -/
theorem served_lostConnection :
    ∃ report, Serves lostConnection RenderStream.sampleStudio (fun _ => RenderStream.sampleOrder)
        (.json (.object [])) [] report ∧
      report.studio.startedCount = 1 ∧ report.sent.map (·.progress) = [some 0] ∧
      Served lostConnection RenderStream.sampleStudio (fun _ => RenderStream.sampleOrder)
        (.json (.object [])) report := by
  have valid : requestOf (.json (.object [])) = .render ⟨[], [], ⟨none⟩, ⟨none⟩⟩ := by
    have parsed : RenderPayload.parse (.object []) = .ok ⟨[], [], ⟨none⟩, ⟨none⟩⟩ := by
      decide +kernel
    rw [requestOf, parsed]
  have facts : (∀ event ∈ lostSession.shownBy 5, event.isTerminal = false) ∧
      (∃ event ∈ (go^[5] lostSession).signal.events, event.isTerminal = true) ∧
      (go^[5] lostSession).go.finish.studio.startedCount = 1 ∧
      (go^[5] lostSession).go.finish.sent.map (·.progress) = [some 0] := by
    decide +kernel
  obtain ⟨onward, ⟨event, last, terminal⟩, started, sent⟩ := facts
  have reached := (reaches_iterate_go 5 onward).go onward
  have serves : Serves lostConnection RenderStream.sampleStudio
      (fun _ => RenderStream.sampleOrder) (.json (.object [])) []
      (go^[5] lostSession).go.finish :=
    .rendered valid rfl (.concluded reached (List.mem_append_right _ last) terminal)
  have frames : lostConnection.frames = { message := .json (.object []) } :: [] := rfl
  exact ⟨_, serves, started, sent, (served_of_frames frames).2 _ serves⟩

/-- A client whose first message is bytes in place of a text. -/
def bytesConnection : Connection where
  frames := [{ message := .broken (.external "'text'") }]

/-- The message is no payload, and the client is told nothing. -/
theorem unanswered_bytesConnection :
    (serve bytesConnection {} fun _ => RenderStream.sampleOrder).sent = [] ∧
      (serve bytesConnection {} fun _ => RenderStream.sampleOrder).raised =
        some (.external "'text'") ∧
      ∀ reason, ¬TurnedAway bytesConnection {} reason
        (serve bytesConnection {} fun _ => RenderStream.sampleOrder) := by
  refine ⟨rfl, rfl, fun reason away => ?_⟩
  rcases away.told with ⟨sent, -⟩ | ⟨-, fault, failing, -⟩
  · cases sent
  · cases failing

end Session

end Montage
