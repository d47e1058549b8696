import Montage.Proofs.Render.Stream

/-!
# The order of what supervised renders do

What a supervised render may do next is decided by what it has done before. The second process is
asked for only after the first one was waited for and had failed, no process starts before the
earlier one has ended, and the script is deleted only while no process runs. A deletion may fail; the
run goes on then. A run keeps to these rules however its processes behave and wherever it is
cancelled or given up.
-/

namespace Montage

/-! ## Histories -/

/-- Every effect stands in a relation to those before it. -/
def Follows (permits : List Effect → Effect → Prop) (effects : List Effect) : Prop :=
  ∀ before effect after, effects = before ++ effect :: after → permits before effect

namespace Follows

variable {permits : List Effect → Effect → Prop} {effects : List Effect} {effect : Effect}

theorem nil : Follows permits [] := by
  intro before effect after equal
  simp at equal

theorem append_singleton :
    Follows permits (effects ++ [effect]) ↔ Follows permits effects ∧ permits effects effect := by
  constructor
  · intro follows
    refine ⟨fun before other after equal => ?_, follows effects effect [] rfl⟩
    exact follows before other (after ++ [effect]) (by simp [equal])
  · rintro ⟨follows, last⟩ before other after equal
    rcases List.eq_nil_or_concat' after with rfl | ⟨earlier, final, rfl⟩
    · obtain ⟨rfl, same⟩ := List.append_inj' equal rfl
      cases same
      exact last
    · rw [← List.cons_append, ← List.append_assoc] at equal
      obtain ⟨same, -⟩ := List.append_inj' equal rfl
      exact follows before other earlier same

end Follows

/-- The arguments with which an effect asks for a process. -/
def Effect.request? : Effect → Option (List String)
  | .submitted arguments _ => some arguments
  | _ => none

/-- The argument lists with which processes were asked for, in order. -/
def submissions (effects : List Effect) : List (List String) :=
  effects.filterMap Effect.request?

theorem submissions_submitted (effects : List Effect) (arguments : List String)
    (script : Option String) :
    submissions (effects ++ [.submitted arguments script]) = submissions effects ++ [arguments] :=
  List.filterMap_append

/-- Other effects ask for nothing. -/
theorem submissions_plain {effect : Effect} (effects : List Effect)
    (plain : effect.request? = none) : submissions (effects ++ [effect]) = submissions effects := by
  rw [submissions, List.filterMap_append, List.filterMap_cons_none plain, List.filterMap_nil,
    List.append_nil]
  rfl

theorem Effect.IsDeletion.plain {effect : Effect} (deletion : effect.IsDeletion) :
    effect.request? = none := by
  cases deletion with
  | _ => rfl

theorem Studio.submissions_journal {start studio : Studio}
    (grown : start.journal <+: studio.journal) :
    submissions studio.journal =
      submissions start.journal ++ submissions (start.effectsSince studio) := by
  obtain ⟨effects, journal⟩ := grown
  rw [effectsSince_of_journal journal.symm, ← journal, submissions, List.filterMap_append]
  rfl

/-! ## Rules -/

/-- What a supervised render may do after what it has done. -/
inductive Permits (plan : RenderPlan) (start : Studio) (history : List Effect) : Effect → Prop where
  | primary {script : Option String} (first : submissions history = []) :
      Permits plan start history (.submitted plan.primaryArguments script)
  /-- The one process so far was waited for and had failed, and the script is deleted unless its
  deletion failed. -/
  | fallback {script : Option String} {number : Nat} {code : Int}
      (second : submissions history = [plan.primaryArguments])
      (lone : ∀ other, .started other ∈ history ↔ other = number)
      (ended : .ended number code ∈ history) (failed : code ≠ 0)
      (removed : ∀ path, plan.scriptPath = some path →
        start.scripts.files.has path = true →
          .scriptRemoved path ∈ history ∨ .scriptKept path ∈ history) :
      Permits plan start history (.submitted plan.fallbackArguments script)
  | started {number : Nat} (idle : ∀ other, ¬Unended other history) :
      Permits plan start history (.started number)
  | killed {number : Nat} : Permits plan start history (.killed number)
  | ended {number : Nat} {code : Int} : Permits plan start history (.ended number code)
  | scriptRemoved {path : String} (named : plan.scriptPath = some path)
      (idle : ∀ number, ¬LeftRunning number history) :
      Permits plan start history (.scriptRemoved path)
  | scriptKept {path : String} (named : plan.scriptPath = some path)
      (idle : ∀ number, ¬LeftRunning number history) :
      Permits plan start history (.scriptKept path)

/-- What was done to a studio keeps to the rules of a render. -/
structure Orderly (plan : RenderPlan) (start studio : Studio) : Prop where
  grown : start.journal <+: studio.journal
  permitted : Follows (Permits plan start) (start.effectsSince studio)
  /-- A file is gone exactly if its removal is on record. -/
  files : ∀ path, studio.scripts.files.has path = true ↔
    start.scripts.files.has path = true ∧ .scriptRemoved path ∉ start.effectsSince studio
  /-- Where deletions succeed, none has failed. -/
  granted : start.scripts.Deletes →
    studio.scripts.Deletes ∧ ∀ path, .scriptKept path ∉ start.effectsSince studio

/-- Whoever keeps to the rules asks for the first process and then for the second one at most. -/
theorem submissions_of_follows {plan : RenderPlan} {start : Studio} {effects : List Effect}
    (follows : Follows (Permits plan start) effects) :
    submissions effects = [] ∨ submissions effects = [plan.primaryArguments] ∨
      submissions effects = [plan.primaryArguments, plan.fallbackArguments] := by
  induction effects using List.reverseRecOn with
  | nil => exact .inl rfl
  | append_singleton effects effect ih =>
      obtain ⟨earlier, last⟩ := Follows.append_singleton.mp follows
      cases last with
      | primary first =>
          rw [submissions_submitted, first]
          exact .inr (.inl rfl)
      | fallback second =>
          rw [submissions_submitted, second]
          exact .inr (.inr rfl)
      | started =>
          rw [submissions_plain effects rfl]
          exact ih earlier
      | killed =>
          rw [submissions_plain effects rfl]
          exact ih earlier
      | ended =>
          rw [submissions_plain effects rfl]
          exact ih earlier
      | scriptRemoved =>
          rw [submissions_plain effects rfl]
          exact ih earlier
      | scriptKept =>
          rw [submissions_plain effects rfl]
          exact ih earlier

namespace Orderly

variable {plan : RenderPlan} {start studio after : Studio} {effect : Effect}

theorem refl (plan : RenderPlan) (start : Studio) : Orderly plan start start where
  grown := List.prefix_rfl
  permitted := by
    rw [Studio.effectsSince_self]
    exact .nil
  files := by simp [Studio.effectsSince_self]
  granted := fun granted => ⟨granted, by simp [Studio.effectsSince_self]⟩

/-- Only the journal and the scripts of a studio count. -/
theorem congr (orderly : Orderly plan start studio) (journal : after.journal = studio.journal)
    (scripts : after.scripts = studio.scripts) : Orderly plan start after where
  grown := journal ▸ orderly.grown
  permitted := by
    rw [Studio.effectsSince, journal]
    exact orderly.permitted
  files := by
    rw [Studio.effectsSince, journal, scripts]
    exact orderly.files
  granted := by
    rw [Studio.effectsSince, journal, scripts]
    exact orderly.granted

/-- A permitted effect that does not touch the scripts. -/
theorem record (orderly : Orderly plan start studio)
    (permitted : Permits plan start (start.effectsSince studio) effect)
    (spared : ¬effect.IsDeletion) : Orderly plan start (studio.record effect) where
  grown := orderly.grown.trans (List.prefix_append _ _)
  permitted := by
    rw [Studio.effectsSince_record orderly.grown]
    exact Follows.append_singleton.mpr ⟨orderly.permitted, permitted⟩
  files := by
    intro path
    have other : .scriptRemoved path ≠ effect := by
      rintro rfl
      exact spared (.removed path)
    rw [Studio.effectsSince_record orderly.grown, Studio.record_scripts, orderly.files path]
    simp [other]
  granted := by
    intro granted
    refine ⟨(orderly.granted granted).1, fun path kept => ?_⟩
    rw [Studio.effectsSince_record orderly.grown, List.mem_append, List.mem_singleton] at kept
    rcases kept with old | rfl
    · exact (orderly.granted granted).2 path old
    · exact spared (.kept path)

theorem kill (orderly : Orderly plan start studio) (number : Nat) :
    Orderly plan start (studio.record (.killed number)) :=
  orderly.record .killed nofun

/-- The script may be removed while no process runs. -/
theorem removeScript (orderly : Orderly plan start studio)
    (idle : ∀ number, ¬LeftRunning number (start.effectsSince studio)) :
    Orderly plan start (studio.removeScript plan.scriptPath) := by
  have removes := studio.removes_removeScript plan.scriptPath
  generalize studio.removeScript plan.scriptPath = after at removes ⊢
  generalize named : plan.scriptPath = path at removes
  cases removes with
  | idle => exact orderly
  | @removed name present =>
      refine ⟨orderly.grown.trans (List.prefix_append _ _), ?_, fun other => ?_, fun granted => ?_⟩
      · rw [Studio.effectsSince_append orderly.grown rfl]
        exact Follows.append_singleton.mpr ⟨orderly.permitted, .scriptRemoved named idle⟩
      · rw [Studio.effectsSince_append orderly.grown rfl, Studio.record_scripts,
          Table.has_filter_ne, Bool.and_eq_true, orderly.files other, decide_eq_true_eq, ne_eq,
          List.mem_append, List.mem_singleton, Effect.scriptRemoved.injEq, not_or, and_assoc,
          eq_comm (a := name)]
      · obtain ⟨succeeds, unkept⟩ := orderly.granted granted
        rw [Studio.effectsSince_append orderly.grown rfl]
        exact ⟨fun member => succeeds (List.mem_of_mem_tail member), by simpa using unkept⟩
  | @kept name later present refused =>
      refine ⟨orderly.grown.trans (List.prefix_append _ _), ?_, fun other => ?_, fun granted => ?_⟩
      · rw [Studio.effectsSince_append orderly.grown rfl]
        exact Follows.append_singleton.mpr ⟨orderly.permitted, .scriptKept named idle⟩
      · rw [Studio.effectsSince_append orderly.grown rfl]
        simpa using orderly.files other
      · -- This deletion fails, so not every deletion succeeds.
        have succeeds := (orderly.granted granted).1
        rw [ScriptDirectory.Deletes, refused] at succeeds
        exact absurd List.mem_cons_self succeeds

/-- A script that was there is deleted by its removal at the latest, unless its deletion failed. -/
theorem removed_or_kept (orderly : Orderly plan start studio) {path : String}
    (present : start.scripts.files.has path = true) :
    .scriptRemoved path ∈ start.effectsSince (studio.removeScript (some path)) ∨
      .scriptKept path ∈ start.effectsSince (studio.removeScript (some path)) := by
  have removes := studio.removes_removeScript (some path)
  generalize studio.removeScript (some path) = after at removes ⊢
  cases removes with
  | idle absent =>
      left
      by_contra kept
      have there := (orderly.files path).mpr ⟨present, kept⟩
      rw [absent path rfl] at there
      contradiction
  | removed =>
      rw [Studio.effectsSince_append orderly.grown rfl]
      exact .inl (List.mem_append_right _ List.mem_cons_self)
  | kept =>
      rw [Studio.effectsSince_append orderly.grown rfl]
      exact .inr (List.mem_append_right _ List.mem_cons_self)

end Orderly

/-! ## Phases -/

/-- The argument lists with which processes were asked for up to one in a role. -/
def AttemptRole.requests (plan : RenderPlan) : AttemptRole → List (List String)
  | .primary _ => [plan.primaryArguments]
  | .fallback _ => [plan.primaryArguments, plan.fallbackArguments]

theorem Attempt.requests_of_take {attempt next : Attempt} {piece : String} {rest : Process}
    {progress : Option Binary64} (plan : RenderPlan)
    (taken : attempt.take piece rest = .ok (next, progress)) :
    next.role.requests plan = attempt.role.requests plan := by
  simp only [take] at taken
  split at taken
  next first role =>
    cases taken
    rfl
  next parser role =>
    obtain ⟨fed, -, equal⟩ := bind_eq_ok.mp taken
    cases equal
    rw [role]
    rfl

/-- Every process has been waited for. -/
structure Rested (plan : RenderPlan) (start studio : Studio) : Prop
    extends Orderly plan start studio where
  idle : ∀ other, ¬Unended other (start.effectsSince studio)

/-- No process runs, and one may be asked for. -/
structure Poised (plan : RenderPlan) (start studio : Studio) (earlier : List (List String))
    (arguments : List String) : Prop extends Rested plan start studio where
  asked : submissions (start.effectsSince studio) = earlier
  permits : ∀ script,
    Permits plan start (start.effectsSince studio) (.submitted arguments script)
  unstarted : earlier = [] → ∀ other, .started other ∉ start.effectsSince studio

/-- The process of an attempt runs, and no other one. -/
structure Running (plan : RenderPlan) (start studio : Studio) (attempt : Attempt) : Prop
    extends Orderly plan start studio where
  asked : submissions (start.effectsSince studio) = attempt.role.requests plan
  alone : ∀ other, Unended other (start.effectsSince studio) → other = attempt.number
  lone : submissions (start.effectsSince studio) = [plan.primaryArguments] →
    ∀ other, .started other ∈ start.effectsSince studio ↔ other = attempt.number

/-- Removing a script adds one deletion to the effects at most. -/
theorem Studio.effectsSince_removeScript {start studio : Studio}
    (grown : start.journal <+: studio.journal) (path : Option String) :
    ∃ deletions, start.effectsSince (studio.removeScript path) =
        start.effectsSince studio ++ deletions ∧
      (deletions = [] ∨ ∃ effect : Effect, effect.IsDeletion ∧ deletions = [effect]) := by
  rcases (studio.removes_removeScript path).journal with journal | ⟨effect, deletion, journal⟩
  · refine ⟨[], ?_, .inl rfl⟩
    rw [effectsSince, journal, List.append_nil]
    rfl
  · exact ⟨[effect], effectsSince_append grown journal, .inr ⟨effect, deletion, rfl⟩⟩

theorem Rested.removeScript {plan : RenderPlan} {start studio : Studio}
    (rested : Rested plan start studio) :
    Rested plan start (studio.removeScript plan.scriptPath) where
  toOrderly :=
    rested.toOrderly.removeScript fun number running => rested.idle number running.unended
  idle := by
    intro other
    obtain ⟨deletions, effects, rfl | ⟨effect, deletion, rfl⟩⟩ :=
      Studio.effectsSince_removeScript rested.grown plan.scriptPath
    · rw [effects, List.append_nil]
      exact rested.idle other
    · rw [effects, Unended.append_singleton]
      rintro (rfl | ⟨earlier, -⟩)
      · contradiction
      · exact rested.idle other earlier

namespace Poised

variable {plan : RenderPlan} {start studio : Studio} {earlier : List (List String)}
variable {arguments : List String}

/-- A process that is refused leaves nothing running, and the script is removed. -/
theorem refused {failure : Failure} (poised : Poised plan start studio earlier arguments)
    (refused : (studio.submit arguments).1 = .error failure) :
    Orderly plan start ((studio.submit arguments).2.removeScript plan.scriptPath) := by
  have journal := Studio.submit_journal_of_error studio arguments refused
  have asked : Orderly plan start (studio.submit arguments).2 :=
    (poised.toOrderly.record (poised.permits (studio.submittedScript arguments)) nofun).congr
      journal (Studio.submit_scripts studio arguments)
  apply asked.removeScript
  intro number running
  rw [Studio.effectsSince_append poised.grown journal, LeftRunning.append_singleton] at running
  rcases running with started | ⟨earlier, -⟩
  · contradiction
  · exact poised.idle number earlier.unended

theorem launched {number : Nat} {process : Process} {attempt : Attempt}
    (poised : Poised plan start studio earlier arguments)
    (submitted : (studio.submit arguments).1 = .ok (number, process))
    (numbered : attempt.number = number)
    (requests : attempt.role.requests plan = earlier ++ [arguments]) :
    Running plan start (studio.submit arguments).2 attempt := by
  have journal := Studio.submit_journal_of_ok studio arguments submitted
  have effects : start.effectsSince (studio.submit arguments).2 =
      start.effectsSince studio ++ [.submitted arguments (studio.submittedScript arguments)] ++
        [.started number] := by
    rw [Studio.effectsSince_append poised.grown journal, List.append_assoc]
    rfl
  have idle (other : Nat) : ¬Unended other (start.effectsSince studio ++
      [.submitted arguments (studio.submittedScript arguments)]) := by
    intro running
    rcases Unended.append_singleton.mp running with started | ⟨earlier, -⟩
    · contradiction
    · exact poised.idle other earlier
  have asked :=
    poised.toOrderly.record (poised.permits (studio.submittedScript arguments)) nofun
  have started : Orderly plan start ((studio.record
      (.submitted arguments (studio.submittedScript arguments))).record (.started number)) :=
    asked.record (.started (Studio.effectsSince_record poised.grown _ ▸ idle)) nofun
  refine ⟨started.congr (by simp [journal]) (Studio.submit_scripts studio arguments), ?_, ?_, ?_⟩
  · rw [effects, submissions_plain _ rfl, submissions_submitted, poised.asked, requests]
  · intro other running
    rw [effects, Unended.append_singleton] at running
    rcases running with same | ⟨earlier, -⟩
    · cases same
      exact numbered.symm
    · exact absurd earlier (idle other)
  · intro first other
    rw [effects, submissions_plain _ rfl, submissions_submitted, poised.asked] at first
    have none := poised.unstarted (List.append_inj_left' first rfl) other
    rw [effects, numbered]
    simp [none]

end Poised

namespace Running

variable {plan : RenderPlan} {start studio : Studio} {attempt next : Attempt}

/-- Only the number of an attempt and its role count. -/
theorem congr (running : Running plan start studio attempt) (number : next.number = attempt.number)
    (requests : next.role.requests plan = attempt.role.requests plan) :
    Running plan start studio next where
  toOrderly := running.toOrderly
  asked := running.asked.trans requests.symm
  alone := number ▸ running.alone
  lone := number ▸ running.lone

theorem kill (running : Running plan start studio attempt) :
    Running plan start (studio.record (.killed attempt.number)) attempt := by
  have effects := Studio.effectsSince_record running.grown (.killed attempt.number)
  refine ⟨running.toOrderly.kill attempt.number, ?_, ?_, ?_⟩
  · rw [effects, submissions_plain _ rfl]
    exact running.asked
  · intro other left
    rw [effects, Unended.append_singleton] at left
    rcases left with started | ⟨earlier, -⟩
    · contradiction
    · exact running.alone other earlier
  · rw [effects, submissions_plain _ rfl]
    intro first other
    simpa using running.lone first other

theorem watch (running : Running plan start studio attempt) (cancelled : Bool) :
    Running plan start (attempt.watch cancelled studio).1 (attempt.watch cancelled studio).2 := by
  simp only [Attempt.watch]
  split
  · exact running.kill.congr rfl rfl
  · exact running

theorem take {piece : String} {rest : Process} {progress : Option Binary64}
    (running : Running plan start studio attempt)
    (takes : attempt.Takes next progress piece rest) : Running plan start studio next := by
  refine running.congr ?_ (Attempt.requests_of_take plan takes.taken)
  rw [Attempt.eq_of_take takes.taken]

/-- A process that is given up is killed before the script is removed. -/
theorem abandon (running : Running plan start studio attempt) :
    Orderly plan start ((studio.record (.killed attempt.number)).removeScript plan.scriptPath) := by
  apply running.kill.removeScript
  intro number left
  rw [Studio.effectsSince_record running.grown, LeftRunning.append_singleton] at left
  rcases left with started | ⟨earlier, unsettled⟩
  · contradiction
  · rw [running.alone number earlier.unended] at unsettled
    exact unsettled .killed

/-- A process that is waited for is the last one that ran. -/
theorem ended (running : Running plan start studio attempt) (code : Int) :
    Rested plan start (studio.record (.ended attempt.number code)) where
  toOrderly := running.toOrderly.record .ended nofun
  idle := by
    intro other left
    rw [Studio.effectsSince_record running.grown, Unended.append_singleton] at left
    rcases left with started | ⟨earlier, unended⟩
    · contradiction
    · rw [running.alone other earlier] at unended
      exact unended code rfl

/-- After the end of the first process and the removal of the script, the second process may be
asked for if the first one failed. -/
theorem poised {code : Int} (running : Running plan start studio attempt)
    (primary : attempt.role.requests plan = [plan.primaryArguments]) (failed : code ≠ 0) :
    Poised plan start
      ((studio.record (.ended attempt.number code)).removeScript plan.scriptPath)
      [plan.primaryArguments] plan.fallbackArguments := by
  have rested := (running.ended code).removeScript
  have first := running.asked.trans primary
  have effects := Studio.effectsSince_record running.grown (.ended attempt.number code)
  obtain ⟨deletions, removed, plain⟩ :=
    Studio.effectsSince_removeScript (running.ended code).grown plan.scriptPath
  rw [effects] at removed
  have asked : submissions (start.effectsSince ((studio.record
      (.ended attempt.number code)).removeScript plan.scriptPath)) = [plan.primaryArguments] := by
    rcases plain with rfl | ⟨effect, deletion, rfl⟩
    · rw [removed, List.append_nil, submissions_plain _ rfl, first]
    · rw [removed, submissions_plain _ deletion.plain, submissions_plain _ rfl, first]
  have lone (other : Nat) : .started other ∈ start.effectsSince ((studio.record
      (.ended attempt.number code)).removeScript plan.scriptPath) ↔ other = attempt.number := by
    rw [removed, ← running.lone first other]
    rcases plain with rfl | ⟨effect, deletion, rfl⟩
    · simp
    · cases deletion with
      | removed => simp
      | kept => simp
  have ended : .ended attempt.number code ∈ start.effectsSince ((studio.record
      (.ended attempt.number code)).removeScript plan.scriptPath) := by
    rw [removed]
    simp
  refine ⟨rested, asked, fun script => .fallback asked lone ended failed ?_, by simp⟩
  intro path named present
  rw [named]
  exact (running.ended code).toOrderly.removed_or_kept present

end Running

/-- What a run has done up to a phase. -/
inductive Chronicled (plan : RenderPlan) (start studio : Studio) : Supervision → Prop where
  | ready (poised : Poised plan start studio [] plan.primaryArguments) :
      Chronicled plan start studio .ready
  | reading {attempt : Attempt} (running : Running plan start studio attempt) :
      Chronicled plan start studio (.reading attempt)
  | reported {attempt : Attempt} (running : Running plan start studio attempt) :
      Chronicled plan start studio (.reported attempt)
  | waiting {attempt : Attempt} (running : Running plan start studio attempt) :
      Chronicled plan start studio (.waiting attempt)
  | announced {result : AttemptResult}
      (poised : Poised plan start studio [plan.primaryArguments] plan.fallbackArguments) :
      Chronicled plan start studio (.announced result)
  | concluded (rested : Rested plan start studio) : Chronicled plan start studio .concluded
  | finished (orderly : Orderly plan start studio) : Chronicled plan start studio .finished

namespace Chronicled

variable {plan : RenderPlan} {start studio : Studio} {phase : Supervision}

theorem orderly (chronicled : Chronicled plan start studio phase) : Orderly plan start studio := by
  cases chronicled with
  | ready poised => exact poised.toOrderly
  | reading running => exact running.toOrderly
  | reported running => exact running.toOrderly
  | waiting running => exact running.toOrderly
  | announced poised => exact poised.toOrderly
  | concluded rested => exact rested.toOrderly
  | finished orderly => exact orderly

/-- A run that has done nothing. -/
theorem initial (plan : RenderPlan) (start : Studio) : Chronicled plan start start .ready := by
  apply ready
  have none := Studio.effectsSince_self start
  refine ⟨⟨.refl plan start, ?_⟩, ?_, fun script => .primary ?_, ?_⟩
  · rw [none]
    exact fun other => Unended.not_nil
  · rw [none]
    rfl
  · rw [none]
    rfl
  · rw [none]
    exact fun _ other => List.not_mem_nil

end Chronicled

namespace SupervisedRender

variable {start studio after : Studio} {render now : SupervisedRender}
variable {step : Step SupervisedRender} {plan : RenderPlan} {events : List RenderEvent}

/-- What a render starts next may be asked for. -/
theorem poised_of_starts {arguments : List String} {role : AttemptRole}
    (chronicled : Chronicled render.plan start studio render.phase)
    (starts : render.Starts arguments role) :
    ∃ earlier, Poised render.plan start studio earlier arguments ∧
      role.requests render.plan = earlier ++ [arguments] := by
  cases starts with
  | primary phase =>
      rw [phase] at chronicled
      cases chronicled with
      | ready poised => exact ⟨_, poised, rfl⟩
  | fallback phase =>
      rw [phase] at chronicled
      cases chronicled with
      | announced poised => exact ⟨_, poised, rfl⟩

/-- Each step of a run keeps to the rules. -/
theorem chronicled_of_move (move : Move studio render step)
    (chronicled : Chronicled render.plan start studio render.phase) :
    Chronicled render.plan start step.studio step.state.phase := by
  cases move with
  | refused starts submitted =>
      obtain ⟨earlier, poised, -⟩ := poised_of_starts chronicled starts
      exact .finished (poised.refused submitted)
  | launched starts submitted =>
      obtain ⟨earlier, poised, requests⟩ := poised_of_starts chronicled starts
      exact .reading (poised.launched submitted rfl requests)
  | stuck phase =>
      rw [phase] at chronicled
      cases chronicled with
      | reading running => exact .reading (running.watch render.cancelled)
  | closed phase =>
      rw [phase] at chronicled
      cases chronicled with
      | reading running => exact .waiting (running.watch render.cancelled)
  | failed phase =>
      rw [phase] at chronicled
      cases chronicled with
      | reading running =>
          have killed := (running.watch render.cancelled).abandon
          rw [Attempt.watch_number] at killed
          exact .finished killed
  | silent phase takes =>
      rw [phase] at chronicled
      cases chronicled with
      | reading running => exact .reading ((running.watch render.cancelled).take takes)
  | progressed phase takes =>
      rw [phase] at chronicled
      cases chronicled with
      | reading running => exact .reported ((running.watch render.cancelled).take takes)
  | released phase =>
      rw [phase] at chronicled
      cases chronicled with
      | reported running => exact .reading running
  | @decided attempt _ _ waiting decides =>
      rw [waiting] at chronicled
      cases chronicled with
      | waiting running =>
          have running := running.watch render.cancelled
          have rested := (running.ended
            (attempt.watch render.cancelled studio).2.result.exitCode).removeScript
          cases decides with
          | cancelled => exact .concluded rested
          | succeeded => exact .concluded rested
          | announced _ failed primary =>
              exact .announced (running.poised (by rw [primary]; rfl) failed)
          | lost => exact .concluded rested
  | left phase =>
      rw [phase] at chronicled
      cases chronicled with
      | concluded rested => exact .finished rested.removeScript.toOrderly
  | idle phase => exact chronicled

theorem orderly_close (chronicled : Chronicled render.plan start studio render.phase) :
    Orderly render.plan start (close studio render).1 := by
  simp only [close]
  generalize render.phase = phase at chronicled
  cases chronicled with
  | ready poised => exact poised.toOrderly
  | reading running => exact running.abandon
  | reported running => exact running.abandon
  | waiting running => exact running.abandon
  | announced poised => exact poised.toRested.removeScript.toOrderly
  | concluded rested => exact rested.removeScript.toOrderly
  | finished orderly => exact orderly

theorem plan_of_move (move : Move studio render step) : step.state.plan = render.plan := by
  cases move with
  | _ => rfl

theorem chronicled_of_reaches
    (reached : producer.Reaches start { plan := plan } events after now) :
    now.plan = plan ∧ Chronicled plan start after now.phase := by
  refine reached.invariant
    (fun _ after now => now.plan = plan ∧ Chronicled plan start after now.phase) ?_ ?_ ?_
  · exact ⟨rfl, .initial plan start⟩
  · exact fun _ _ _ chronicled => chronicled
  · rintro _ after now ⟨rfl, chronicled⟩
    have move := move_of_resume after now
    exact ⟨plan_of_move move, chronicled_of_move move chronicled⟩

/-- Nothing is done any more in a render that is finished. -/
theorem eq_of_reaches_of_finished {more : List RenderEvent}
    (reached : producer.Reaches studio render more after now)
    (finished : render.phase = .finished) : after = studio := by
  have still : after = studio ∧ now.phase = .finished := by
    refine reached.invariant (fun _ after now => after = studio ∧ now.phase = .finished) ?_ ?_ ?_
    · exact ⟨rfl, finished⟩
    · exact fun _ _ _ still => still
    · rintro _ after now ⟨rfl, finished⟩
      simp [producer, resume, finished]
  exact still.1

/-- At every moment of a run, and when it is given up then, all that was done keeps to the rules:
at most the two processes were asked for, in order. A run that fails does nothing more. -/
theorem orderly_of_reaches
    (reached : producer.Reaches start { plan := plan } events after now) :
    (∀ studio, studio = after ∨ studio = (producer.close after now).1 →
      Orderly plan start studio ∧
        (submissions (start.effectsSince studio) = [] ∨
          submissions (start.effectsSince studio) = [plan.primaryArguments] ∨
          submissions (start.effectsSince studio) =
            [plan.primaryArguments, plan.fallbackArguments])) ∧
      ∀ failure, (producer.resume after now).signal = .failed failure →
        ∀ more last next, producer.Reaches (producer.resume after now).studio
          (producer.resume after now).state more last next →
            last = (producer.resume after now).studio := by
  obtain ⟨rfl, chronicled⟩ := chronicled_of_reaches reached
  constructor
  · rintro studio (rfl | rfl)
    · exact ⟨chronicled.orderly, submissions_of_follows chronicled.orderly.permitted⟩
    · have closed := orderly_close chronicled
      exact ⟨closed, submissions_of_follows closed.permitted⟩
  · intro failure failed more last next later
    exact eq_of_reaches_of_finished later
      (finished_of_move (move_of_resume after now) (.inr ⟨failure, failed⟩))

/-- A film with a script, and a black film instead. -/
def samplePlan : RenderPlan where
  primaryArguments := ["-filter_complex_script", "script.txt", "film.mp4"]
  fallbackArguments := ["-i", "black", "film.mp4"]
  output := "film.mp4"
  scriptPath := some "script.txt"

/-- A studio with the script where the first process fails. -/
def sampleStudio : Studio where
  scripts := { files := [("script.txt", "color=black [bg]")] }
  launches := [.started { exitCode := 1 }, .started {}]

theorem orderly_sampleRun :
    ∃ events after now,
      producer.Reaches sampleStudio { plan := samplePlan } events after now ∧
        sampleStudio.effectsSince after =
          [.submitted samplePlan.primaryArguments (some "color=black [bg]"), .started 0,
            .ended 0 1, .scriptRemoved "script.txt",
            .submitted samplePlan.fallbackArguments none, .started 1] ∧
        Orderly samplePlan sampleStudio after ∧
        Orderly samplePlan sampleStudio (producer.close after now).1 := by
  have reached := producer.reaches_play sampleStudio { plan := samplePlan }
    (List.replicate 4 .resume)
  have orderly := (orderly_of_reaches reached).1
  refine ⟨_, _, _, reached, ?_, (orderly _ (.inl rfl)).1, (orderly _ (.inr rfl)).1⟩
  decide +kernel

/-- The same studio where the first deletion fails. -/
def keepingStudio : Studio :=
  { sampleStudio with scripts := { sampleStudio.scripts with deletions := [false] } }

/-- The second process is asked for while the script is still there. -/
theorem kept_keepingStudio :
    ∃ events after now,
      producer.Reaches keepingStudio { plan := samplePlan } events after now ∧
        keepingStudio.effectsSince after =
          [.submitted samplePlan.primaryArguments (some "color=black [bg]"), .started 0,
            .ended 0 1, .scriptKept "script.txt",
            .submitted samplePlan.fallbackArguments none, .started 1] ∧
        samplePlan.scriptPath = some "script.txt" ∧
        after.scripts.files.has "script.txt" = true := by
  have reached := producer.reaches_play keepingStudio { plan := samplePlan }
    (List.replicate 4 .resume)
  refine ⟨_, _, _, reached, ?_, rfl, ?_⟩
  · decide +kernel
  · decide +kernel

end SupervisedRender

end Montage
