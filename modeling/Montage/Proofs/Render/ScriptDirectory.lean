import Montage.Proofs.Render.Cleanup

/-!
# What a write leaves in the directory of scripts

A write that succeeds adds one file, which holds the script. One that is refused before its file is
there changes nothing. One that is abandoned later leaves the file with the text that had reached
it, which is none where the script cannot be encoded. Only the writer knew the path of that file, so
the render cannot remove it.
-/

namespace Montage

namespace ScriptDirectory

/-- A write that adds one file with the script, or fails and changes no file. -/
def WritesCleanly (directory : ScriptDirectory) (path script : String) : Prop :=
  match directory.write path script with
  | (.ok (), after) => after.files = directory.files ++ [(path, script)]
  | (.error _, after) => after.files = directory.files

/-- What a write that fails leaves at its path: the file of one that is abandoned. -/
def remnant (directory : ScriptDirectory) (path script : String) : Table String :=
  match directory.outcome script with
  | .abandoned _ rest => [(path, rest)]
  | _ => []

variable {directory : ScriptDirectory} {path script : String}

/-- A script can be encoded if no half of a surrogate pair occurs in it. -/
theorem encodingFailure?_eq_none_iff :
    directory.encodingFailure? script = none ↔
      ∀ character ∈ script.toList, directory.isHalf character = false := by
  simp only [encodingFailure?, ite_eq_left_iff, reduceCtorEq, imp_false, not_not,
    List.isEmpty_iff]
  induction script.toList with
  | nil => simp
  | cons character rest ih =>
      cases half : directory.isHalf character with
      | true => simp [half]
      | false => simpa [half] using ih

/-- A write is abandoned if its file can be made and the script cannot be encoded, or can be and
does not reach the file. -/
theorem outcome_eq_abandoned_iff {failure : Failure} {rest : String} :
    directory.outcome script = .abandoned failure rest ↔
      directory.fault ≠ some .directory ∧ directory.fault ≠ some .creation ∧
          directory.encodingFailure? script = some failure ∧ "" = rest ∨
        directory.encodingFailure? script = none ∧ directory.fault = some (.content rest) ∧
          writeFailure = failure := by
  rw [outcome]
  cases encoded : directory.encodingFailure? script with
  | none =>
      cases directory.fault with
      | none => simp
      | some fault =>
          cases fault with
          | directory => simp
          | creation => simp
          | content written => simp [and_comm]
  | some reason =>
      cases directory.fault with
      | none => simp
      | some fault =>
          cases fault with
          | directory => simp
          | creation => simp
          | content written => simp

/-- A write at a fresh path succeeds and adds a file, or fails and leaves its remnant. -/
theorem write_cases (fresh : directory.files.has path = false) (script : String) :
    directory.write path script =
        (.ok (), { directory with files := directory.files ++ [(path, script)] }) ∨
      ∃ failure,
        (failure = writeFailure ∨ directory.encodingFailure? script = some failure) ∧
        directory.write path script =
          (.error failure,
            { directory with files := directory.files ++ directory.remnant path script }) := by
  rw [write, remnant]
  cases outcome : directory.outcome script with
  | written =>
      rw [Table.insert_of_not_has fresh]
      exact .inl rfl
  | refused failure =>
      refine .inr ⟨failure, .inl ?_, by rw [List.append_nil]⟩
      rw [ScriptDirectory.outcome] at outcome
      split at outcome
      all_goals cases outcome
      all_goals rfl
  | abandoned failure rest =>
      simp only [Table.insert_of_not_has fresh]
      refine .inr ⟨failure, ?_, rfl⟩
      rcases outcome_eq_abandoned_iff.mp outcome with ⟨-, -, unencoded, -⟩ | ⟨-, -, reported⟩
      · exact .inr unencoded
      · exact .inl reported.symm

theorem writesCleanly_iff (fresh : directory.files.has path = false) (script : String) :
    directory.WritesCleanly path script ↔
      ∀ failure rest, directory.outcome script ≠ .abandoned failure rest := by
  rw [WritesCleanly, write]
  cases directory.outcome script with
  | written => simp [Table.insert_of_not_has fresh]
  | refused => simp
  | abandoned => simp [Table.insert_of_not_has fresh]

end ScriptDirectory

namespace RenderStream

open ScriptDirectory

variable {studio after : Studio} {stream now : RenderStream} {job : RenderJob}
variable {events : List RenderEvent} {failure : Failure}

/-- What passes the check of a job is the script of its graph. -/
theorem script_of_check {order : RenderOrder} {script : String}
    (checked : check order job = .ok script) : job.graph.script = .ok script := by
  rw [check, bind_eq_ok] at checked
  obtain ⟨-, -, found⟩ := checked
  split at found
  · exact found
  · contradiction

end RenderStream

/-- What becomes of the files where the script of a graph is written at a fresh path. -/
structure Filter.Graph.WrittenTo (graph : Filter.Graph) (directory : ScriptDirectory)
    (path : String) : Prop where
  /-- A write that returns adds one file, which holds the script. -/
  returned : ∀ script, graph.script = .ok script →
    (directory.write path script).1 = .ok () →
      (directory.write path script).2.files = directory.files ++ [(path, script)]
  /-- A write that fails reports that the script could not be written or encoded, and adds its
  remnant. -/
  raised : ∀ script, graph.script = .ok script → ∀ failure,
    (directory.write path script).1 = .error failure →
      (failure = ScriptDirectory.writeFailure ∨
          directory.encodingFailure? script = some failure) ∧
        (directory.write path script).2.files =
          directory.files ++ directory.remnant path script
  /-- A script that can be encoded is written cleanly, unless its write breaks off when the file is
  there. -/
  clean : ∀ script, graph.script = .ok script → directory.encodingFailure? script = none →
    (directory.WritesCleanly path script ↔
      ∀ written, directory.fault ≠ some (.content written))
  /-- One that cannot be encoded is written cleanly only where no file can be made for it. -/
  halved : ∀ script, graph.script = .ok script → directory.encodingFailure? script ≠ none →
    (directory.WritesCleanly path script ↔
      directory.fault = some .directory ∨ directory.fault = some .creation)
  /-- A graph without a script touches nothing. -/
  unscripted : ∀ failure, graph.script = .error failure →
    ∀ (studio : Studio) (stream : RenderStream) (job : RenderJob),
      stream.phase = .prepared job → job.graph = graph →
        (RenderStream.resume studio stream).studio = studio
  /-- The render whose write fails goes on without the path, so the remnant is there for good,
  however the render is read and wherever it is given up. -/
  kept : ∀ (studio : Studio) (stream : RenderStream) (job : RenderJob) (script : String)
    (failure : Failure), studio.scripts = directory → stream.order.scriptPath = path →
      stream.phase = .prepared job → job.graph = graph →
      RenderStream.check stream.order job = .ok script →
      (directory.write path script).1 = .error failure →
        ∀ events after now,
          RenderStream.producer.Reaches (RenderStream.resume studio stream).studio
              (RenderStream.resume studio stream).state events after now →
            after.scripts.files = directory.files ++ directory.remnant path script ∧
              (RenderStream.close after now).1.scripts.files =
                directory.files ++ directory.remnant path script

theorem Filter.Graph.writtenTo (graph : Filter.Graph) {directory : ScriptDirectory}
    {path : String} (fresh : directory.files.has path = false) :
    graph.WrittenTo directory path where
  returned script _ returns := by
    rcases ScriptDirectory.write_cases fresh script with written | ⟨failure, -, failed⟩
    · rw [written]
    · rw [failed] at returns
      contradiction
  raised script _ failure raises := by
    rcases ScriptDirectory.write_cases fresh script with written | ⟨other, reason, failed⟩
    · rw [written] at raises
      contradiction
    · rw [failed] at raises ⊢
      cases raises
      exact ⟨reason, rfl⟩
  clean script _ encoded := by
    simp only [ScriptDirectory.writesCleanly_iff fresh, ne_eq,
      ScriptDirectory.outcome_eq_abandoned_iff, encoded]
    simp
  halved script _ unencoded := by
    obtain ⟨reason, unencoded⟩ := Option.ne_none_iff_exists'.mp unencoded
    rw [ScriptDirectory.writesCleanly_iff fresh]
    constructor
    · intro clean
      by_contra made
      rw [not_or] at made
      exact clean reason ""
        (ScriptDirectory.outcome_eq_abandoned_iff.mpr (.inl ⟨made.1, made.2, unencoded, rfl⟩))
    · rintro unmade failure rest abandoned
      rcases ScriptDirectory.outcome_eq_abandoned_iff.mp abandoned with
        ⟨directory, creation, -⟩ | ⟨encoded, -⟩
      · exact unmade.elim directory creation
      · simp [unencoded] at encoded
  unscripted failure refused studio stream job phase same := by
    subst same
    simp only [RenderStream.resume, phase, RenderStream.plan]
    split
    next => rfl
    next script checked => cases refused.symm.trans (RenderStream.script_of_check checked)
  kept studio stream job script failure same place phase _ checked raises events after now
      reached := by
    subst same place
    obtain ⟨outcome, scripts⟩ := studio.writeScript_eq stream.order.scriptPath script
    rw [RenderStream.resume_of_unwritten phase checked (outcome.trans raises)] at reached
    obtain ⟨kept, closed⟩ := RenderStream.scripts_of_failing rfl reached
    rcases ScriptDirectory.write_cases fresh script with written | ⟨other, -, failed⟩
    · rw [written] at raises
      contradiction
    · have files : (studio.writeScript stream.order.scriptPath script).2.scripts.files =
          studio.scripts.files ++ studio.scripts.remnant stream.order.scriptPath script := by
        rw [scripts, failed]
      exact ⟨(congrArg ScriptDirectory.files kept).trans files,
        (congrArg ScriptDirectory.files closed).trans files⟩

/-- A directory on a disk that is full as soon as a part of the script is written. -/
def fullDirectory : ScriptDirectory where
  files := [("other.txt", "[bg]")]
  fault := some (.content "color=")

theorem abandons_fullDirectory (script : String) :
    fullDirectory.outcome script = .abandoned ScriptDirectory.writeFailure "color=" := by
  have encoded : fullDirectory.encodingFailure? script = none :=
    ScriptDirectory.encodingFailure?_eq_none_iff.mpr fun _ _ => rfl
  exact ScriptDirectory.outcome_eq_abandoned_iff.mpr (.inr ⟨encoded, rfl, rfl⟩)

/-- A film that is black throughout. -/
def blackGraph : Filter.Graph where
  stages := [.background { output := "bg", width := 640, height := 360, duration := 5 }]
  outputs := { video := "bg", audio := none }
  audioBranches := []

theorem not_writesCleanly_fullDirectory :
    ∃ script, blackGraph.script = .ok script ∧
      fullDirectory.files.has "script.txt" = false ∧
      (fullDirectory.write "script.txt" script).1 = .error ScriptDirectory.writeFailure ∧
      (fullDirectory.write "script.txt" script).2.files =
        fullDirectory.files ++ [("script.txt", "color=")] ∧
      ¬fullDirectory.WritesCleanly "script.txt" script := by
  have scripted : ∃ script ∈ blackGraph.script.toOption, True := by decide +kernel
  obtain ⟨script, member, -⟩ := scripted
  have fresh : fullDirectory.files.has "script.txt" = false := by decide
  refine ⟨script, mem_toOption.mp member, fresh, ?_, ?_, ?_⟩
  · rw [ScriptDirectory.write, abandons_fullDirectory]
  · rw [ScriptDirectory.write, abandons_fullDirectory]
    rfl
  · rw [ScriptDirectory.writesCleanly_iff fresh]
    exact fun clean => clean _ _ (abandons_fullDirectory script)

/-- The sample render fails for want of room, and the file of its script is there to stay. -/
theorem Filter.Graph.writtenTo_fullDirectory :
    fullDirectory.files.has "script.txt" = false ∧
      ∃ job script, RenderStream.check RenderStream.sampleOrder job = .ok script ∧
        job.graph.WrittenTo fullDirectory "script.txt" ∧
        ∀ events after now,
          RenderStream.producer.Reaches
              (RenderStream.resume { scripts := fullDirectory }
                { order := RenderStream.sampleOrder, phase := .prepared job }).studio
              (RenderStream.resume { scripts := fullDirectory }
                { order := RenderStream.sampleOrder, phase := .prepared job }).state
              events after now →
            after.scripts.files = [("other.txt", "[bg]"), ("script.txt", "color=")] := by
  have fresh : fullDirectory.files.has "script.txt" = false := by decide
  have found : ∃ job ∈ (RenderJob.prepare RenderStream.sampleOrder.workplace
      RenderStream.sampleOrder.payload RenderStream.sampleOrder.output).toOption,
        ∃ script ∈ (RenderStream.check RenderStream.sampleOrder job).toOption, True := by
    decide +kernel
  obtain ⟨job, -, script, member, -⟩ := found
  have checked := mem_toOption.mp member
  have written := job.graph.writtenTo fresh
  refine ⟨fresh, job, script, checked, written, ?_⟩
  intro events after now reached
  have raises : (fullDirectory.write "script.txt" script).1 =
      .error ScriptDirectory.writeFailure := by
    rw [ScriptDirectory.write, abandons_fullDirectory]
  have kept := written.kept _ _ job script _ rfl rfl rfl rfl checked raises events after now reached
  rw [kept.1, ScriptDirectory.remnant, abandons_fullDirectory]
  rfl

end Montage
