import Mathlib
import Montage.Render.Studio

/-!
# What a render does to the studio

Each operation on the studio touches a part of it and leaves the others. The journal only grows,
so what happens to a process can be read off the effects behind its start.
-/

namespace Montage

/-- Every deletion succeeds. -/
def ScriptDirectory.Deletes (directory : ScriptDirectory) : Prop :=
  false ∉ directory.deletions

/-- An effect of a deletion, which may have failed. -/
inductive Effect.IsDeletion : Effect → Prop where
  | removed (path : String) : IsDeletion (.scriptRemoved path)
  | kept (path : String) : IsDeletion (.scriptKept path)

namespace Studio

@[simp] theorem record_gate (studio : Studio) (effect : Effect) :
    (studio.record effect).gate = studio.gate := rfl

@[simp] theorem record_scripts (studio : Studio) (effect : Effect) :
    (studio.record effect).scripts = studio.scripts := rfl

@[simp] theorem record_launches (studio : Studio) (effect : Effect) :
    (studio.record effect).launches = studio.launches := rfl

@[simp] theorem record_journal (studio : Studio) (effect : Effect) :
    (studio.record effect).journal = studio.journal ++ [effect] := rfl

@[simp] theorem releaseGate_scripts (studio : Studio) :
    studio.releaseGate.scripts = studio.scripts := rfl

@[simp] theorem releaseGate_journal (studio : Studio) :
    studio.releaseGate.journal = studio.journal := rfl

@[simp] theorem releaseGate_gate (studio : Studio) :
    studio.releaseGate.gate.busy = false := rfl

/-- The effects on a studio since it was in another state. -/
def effectsSince (start studio : Studio) : List Effect :=
  studio.journal.drop start.journal.length

theorem effectsSince_of_journal {start studio : Studio} {effects : List Effect}
    (journal : studio.journal = start.journal ++ effects) :
    start.effectsSince studio = effects := by
  rw [effectsSince, journal, List.drop_left]

theorem effectsSince_self (studio : Studio) : studio.effectsSince studio = [] :=
  List.drop_length

theorem effectsSince_append {start studio after : Studio} {effects : List Effect}
    (grown : start.journal <+: studio.journal)
    (journal : after.journal = studio.journal ++ effects) :
    start.effectsSince after = start.effectsSince studio ++ effects := by
  rw [effectsSince, journal, List.drop_append_of_le_length grown.length_le]
  rfl

theorem effectsSince_trans {start studio after : Studio} (grown : start.journal <+: studio.journal)
    (later : studio.journal <+: after.journal) :
    start.effectsSince after = start.effectsSince studio ++ studio.effectsSince after := by
  obtain ⟨effects, journal⟩ := later
  rw [effectsSince_of_journal journal.symm, effectsSince_append grown journal.symm]

theorem effectsSince_record {start studio : Studio} (grown : start.journal <+: studio.journal)
    (effect : Effect) :
    start.effectsSince (studio.record effect) = start.effectsSince studio ++ [effect] :=
  effectsSince_append grown rfl

section Submission

variable (studio : Studio) (arguments : List String)

@[simp] theorem submit_gate : (studio.submit arguments).2.gate = studio.gate := by
  simp only [submit]
  split <;> rfl

@[simp] theorem submit_scripts : (studio.submit arguments).2.scripts = studio.scripts := by
  simp only [submit]
  split <;> rfl

/-- What a process that is asked for finds at the path that its arguments name. -/
def submittedScript : Option String :=
  (scriptPath? arguments).bind studio.scripts.files.find?

theorem submit_journal_of_error {failure : Failure}
    (refused : (studio.submit arguments).1 = .error failure) :
    (studio.submit arguments).2.journal =
      studio.journal ++ [.submitted arguments (studio.submittedScript arguments)] := by
  simp only [submit] at refused ⊢
  split
  next => rfl
  next => rfl
  next launches => simp [launches] at refused

theorem submit_journal_of_ok {number : Nat} {process : Process}
    (started : (studio.submit arguments).1 = .ok (number, process)) :
    (studio.submit arguments).2.journal =
      studio.journal ++
        [.submitted arguments (studio.submittedScript arguments), .started number] := by
  simp only [submit] at started ⊢
  split
  next launches => simp [launches] at started
  next launches => simp [launches] at started
  next launches =>
    simp only [launches, Except.ok.injEq, Prod.mk.injEq] at started
    simp [started.1, submittedScript]

end Submission

/-- What deleting a script can do. -/
inductive Removes (studio : Studio) : Option String → Studio → Prop where
  | idle {path : Option String}
      (absent : ∀ name, path = some name → studio.scripts.files.has name = false) :
      Removes studio path studio
  | removed {name : String} (present : studio.scripts.files.has name = true) :
      Removes studio (some name)
        ({ studio with
            scripts :=
              { studio.scripts with
                files := studio.scripts.files.filter (·.1 != name)
                deletions := studio.scripts.deletions.tail } }.record
          (.scriptRemoved name))
  | kept {name : String} {later : List Bool} (present : studio.scripts.files.has name = true)
      (refused : studio.scripts.deletions = false :: later) :
      Removes studio (some name)
        ({ studio with scripts := { studio.scripts with deletions := later } }.record
          (.scriptKept name))

theorem removes_removeScript (studio : Studio) (path : Option String) :
    studio.Removes path (studio.removeScript path) := by
  cases path with
  | none => exact .idle nofun
  | some name =>
      simp only [removeScript]
      split
      next present =>
        simp only [ScriptDirectory.remove, present, if_true]
        split
        next later refused =>
          rw [if_pos present]
          exact .kept present refused
        next =>
          rw [if_neg (by simp [Table.has_filter_ne])]
          exact .removed present
      next absent =>
        refine .idle fun other same => ?_
        cases same
        exact Bool.eq_false_iff.mpr absent

section Removal

variable {studio after : Studio} {path : Option String}

theorem Removes.gate (removes : studio.Removes path after) : after.gate = studio.gate := by
  cases removes with
  | _ => rfl

theorem Removes.launches (removes : studio.Removes path after) :
    after.launches = studio.launches := by
  cases removes with
  | _ => rfl

/-- A deletion is recorded at most. -/
theorem Removes.journal (removes : studio.Removes path after) :
    after.journal = studio.journal ∨
      ∃ effect, effect.IsDeletion ∧ after.journal = studio.journal ++ [effect] := by
  cases removes with
  | idle => exact .inl rfl
  | removed => exact .inr ⟨_, .removed _, rfl⟩
  | kept => exact .inr ⟨_, .kept _, rfl⟩

@[simp] theorem removeScript_gate (studio : Studio) (path : Option String) :
    (studio.removeScript path).gate = studio.gate :=
  (studio.removes_removeScript path).gate

@[simp] theorem removeScript_launches (studio : Studio) (path : Option String) :
    (studio.removeScript path).launches = studio.launches :=
  (studio.removes_removeScript path).launches

end Removal

/-- What writing a script can do, with what it returns. -/
inductive Writes (studio : Studio) (path script : String) : Except Failure Unit × Studio → Prop where
  | written (outcome : studio.scripts.outcome script = .written) :
      Writes studio path script
        (.ok (),
          { studio with
            scripts :=
              { studio.scripts with files := studio.scripts.files.insert path script } }.record
            (.scriptWritten path))
  | refused {failure : Failure} (outcome : studio.scripts.outcome script = .refused failure) :
      Writes studio path script (.error failure, studio)
  | abandoned {failure : Failure} {rest : String}
      (outcome : studio.scripts.outcome script = .abandoned failure rest) :
      Writes studio path script
        (.error failure,
          { studio with
            scripts :=
              { studio.scripts with files := studio.scripts.files.insert path rest } }.record
            (.scriptAbandoned path))

theorem writes_writeScript (studio : Studio) (path script : String) :
    studio.Writes path script (studio.writeScript path script) := by
  cases outcome : studio.scripts.outcome script with
  | written =>
      simp only [writeScript, ScriptDirectory.write, outcome]
      exact .written outcome
  | refused failure =>
      simp only [writeScript, ScriptDirectory.write, outcome]
      exact .refused outcome
  | abandoned failure rest =>
      simp only [writeScript, ScriptDirectory.write, outcome]
      exact .abandoned outcome

section Writing

variable {studio : Studio} {path script : String} {result : Except Failure Unit × Studio}

theorem Writes.gate (writes : studio.Writes path script result) :
    result.2.gate = studio.gate := by
  cases writes with
  | _ => rfl

theorem Writes.launches (writes : studio.Writes path script result) :
    result.2.launches = studio.launches := by
  cases writes with
  | _ => rfl

@[simp] theorem writeScript_gate (studio : Studio) (path script : String) :
    (studio.writeScript path script).2.gate = studio.gate :=
  (studio.writes_writeScript path script).gate

@[simp] theorem writeScript_launches (studio : Studio) (path script : String) :
    (studio.writeScript path script).2.launches = studio.launches :=
  (studio.writes_writeScript path script).launches

/-- The outcome of a write and the scripts after it are those of the directory. -/
theorem writeScript_eq (studio : Studio) (path script : String) :
    (studio.writeScript path script).1 = (studio.scripts.write path script).1 ∧
      (studio.writeScript path script).2.scripts = (studio.scripts.write path script).2 := by
  simp only [writeScript, ScriptDirectory.write]
  cases studio.scripts.outcome script with
  | written => exact ⟨rfl, rfl⟩
  | refused => exact ⟨rfl, rfl⟩
  | abandoned => exact ⟨rfl, rfl⟩

end Writing

end Studio

/-! ## Processes in a journal -/

/-- An effect that ends the care for a process: the process is killed or waited for. -/
inductive Effect.Settles (number : Nat) : Effect → Prop where
  | killed : Settles number (.killed number)
  | ended (code : Int) : Settles number (.ended number code)

/-- A process that is started and neither killed nor waited for afterwards. -/
def LeftRunning (number : Nat) (effects : List Effect) : Prop :=
  ∃ before after, effects = before ++ .started number :: after ∧
    ∀ effect ∈ after, ¬effect.Settles number

/-- A process that is started and not waited for afterwards. It may have been killed. -/
def Unended (number : Nat) (effects : List Effect) : Prop :=
  ∃ before after, effects = before ++ .started number :: after ∧
    ∀ effect ∈ after, ∀ code, effect ≠ .ended number code

/-- One more element starts what is looked for, or leaves open what was started and is open. -/
theorem exists_split_append_singleton {α : Type} {items : List α} {last first : α}
    {open' : α → Prop} :
    (∃ before after, items ++ [last] = before ++ first :: after ∧ ∀ item ∈ after, open' item) ↔
      last = first ∨
        ((∃ before after, items = before ++ first :: after ∧ ∀ item ∈ after, open' item) ∧
          open' last) := by
  constructor
  · rintro ⟨before, after, equal, unsettled⟩
    rcases List.eq_nil_or_concat' after with rfl | ⟨earlier, final, rfl⟩
    · obtain ⟨-, same⟩ := List.append_inj' equal rfl
      exact .inl (List.cons.inj same).1
    · rw [← List.cons_append, ← List.append_assoc] at equal
      obtain ⟨rfl, same⟩ := List.append_inj' equal rfl
      cases same
      refine .inr ⟨⟨before, earlier, rfl, fun item member => ?_⟩, ?_⟩
      · exact unsettled item (List.mem_append_left _ member)
      · exact unsettled last (List.mem_append_right _ List.mem_cons_self)
  · rintro (rfl | ⟨⟨before, after, rfl, unsettled⟩, unsettledLast⟩)
    · exact ⟨items, [], rfl, by simp⟩
    · refine ⟨before, after ++ [last], by simp, fun item member => ?_⟩
      rcases List.mem_append.mp member with earlier | final
      · exact unsettled item earlier
      · rw [List.mem_singleton.mp final]
        exact unsettledLast

namespace LeftRunning

variable {number : Nat} {effects : List Effect} {effect : Effect}

theorem not_nil : ¬LeftRunning number [] := by
  rintro ⟨before, after, equal, -⟩
  simp at equal

/-- One more effect starts a process, or leaves running what was running and is not settled. -/
theorem append_singleton :
    LeftRunning number (effects ++ [effect]) ↔
      effect = .started number ∨ (LeftRunning number effects ∧ ¬effect.Settles number) :=
  exists_split_append_singleton

/-- More effects start a process, or leave running what was running and is not settled by them. -/
theorem append {later : List Effect} :
    LeftRunning number (effects ++ later) ↔
      LeftRunning number later ∨
        (LeftRunning number effects ∧ ∀ effect ∈ later, ¬effect.Settles number) := by
  induction later using List.reverseRecOn with
  | nil => simp [not_nil]
  | append_singleton later last ih =>
      rw [← List.append_assoc, append_singleton, append_singleton, ih]
      simp only [List.forall_mem_append, List.forall_mem_singleton]
      tauto

/-- What is neither killed nor waited for is not waited for. -/
theorem unended (running : LeftRunning number effects) : Unended number effects := by
  obtain ⟨before, after, equal, unsettled⟩ := running
  refine ⟨before, after, equal, fun effect member code ended => ?_⟩
  rw [ended] at member
  exact unsettled _ member (.ended code)

end LeftRunning

namespace Unended

variable {number : Nat} {effects : List Effect} {effect : Effect}

theorem not_nil : ¬Unended number [] := by
  rintro ⟨before, after, equal, -⟩
  simp at equal

theorem append_singleton :
    Unended number (effects ++ [effect]) ↔
      effect = .started number ∨
        (Unended number effects ∧ ∀ code, effect ≠ .ended number code) :=
  exists_split_append_singleton

end Unended

end Montage
