import Montage.Proofs.Filter.Numeral
import Montage.Proofs.Filter.Quotation

/-!
# Statements in a script

The statement of a stage stays one statement in a script and keeps its labels if its own texts
close their quotes and hold no marks of a script outside them. Numbers never hold such marks.
-/

namespace Montage.Filter

/-- The characters that shape a script outside quotes. -/
def scriptMarks : List Char := [';', '[', ']']

variable {text : List Char} {number : Number}

/-- Plain texts hold no marks. -/
theorem Closed.of_isPlain (plain : Plain text) : Closed scriptMarks text := by
  refine .of_plain fun character member => ?_
  have kind := Plain.iff_forall_mem.mp plain character member
  constructor
  · rintro rfl
    contradiction
  · intro mark
    simp only [scriptMarks, List.mem_cons, List.not_mem_nil, or_false] at mark
    rcases mark with rfl | rfl | rfl
    all_goals contradiction

/-- A text that may stand in a statement without shaping the script. -/
abbrev Inert (text : String) : Prop :=
  Closed scriptMarks text.toList

namespace Inert

variable {left right : String}

theorem append (first : Inert left) (second : Inert right) : Inert (left ++ right) := by
  rw [Inert, String.toList_append]
  exact Closed.append first second

theorem literal (number : Number) : Inert (Filter.literal number) :=
  .of_isPlain (plain_literal number)

theorem numeral {text : String} (written : Filter.numeral number = .ok text) : Inert text :=
  .of_isPlain (plain_numeral written)

/-- Between quotes any text without a quote is inert, whatever inert text stands before. -/
theorem quoted (before : Inert left) (plain : '\'' ∉ right.toList) :
    Inert (left ++ "'" ++ right ++ "'") := by
  have quote : "'".toList = ['\''] := by decide +kernel
  have parts : (left ++ "'" ++ right ++ "'").toList =
      left.toList ++ ('\'' :: right.toList ++ ['\'']) := by
    simp only [String.toList_append, quote, List.append_assoc, List.cons_append, List.nil_append]
  rw [Inert, parts]
  exact Closed.append before (Closed.of_quoted plain)

/-- Inert texts with an inert text between them are inert together. -/
theorem intercalate {parts : List String} (gap : Inert left) (inert : ∀ part ∈ parts, Inert part) :
    Inert (left.intercalate parts) := by
  rw [Inert, String.toList_intercalate]
  exact Closed.intercalate gap (List.forall_mem_map.mpr inert)

end Inert

/-! ## Bodies -/

/-- A number with a numeral. -/
def HasNumeral (number : Number) : Prop :=
  ∃ text, numeral number = .ok text

theorem hasNumeral_real (value : Binary64) : HasNumeral (.real value) :=
  numeral_real value

/-- What keeps the statement of a text stage together. The text and the font file stand between
quotes, everything else stands outside. -/
structure DrawText.Sealed (stage : DrawText) : Prop where
  fontSize : HasNumeral stage.fontSize
  start : HasNumeral stage.start
  finish : HasNumeral stage.finish
  text : '\'' ∉ stage.text.toList
  fontFile : '\'' ∉ stage.fontFile.toList
  fontColor : Inert stage.fontColor
  x : Inert stage.x
  y : Inert stage.y
  shadowColor : Inert stage.shadowColor

/-- What keeps the statement of a stage together: its numbers have numerals, and its texts cannot
end it. -/
def Stage.Sealed : Stage → Prop
  | .background stage => HasNumeral stage.duration ∧ Inert stage.color
  | .trim stage => HasNumeral stage.duration
  | .scale stage => HasNumeral stage.rotation
  | .overlay stage => HasNumeral stage.start ∧ HasNumeral stage.finish
  | .drawBox stage => HasNumeral stage.start ∧ HasNumeral stage.finish ∧ Inert stage.color
  | .drawText stage => stage.Sealed
  | .volume stage => HasNumeral stage.factor
  | .delay stage => HasNumeral stage.milliseconds
  | .mix stage => Inert stage.duration

/-- Times with numerals give a condition, which is inert. -/
theorem exists_enableOption {start finish : Number} (first : HasNumeral start)
    (last : HasNumeral finish) : ∃ text, enableOption start finish = .ok text ∧ Inert text := by
  obtain ⟨first, written⟩ := first
  obtain ⟨last, written'⟩ := last
  have conditioned : enableWindow start finish =
      .ok ("between(t," ++ first ++ "," ++ last ++ ")") :=
    bind_eq_ok.mpr ⟨first, written, bind_eq_ok.mpr ⟨last, written', rfl⟩⟩
  refine ⟨_, bind_eq_ok.mpr ⟨_, conditioned, rfl⟩, ?_⟩
  have opening : "enable='" = "enable=" ++ "'" := by decide +kernel
  have plain : '\'' ∉ "between(t,".toList ∧ '\'' ∉ ",".toList ∧ '\'' ∉ ")".toList := by
    decide +kernel
  rw [opening]
  refine .quoted (by decide +kernel) ?_
  simp only [String.toList_append, List.mem_append, not_or]
  exact ⟨⟨⟨⟨plain.1, (plain_numeral written).not_mem rfl⟩, plain.2.1⟩,
    (plain_numeral written').not_mem rfl⟩, plain.2.2⟩

theorem quote_not_mem_escapePath {path : String} (plain : '\'' ∉ path.toList) :
    '\'' ∉ (escapePath path).toList := by
  rw [escapePath, String.toList_ofList, List.mem_flatMap]
  rintro ⟨character, member, written⟩
  split at written
  · simp at written
  · split at written
    · simp at written
    · exact plain (List.mem_singleton.mp written ▸ member)

theorem exists_trimBody {stage : Trim} (duration : HasNumeral stage.duration) :
    ∃ body, trimBody stage = .ok body ∧ Inert body := by
  obtain ⟨duration, written⟩ := duration
  rw [trimBody, written]
  cases stage.audio with
  | false =>
      refine ⟨_, rfl, ?_⟩
      exact Inert.append (by decide +kernel) (.numeral written) |>.append (by decide +kernel)
  | true =>
      refine ⟨_, rfl, ?_⟩
      exact Inert.append (by decide +kernel) (.numeral written) |>.append (by decide +kernel)

theorem exists_scaleBody {stage : Scale} (rotation : HasNumeral stage.rotation) :
    ∃ body, scaleBody stage = .ok body ∧ Inert body := by
  obtain ⟨angle, written⟩ := rotation
  have body : Inert ("scale=" ++ literal stage.width ++ ":" ++ literal stage.height ++
      ":force_original_aspect_ratio=decrease") :=
    Inert.append (by decide +kernel) (.literal _) |>.append (by decide +kernel)
      |>.append (.literal _) |>.append (by decide +kernel)
  simp only [scaleBody]
  split
  · exact ⟨_, rfl, body⟩
  · refine ⟨_, bind_eq_ok.mpr ⟨angle, written, rfl⟩, ?_⟩
    exact body.append (by decide +kernel) |>.append (.numeral written)
      |>.append (by decide +kernel)

theorem exists_drawTextOptions {stage : DrawText} (sealed : stage.Sealed) :
    ∃ options, drawTextOptions stage = .ok options ∧ ∀ option ∈ options, Inert option := by
  obtain ⟨size, written⟩ := sealed.fontSize
  obtain ⟨enabled, conditioned, inert⟩ := exists_enableOption sealed.start sealed.finish
  have spacing : ∀ option ∈ if stage.lineSpacing.isZero then []
      else ["line_spacing=" ++ literal stage.lineSpacing], Inert option := by
    split
    · simp
    · simpa using Inert.append (by decide +kernel) (.literal _)
  have opening : "drawtext=text='" = "drawtext=text=" ++ "'" := by decide +kernel
  have file : "fontfile='" = "fontfile=" ++ "'" := by decide +kernel
  refine ⟨_, bind_eq_ok.mpr ⟨size, written, bind_eq_ok.mpr ⟨enabled, conditioned, rfl⟩⟩, ?_⟩
  simp only [List.forall_mem_append, List.forall_mem_cons]
  refine ⟨⟨⟨?_, by decide +kernel, ?_, ?_, ?_, ?_, ?_, by simp⟩, spacing⟩,
    ?_, ?_, ?_, inert, by simp⟩
  · exact opening ▸ .quoted (by decide +kernel) sealed.text
  · exact .append (by decide +kernel) (.numeral written)
  · exact .append (by decide +kernel) sealed.fontColor
  · exact file ▸ .quoted (by decide +kernel) (quote_not_mem_escapePath sealed.fontFile)
  · exact .append (by decide +kernel) sealed.x
  · exact .append (by decide +kernel) sealed.y
  · exact .append (by decide +kernel) sealed.shadowColor
  · exact .append (by decide +kernel) (.literal _)
  · exact .append (by decide +kernel) (.literal _)

namespace Stage

/-- The filter of a sealed stage is inert. -/
theorem exists_body {stage : Stage} (sealed : stage.Sealed) :
    ∃ body, stage.body = .ok body ∧ Inert body := by
  cases stage with
  | background stage =>
      obtain ⟨⟨duration, written⟩, color⟩ := sealed
      refine ⟨_, bind_eq_ok.mpr ⟨duration, written, rfl⟩, ?_⟩
      exact Inert.append (by decide +kernel) color |>.append (by decide +kernel)
        |>.append (.literal _) |>.append (by decide +kernel) |>.append (.literal _)
        |>.append (by decide +kernel) |>.append (.numeral written) |>.append (by decide +kernel)
        |>.append (.literal _)
  | trim stage => exact exists_trimBody sealed
  | scale stage => exact exists_scaleBody sealed
  | overlay stage =>
      obtain ⟨enabled, conditioned, inert⟩ := exists_enableOption sealed.1 sealed.2
      refine ⟨_, bind_eq_ok.mpr ⟨enabled, conditioned, rfl⟩, ?_⟩
      exact Inert.append (by decide +kernel) (.literal _) |>.append (by decide +kernel)
        |>.append (.literal _) |>.append (by decide +kernel) |>.append inert
  | drawBox stage =>
      obtain ⟨start, finish, color⟩ := sealed
      obtain ⟨enabled, conditioned, inert⟩ := exists_enableOption start finish
      refine ⟨_, bind_eq_ok.mpr ⟨enabled, conditioned, rfl⟩, ?_⟩
      exact Inert.append (by decide +kernel) (.literal _) |>.append (by decide +kernel)
        |>.append (.literal _) |>.append (by decide +kernel) |>.append (.literal _)
        |>.append (by decide +kernel) |>.append (.literal _) |>.append (by decide +kernel)
        |>.append color |>.append (by decide +kernel) |>.append inert
  | drawText stage =>
      obtain ⟨options, written, inert⟩ := exists_drawTextOptions sealed
      exact ⟨_, bind_eq_ok.mpr ⟨options, written, rfl⟩, .intercalate (by decide +kernel) inert⟩
  | volume stage =>
      obtain ⟨factor, written⟩ := sealed
      refine ⟨_, bind_eq_ok.mpr ⟨factor, written, rfl⟩, ?_⟩
      exact .append (by decide +kernel) (.numeral written)
  | delay stage =>
      obtain ⟨delay, written⟩ := sealed
      refine ⟨_, bind_eq_ok.mpr ⟨delay, written, rfl⟩, ?_⟩
      exact Inert.append (by decide +kernel) (.numeral written) |>.append (by decide +kernel)
        |>.append (.numeral written)
  | mix stage =>
      refine ⟨_, rfl, ?_⟩
      exact Inert.append (by decide +kernel) (.of_isPlain (plain_natText _))
        |>.append (by decide +kernel) |>.append sealed

end Stage

/-! ## Statements -/

theorem toList_bracketed (name : String) :
    (bracketed name).toList = '[' :: (name.toList ++ [']']) := by
  have brackets : "[".toList = ['['] ∧ "]".toList = [']'] := by decide +kernel
  rw [bracketed, String.toList_append, String.toList_append, brackets.1, brackets.2]
  rfl

/-- Plain labels in brackets read as labels. -/
theorem enclosedLabels_brackets {names : List String} (more : List Char)
    (plain : ∀ name ∈ names, Plain name.toList) :
    enclosedLabels none ((names.map bracketed).flatMap String.toList ++ more) =
      names ++ enclosedLabels none more := by
  induction names with
  | nil => rfl
  | cons name rest ih =>
      obtain ⟨head, tail⟩ := List.forall_mem_cons.mp plain
      simp only [List.map_cons, List.flatMap_cons, toList_bracketed, List.append_assoc,
        List.cons_append, List.nil_append]
      rw [enclosedLabels, if_pos rfl, enclosedLabels_some_append _ (head.not_mem rfl),
        ih tail, List.nil_append, String.ofList_toList]

/-- Plain labels in brackets are made of brackets and plain characters. -/
theorem mem_brackets {names : List String} {character : Char}
    (plain : ∀ name ∈ names, Plain name.toList)
    (member : character ∈ (names.map bracketed).flatMap String.toList) :
    character = '[' ∨ character = ']' ∨ isPlain character = true := by
  obtain ⟨bracket, listed, inside⟩ := List.mem_flatMap.mp member
  obtain ⟨name, known, rfl⟩ := List.mem_map.mp listed
  rw [toList_bracketed, List.mem_cons, List.mem_append, List.mem_singleton] at inside
  rcases inside with opening | inside | closing
  · exact .inl opening
  · exact .inr (.inr (Plain.iff_forall_mem.mp (plain name known) character inside))
  · exact .inr (.inl closing)

/-- Plain labels in brackets stand outside quotes and belong to one statement. -/
theorem closed_brackets {names : List String} (plain : ∀ name ∈ names, Plain name.toList) :
    Closed [';'] ((names.map bracketed).flatMap String.toList) ∧
      unquoted false ((names.map bracketed).flatMap String.toList) =
        (names.map bracketed).flatMap String.toList := by
  have apart : ∀ character ∈ (names.map bracketed).flatMap String.toList,
      character ≠ '\'' ∧ character ∉ [';'] := by
    intro character member
    rw [List.mem_singleton]
    rcases mem_brackets plain member with rfl | rfl | kind
    · decide
    · decide
    · constructor
      · rintro rfl
        contradiction
      · rintro rfl
        contradiction
  have outside := (reading_of_plain false fun quote => (apart _ quote).1 rfl).2
  exact ⟨.of_plain apart, outside⟩

namespace Stage

/-- The labels of a stage that may stand between brackets. -/
structure PlainLabels (stage : Stage) : Prop where
  inputs : ∀ name ∈ stage.inputs, Plain name.toList
  output : Plain stage.output.toList

/-- A statement is made of the labels that are read, the filter and the label that is defined. -/
theorem exists_statement {stage : Stage} {body : String} (filtered : stage.body = .ok body) :
    ∃ gap, (gap = "" ∨ gap = " ") ∧ stage.statement =
      .ok (String.join (stage.inputs.map bracketed) ++ gap ++ body ++ " " ++
        bracketed stage.output) := by
  rw [statement, filtered]
  cases stage with
  | background stage => exact ⟨"", .inl rfl, rfl⟩
  | trim | scale | overlay | drawBox | drawText | volume | delay | mix => exact ⟨" ", .inr rfl, rfl⟩

/-- The statement of a sealed stage is one statement with the labels of the stage. -/
theorem statementLabels_of_sealed {stage : Stage} (sealed : stage.Sealed)
    (plain : stage.PlainLabels) :
    ∃ text, stage.statement = .ok text ∧ Closed [';'] text.toList ∧
      statementLabels text.toList = stage.inputs ++ [stage.output] := by
  obtain ⟨body, filtered, inert⟩ := exists_body sealed
  obtain ⟨gap, blank, written⟩ := exists_statement filtered
  obtain ⟨inputsClosed, inputsRead⟩ := closed_brackets plain.inputs
  have output : ∀ name ∈ [stage.output], Plain name.toList := by simpa using plain.output
  obtain ⟨outputClosed, outputRead⟩ := closed_brackets output
  have gapInert : Inert gap := by
    rcases blank with rfl | rfl <;> decide +kernel
  have spaceInert : Closed scriptMarks [' '] := by decide
  have one {text : List Char} (inert : Closed scriptMarks text) : Closed [';'] text :=
    inert.mono (by simp [scriptMarks])
  have skip {text more : List Char} (inert : Closed scriptMarks text) :
      enclosedLabels none (unquoted false text ++ more) = enclosedLabels none more :=
    enclosedLabels_append fun bracket => inert.free _ bracket (by decide)
  have space : " ".toList = [' '] := by decide +kernel
  have parts : (String.join (stage.inputs.map bracketed) ++ gap ++ body ++ " " ++
      bracketed stage.output).toList =
      (stage.inputs.map bracketed).flatMap String.toList ++ (gap.toList ++ (body.toList ++
        ([' '] ++ ([stage.output].map bracketed).flatMap String.toList))) := by
    simp only [String.toList_append, String.toList_join, space, List.append_assoc, List.map_cons,
      List.map_nil, List.flatMap_cons, List.flatMap_nil, List.append_nil]
  -- Each part closes its own quotes, so the parts are read one after the other.
  refine ⟨_, written, ?_, ?_⟩
  · rw [parts]
    exact inputsClosed.append ((one gapInert).append ((one inert).append
      ((one spaceInert).append outputClosed)))
  · rw [parts, statementLabels, inputsClosed.read_append, gapInert.read_append,
      inert.read_append, spaceInert.read_append, inputsRead, outputRead,
      enclosedLabels_brackets _ plain.inputs, skip gapInert, skip inert, skip spaceInert,
      ← List.append_nil (List.flatMap _ _), enclosedLabels_brackets _ output]
    rfl

end Stage

/-! ## Scripts -/

/-- A piece of a script that reads as the statement of a stage: it is the statement, perhaps
behind a line feed, and the labels that stand in it are those of the stage. -/
structure ReadsAs (stage : Stage) (piece : List Char) : Prop where
  text : ∃ text, stage.statement = .ok text ∧ (piece = text.toList ∨ piece = '\n' :: text.toList)
  labels : statementLabels piece = stage.inputs ++ [stage.output]

/-- Stages that have statements have them together, with what holds of each. -/
theorem exists_statements_of_forall {Holds : Stage → String → Prop} {stages : List Stage}
    (each : ∀ stage ∈ stages, ∃ text, stage.statement = .ok text ∧ Holds stage text) :
    ∃ texts, statements (stages.map .stage) = .ok texts ∧
      List.Forall₂ (fun stage text => stage.statement = .ok text ∧ Holds stage text)
        stages texts := by
  induction stages with
  | nil => exact ⟨[], rfl, .nil⟩
  | cons stage rest ih =>
      obtain ⟨⟨text, written, holds⟩, eachRest⟩ := List.forall_mem_cons.mp each
      obtain ⟨texts, writtenRest, together⟩ := ih eachRest
      have entry : Entry.statement (.stage stage) = .ok text :=
        Failure.ofArithmetic_eq_ok.mpr written
      refine ⟨text :: texts, ?_, .cons ⟨written, holds⟩ together⟩
      rw [statements] at writtenRest ⊢
      rw [List.map_cons, List.mapM_cons, entry, writtenRest]
      rfl

/-- Sealed stages have closed statements with the labels of the stages. -/
theorem exists_statements {stages : List Stage} (sealed : ∀ stage ∈ stages, stage.Sealed)
    (plain : ∀ stage ∈ stages, stage.PlainLabels) :
    ∃ texts, statements (stages.map .stage) = .ok texts ∧
      (∀ text ∈ texts, Closed [';'] text.toList) ∧
      List.Forall₂ (fun stage text => stage.statement = .ok text ∧
        statementLabels text.toList = stage.inputs ++ [stage.output]) stages texts := by
  obtain ⟨texts, written, read⟩ := exists_statements_of_forall fun stage member =>
    Stage.statementLabels_of_sealed (sealed stage member) (plain stage member)
  refine ⟨texts, written, ?_, read.imp fun stage text parts => ⟨parts.1, parts.2.2⟩⟩
  intro text member
  obtain ⟨position, bound, rfl⟩ := List.getElem_of_mem member
  exact (read.get (read.length_eq ▸ bound) bound).2.1

/-- A script of sealed stages reads as the statements of its stages. -/
theorem exists_script {stages : List Stage} (nonempty : stages ≠ [])
    (sealed : ∀ stage ∈ stages, stage.Sealed) (plain : ∀ stage ∈ stages, stage.PlainLabels) :
    ∃ text, script (stages.map .stage) statementSeparator = .ok text ∧
      List.Forall₂ ReadsAs stages (readStatements text) := by
  obtain ⟨texts, written, closed, read⟩ := exists_statements sealed plain
  refine ⟨_, bind_eq_ok.mpr ⟨texts, written, rfl⟩, ?_⟩
  have separator : statementSeparator.toList = [';', '\n'] := by decide +kernel
  cases read with
  | nil => contradiction
  | cons first rest =>
      rw [readStatements, String.toList_intercalate, separator, List.map_cons,
        splitStatements_intercalate _ _ (List.forall_mem_map.mpr closed)]
      refine .cons ⟨⟨_, first.1, .inl rfl⟩, first.2⟩ ?_
      rw [List.map_map, List.forall₂_map_right_iff]
      refine rest.imp fun stage text parts => ⟨⟨text, parts.1, .inr rfl⟩, ?_⟩
      -- A line feed stands neither between quotes nor between brackets.
      rw [← parts.2]
      simp [statementLabels, unquoted, enclosedLabels]

end Montage.Filter
