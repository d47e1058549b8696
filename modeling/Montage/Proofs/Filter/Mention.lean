import Montage.Proofs.Filter.Precision
import Montage.Proofs.Filter.Seal
import Montage.Proofs.Text.Mention

/-!
# Words for missing values in scripts

A filter takes over the texts and the colours of a payload. Everything else in a script is written
by the compiler: labels, numbers, font files, names of options. None of it holds a word for a
missing value, and none can come about where it meets what was taken over. So such a word stands in
the script only if it stands in one of the texts and colours.
-/

namespace Montage.Filter

variable {context : Context} {item : TimelineItem} {tag text : String} {draft : Draft}
variable {stage : Stage} {layers : List Layer} {graph : Graph} {number : Number}

/-! ## Numbers and names -/

theorem isMark_of_isDigit {character : Char} (digit : character.isDigit = true) :
    isMark character = true := by
  have letters : missingWords.all (fun word => word.toList.all (!·.isDigit)) = true := by
    decide
  rw [isMark, List.all_eq_true]
  intro word listed
  rw [Bool.not_eq_true', ← Bool.not_eq_true, List.contains_iff_mem]
  intro member
  have letter := List.all_eq_true.mp (List.all_eq_true.mp letters word listed) character member
  rw [digit] at letter
  contradiction

theorem not_mentions_of_isDecimal (decimal : IsDecimal text.toList) : ¬Mentions text := by
  apply not_mentions_of_marks
  intro character member
  rcases decimal.isDigit_or member with digit | rfl | rfl
  · exact isMark_of_isDigit digit
  · decide
  · decide

/-- A numeral mentions nothing, also where it is a word. -/
theorem not_mentions_numeral (written : numeral number = .ok text) : ¬Mentions text := by
  cases number with
  | int value =>
      obtain ⟨rounded, -, equal⟩ := bind_eq_ok.mp written
      cases equal
      exact not_mentions_of_isDecimal (String.toList_ofList ▸ isDecimal_integerText value)
  | real value =>
      by_cases finite : value.IsFinite
      · obtain ⟨decimal, written', shape⟩ := hasDecimal_of_isFinite finite
        cases written.symm.trans written'
        exact not_mentions_of_isDecimal shape
      · obtain ⟨word, listed, written'⟩ := numeral_of_not_isFinite finite
        cases written.symm.trans written'
        have quiet : ∀ word ∈ ["nan", "inf", "-inf"], ¬Mentions word := by decide
        exact quiet text listed

theorem not_mentions_literal (value : Int) : ¬Mentions (literal (.int value)) :=
  not_mentions_of_isDecimal (String.toList_ofList ▸ isDecimal_integerText value)

theorem not_mentions_natText (value : Nat) : ¬Mentions (toString value) := by
  apply not_mentions_of_marks
  intro character member
  rw [Nat.toString_eq_repr, Nat.toList_repr] at member
  exact isMark_of_isDigit ((isDigits_digitsOf value).digits character member)

theorem not_mentions_intText (value : Int) : ¬Mentions (toString value) := by
  cases value with
  | ofNat value => exact not_mentions_natText value
  | negSucc value =>
      have minus : toString (Int.negSucc value) = "-" ++ toString (value + 1) := rfl
      have sign : EndsMarked "-" ∧ ¬Mentions "-" := by decide
      rw [minus, mentions_append_of_ends sign.1, not_or]
      exact ⟨sign.2, not_mentions_natText (value + 1)⟩

/-! ## Filters -/

/-- What a stage takes over from a payload: the text and the colour of a text, and the colour of a
box. -/
def Stage.passed : Stage → List String
  | .drawBox stage => [stage.color]
  | .drawText stage => [stage.text, stage.fontColor]
  | .background _ | .trim _ | .scale _ | .overlay _ | .volume _ | .delay _ | .mix _ => []

/-- What a text stage writes of its own mentions nothing. -/
structure DrawText.Discreet (stage : DrawText) : Prop where
  fontSize : HasNumeral stage.fontSize
  start : HasNumeral stage.start
  finish : HasNumeral stage.finish
  fontFile : ¬Mentions (escapePath stage.fontFile)
  x : ¬Mentions stage.x
  y : ¬Mentions stage.y
  lineSpacing : ¬Mentions (literal stage.lineSpacing)
  shadowColor : ¬Mentions stage.shadowColor
  shadowOffset : ¬Mentions (literal stage.shadowOffset)

/-- What a stage writes of its own mentions nothing. -/
def Stage.Discreet : Stage → Prop
  | .background stage =>
      HasNumeral stage.duration ∧ ¬Mentions stage.color ∧ ¬Mentions (literal stage.width) ∧
        ¬Mentions (literal stage.height) ∧ ¬Mentions (literal stage.rate)
  | .trim stage => HasNumeral stage.duration
  | .scale stage =>
      HasNumeral stage.rotation ∧ ¬Mentions (literal stage.width) ∧
        ¬Mentions (literal stage.height)
  | .overlay stage =>
      HasNumeral stage.start ∧ HasNumeral stage.finish ∧ ¬Mentions (literal stage.x) ∧
        ¬Mentions (literal stage.y)
  | .drawBox stage =>
      HasNumeral stage.start ∧ HasNumeral stage.finish ∧ ¬Mentions (literal stage.x) ∧
        ¬Mentions (literal stage.y) ∧ ¬Mentions (literal stage.width) ∧
        ¬Mentions (literal stage.height)
  | .drawText stage => stage.Discreet
  | .volume stage => HasNumeral stage.factor
  | .delay stage => HasNumeral stage.milliseconds
  | .mix stage => ¬Mentions stage.duration

theorem exists_quiet_enableOption {start finish : Number} (first : HasNumeral start)
    (last : HasNumeral finish) :
    ∃ text, enableOption start finish = .ok text ∧ ¬Mentions text := by
  obtain ⟨first, written⟩ := first
  obtain ⟨last, written'⟩ := last
  have conditioned : enableWindow start finish =
      .ok ("between(t," ++ first ++ "," ++ last ++ ")") :=
    bind_eq_ok.mpr ⟨first, written, bind_eq_ok.mpr ⟨last, written', rfl⟩⟩
  refine ⟨_, bind_eq_ok.mpr ⟨_, conditioned, rfl⟩, ?_⟩
  have quiet := not_mentions_numeral written
  have quiet' := not_mentions_numeral written'
  -- What stands around the numerals ends and begins with marks, so the parts mention on their own.
  simp (disch := decide) only [mentions_append_of_begins, mentions_append_of_ends,
    mentions_append_append, mentions_eq_false, quiet, quiet', or_self, not_false_eq_true]

theorem exists_quiet_trimBody {stage : Trim} (duration : HasNumeral stage.duration) :
    ∃ body, trimBody stage = .ok body ∧ ¬Mentions body := by
  obtain ⟨duration, written⟩ := duration
  have quiet := not_mentions_numeral written
  rw [trimBody, written]
  cases stage.audio with
  | false | true =>
      refine ⟨_, rfl, ?_⟩
      simp (disch := decide) only [mentions_append_of_begins, mentions_append_of_ends,
        mentions_eq_false, quiet, or_self, not_false_eq_true]

theorem exists_quiet_scaleBody {stage : Scale} (rotation : HasNumeral stage.rotation)
    (width : ¬Mentions (literal stage.width)) (height : ¬Mentions (literal stage.height)) :
    ∃ body, scaleBody stage = .ok body ∧ ¬Mentions body := by
  obtain ⟨angle, written⟩ := rotation
  have quiet := not_mentions_numeral written
  simp only [scaleBody]
  split
  · refine ⟨_, rfl, ?_⟩
    simp (disch := decide) only [mentions_append_of_begins, mentions_append_of_ends,
      mentions_append_append, mentions_eq_false, width, height, or_self, not_false_eq_true]
  · refine ⟨_, bind_eq_ok.mpr ⟨angle, written, rfl⟩, ?_⟩
    simp (disch := decide) only [mentions_append_of_begins, mentions_append_of_ends,
      mentions_append_append, mentions_eq_false, quiet, width, height, or_self, not_false_eq_true]

/-- The options of a text filter mention what its text and its colour mention. -/
theorem exists_mentions_drawTextOptions {stage : DrawText} (discreet : stage.Discreet) :
    ∃ options, drawTextOptions stage = .ok options ∧
      ((∃ option ∈ options, Mentions option) ↔ Mentions stage.text ∨ Mentions stage.fontColor) := by
  obtain ⟨size, written⟩ := discreet.fontSize
  obtain ⟨enabled, conditioned, quiet⟩ := exists_quiet_enableOption discreet.start discreet.finish
  refine ⟨_, bind_eq_ok.mpr ⟨size, written, bind_eq_ok.mpr ⟨enabled, conditioned, rfl⟩⟩, ?_⟩
  have sized := not_mentions_numeral written
  have spacing : ¬∃ option ∈ if stage.lineSpacing.isZero then []
      else ["line_spacing=" ++ literal stage.lineSpacing], Mentions option := by
    split
    next => simp
    next =>
      simp (disch := decide) only [List.mem_singleton, exists_eq_left,
        mentions_append_of_ends, mentions_eq_false, discreet.lineSpacing, or_self,
        not_false_eq_true]
  simp (disch := decide) only [List.mem_append, or_and_right, exists_or,
    List.exists_mem_cons_iff, List.not_mem_nil, false_and, exists_false, spacing, quiet,
    mentions_append_of_begins, mentions_append_of_ends, mentions_eq_false, sized,
    discreet.fontFile, discreet.x, discreet.y, discreet.shadowColor, discreet.shadowOffset,
    or_false, false_or]

/-- The filter of a stage mentions what the stage takes over mentions. -/
theorem Stage.exists_mentions_body (discreet : stage.Discreet) :
    ∃ body, stage.body = .ok body ∧ (Mentions body ↔ ∃ text ∈ stage.passed, Mentions text) := by
  cases stage with
  | background stage =>
      obtain ⟨⟨duration, written⟩, color, width, height, rate⟩ := discreet
      refine ⟨_, bind_eq_ok.mpr ⟨duration, written, rfl⟩, ?_⟩
      have quiet := not_mentions_numeral written
      simp (disch := decide) only [mentions_append_of_begins, mentions_append_of_ends,
        mentions_append_append, mentions_eq_false, quiet, color, width, height, rate, passed,
        or_self, List.not_mem_nil, false_and, exists_false]
  | trim stage =>
      obtain ⟨body, filtered, quiet⟩ := exists_quiet_trimBody discreet
      exact ⟨body, filtered, by simpa [passed] using quiet⟩
  | scale stage =>
      obtain ⟨rotation, width, height⟩ := discreet
      obtain ⟨body, filtered, quiet⟩ := exists_quiet_scaleBody rotation width height
      exact ⟨body, filtered, by simpa [passed] using quiet⟩
  | overlay stage =>
      obtain ⟨start, finish, x, y⟩ := discreet
      obtain ⟨enabled, conditioned, quiet⟩ := exists_quiet_enableOption start finish
      refine ⟨_, bind_eq_ok.mpr ⟨enabled, conditioned, rfl⟩, ?_⟩
      simp (disch := decide) only [mentions_append_of_begins, mentions_append_of_ends,
        mentions_append_append, mentions_eq_false, quiet, x, y, passed, or_self, List.not_mem_nil,
        false_and, exists_false]
  | drawBox stage =>
      obtain ⟨start, finish, x, y, width, height⟩ := discreet
      obtain ⟨enabled, conditioned, quiet⟩ := exists_quiet_enableOption start finish
      refine ⟨_, bind_eq_ok.mpr ⟨enabled, conditioned, rfl⟩, ?_⟩
      simp (disch := decide) only [mentions_append_of_begins, mentions_append_of_ends,
        mentions_append_append, mentions_eq_false, quiet, x, y, width, height, passed, or_false,
        false_or, List.mem_singleton, exists_eq_left]
  | drawText stage =>
      obtain ⟨options, written, mentions⟩ := exists_mentions_drawTextOptions discreet
      refine ⟨_, bind_eq_ok.mpr ⟨options, written, rfl⟩, ?_⟩
      have colon : BeginsMarked ":" ∧ EndsMarked ":" ∧ ¬Mentions ":" := by decide
      rw [mentions_intercalate colon.1 colon.2.1 colon.2.2, mentions]
      simp [passed]
  | volume stage =>
      obtain ⟨factor, written⟩ := discreet
      refine ⟨_, bind_eq_ok.mpr ⟨factor, written, rfl⟩, ?_⟩
      have quiet := not_mentions_numeral written
      simp (disch := decide) only [mentions_append_of_ends, mentions_eq_false, quiet,
        passed, or_self, List.not_mem_nil, false_and, exists_false]
  | delay stage =>
      obtain ⟨delay, written⟩ := discreet
      refine ⟨_, bind_eq_ok.mpr ⟨delay, written, rfl⟩, ?_⟩
      have quiet := not_mentions_numeral written
      simp (disch := decide) only [mentions_append_of_begins, mentions_append_of_ends,
        mentions_append_append, mentions_eq_false, quiet, passed, or_self, List.not_mem_nil,
        false_and, exists_false]
  | mix stage =>
      refine ⟨_, rfl, ?_⟩
      have quiet := not_mentions_natText stage.inputs.length
      have duration : ¬Mentions stage.duration := discreet
      simp (disch := decide) only [mentions_append_of_begins, mentions_append_of_ends,
        mentions_append_append, mentions_eq_false, quiet, duration, passed, or_self,
        List.not_mem_nil, false_and, exists_false]

/-! ## Statements -/

theorem mentions_bracketed {name : String} : Mentions (bracketed name) ↔ Mentions name := by
  simp (disch := decide) only [bracketed, mentions_append_of_begins,
    mentions_append_of_ends, mentions_eq_false, or_false, false_or]

/-- Labels in brackets add nothing to a text behind them. -/
theorem mentions_brackets_append {names : List String} (quiet : ∀ name ∈ names, ¬Mentions name) :
    Mentions (String.join (names.map bracketed) ++ text) ↔ Mentions text := by
  induction names with
  | nil => simp
  | cons name rest ih =>
      obtain ⟨first, others⟩ := List.forall_mem_cons.mp quiet
      have ends : EndsMarked (bracketed name) :=
        (by decide : EndsMarked "]").append ("[" ++ name)
      rw [List.map_cons, String.join_cons, String.append_assoc, mentions_append_of_ends ends,
        mentions_bracketed, or_iff_right first, ih others]

/-- The statement of a stage exists, is not blank and mentions what the stage takes over
mentions. -/
theorem Stage.exists_mentions_statement (discreet : stage.Discreet)
    (inputs : ∀ name ∈ stage.inputs, ¬Mentions name) (output : ¬Mentions stage.output) :
    ∃ statement, stage.statement = .ok statement ∧ '[' ∈ statement.toList ∧
      (Mentions statement ↔ ∃ text ∈ stage.passed, Mentions text) := by
  obtain ⟨body, filtered, mentions⟩ := Stage.exists_mentions_body discreet
  obtain ⟨gap, blank, written⟩ := exists_statement filtered
  have behind : Mentions (gap ++ body) ↔ Mentions body := by
    rcases blank with rfl | rfl
    · rw [String.empty_append]
    · simp (disch := decide) only [mentions_append_of_ends, mentions_eq_false, false_or]
  have space : BeginsMarked " " ∧ EndsMarked " " ∧ ¬Mentions " " := by decide
  refine ⟨_, written, ?_, ?_⟩
  · rw [String.toList_append, toList_bracketed]
    exact List.mem_append_right _ List.mem_cons_self
  · rw [mentions_append_append space.2.1, mentions_append_of_begins space.1,
      or_iff_left space.2.2, mentions_bracketed, or_iff_left output, String.append_assoc,
      mentions_brackets_append inputs, behind, mentions]

/-! ## Stages of a graph -/

theorem not_mentions_label {kind tag : String} (quiet : ¬Mentions kind) (tagged : ¬Mentions tag) :
    ¬Mentions (label kind tag) := by
  simp (disch := decide) only [label, mentions_append_of_begins,
    mentions_append_append, mentions_eq_false, quiet, tagged, or_self, not_false_eq_true]

theorem IsLabel.not_mentions {name : String} (known : IsLabel name) : ¬Mentions name := by
  have kinds : ∀ kind ∈ itemKinds ++ pictureKinds, ¬Mentions kind := by decide
  cases known with
  | stream stream =>
      obtain ⟨position, rfl | rfl⟩ := stream
      all_goals
        have quiet := not_mentions_intText position
        simp (disch := decide) only [videoStream, audioStream, mentions_append_of_begins,
          mentions_eq_false, quiet, or_self, not_false_eq_true]
  | matte => decide
  | mix => decide
  | item known layer position =>
      have tagged : ¬Mentions (itemTag layer position) :=
        not_mentions_label (not_mentions_natText layer) (not_mentions_natText position)
      exact not_mentions_label (kinds _ (List.mem_append_left _ known)) tagged
  | picture known number =>
      exact not_mentions_label (kinds _ (List.mem_append_right _ known))
        (not_mentions_natText number)

theorem escapePath_append (left right : String) :
    escapePath (left ++ right) = escapePath left ++ escapePath right := by
  rw [escapePath, String.toList_append, List.flatMap_append, String.ofList_append]
  rfl

/-- The file of a font mentions nothing, whatever font a payload names. -/
theorem not_mentions_fontFile (family : Option String) (bold italic : Bool)
    (platform : Platform) : ¬Mentions (escapePath (fontFile family bold italic platform)) := by
  have directories : ∀ directory ∈ fontDirectories,
      EndsMarked (escapePath directory) ∧ ¬Mentions (escapePath directory) := by
    simp only [EndsMarked, mentions_iff_any, escapePath, String.toList_ofList]
    decide +kernel
  have names : ∀ name ∈ fontNames, ¬Mentions (escapePath name) := by
    simp only [mentions_iff_any, escapePath, String.toList_ofList]
    decide +kernel
  obtain ⟨directory, kept, name, known, file⟩ := exists_fontName family bold italic platform
  obtain ⟨ends, quiet⟩ := directories directory kept
  rw [file, escapePath_append, mentions_append_of_ends ends, not_or]
  exact ⟨quiet, names name known⟩

theorem not_mentions_centred (start length : Int) {extent : String} (quiet : ¬Mentions extent) :
    ¬Mentions (Caption.centred start length extent) := by
  have first := not_mentions_intText start
  have second := not_mentions_intText length
  simp (disch := decide) only [Caption.centred, mentions_append_of_begins,
    mentions_append_append, mentions_eq_false, quiet, first, second, or_self, not_false_eq_true]

/-- A stage that draws a caption writes nothing of its own that mentions anything. -/
theorem DrawText.discreet_of_draws {media : MediaItem} {rect : PixelRect} {caption : Caption}
    {drawText : DrawText} (timed : context.Timed)
    (captioned : Caption.ofMedia? context.metrics context.platform media rect = .ok (some caption))
    (draws : Draws context item media caption drawText) : drawText.Discreet := by
  have describes := Caption.describes_of_ofMedia? captioned
  obtain ⟨start, finish⟩ := hasNumeral_of_textWindow timed draws.timed
  obtain ⟨spacing, -, spaced⟩ := draws.spaced
  refine ⟨draws.fontSize ▸ hasNumeral_real _, start, finish, ?_, ?_, ?_, ?_, ?_, ?_⟩
  · rw [draws.fontFile, describes.fontFile]
    exact not_mentions_fontFile _ _ _ _
  · rw [draws.position.1, describes.xExpression]
    exact not_mentions_centred _ _ (by decide)
  · rw [draws.position.2, describes.yExpression]
    exact not_mentions_centred _ _ (by decide)
  · rw [spaced]
    exact not_mentions_literal spacing
  · rw [draws.shadow.1]
    decide
  · rw [draws.shadow.2]
    exact not_mentions_literal 2

/-- The stages that an item adds write nothing of their own that mentions anything. -/
theorem Adds.discreet (adds : Adds context item tag draft stage) (timed : context.Timed) :
    stage.Discreet := by
  cases adds with
  | trim => exact hasNumeral_real _
  | scale => exact ⟨hasNumeral_real _, not_mentions_literal _, not_mentions_literal _⟩
  | overlay =>
      exact ⟨hasNumeral_real _, hasNumeral_real _, not_mentions_literal _, not_mentions_literal _⟩
  | sound _ _ _ _ chained =>
      cases soundStage_of_mem_chainSteps chained with
      | cut | volume | delay => exact hasNumeral_real _
  | drawBox _ _ _ _ _ fills draws =>
      obtain ⟨start, finish⟩ := hasNumeral_of_textWindow timed draws.timed
      rw [Stage.Discreet, fills.timed.1, fills.timed.2, fills.corner.1, fills.corner.2,
        fills.size.1, fills.size.2]
      exact ⟨start, finish, not_mentions_literal _, not_mentions_literal _,
        not_mentions_literal _, not_mentions_literal _⟩
  | drawText _ _ _ _ captioned draws => exact DrawText.discreet_of_draws timed captioned draws

theorem discreet_of_mem (compiled : Graph.ofLayers context layers = .ok graph)
    (timed : context.Timed) (rate : ¬Mentions (literal context.rate))
    (member : stage ∈ graph.stages) : stage.Discreet := by
  rcases origin_of_mem compiled member with matte | ⟨item, compiledFor⟩ | ⟨branches, -, rfl⟩
  · have black : ¬Mentions "black" := by decide
    rw [List.mem_singleton.mp matte]
    exact ⟨timed.total, black, not_mentions_literal _, not_mentions_literal _, rate⟩
  · obtain ⟨tag, draft, adds⟩ := compiledFor.adds
    exact adds.discreet timed
  · have longest : ¬Mentions "longest" := by decide
    exact longest

/-! ## Graphs -/

/-- Statements that mention what their stages take over mentions do so together. -/
theorem exists_mentions_of_forall₂ {stages : List Stage} {texts : List String}
    (together : List.Forall₂ (fun stage statement => stage.statement = .ok statement ∧
      '[' ∈ statement.toList ∧ (Mentions statement ↔ ∃ text ∈ stage.passed, Mentions text))
      stages texts) :
    (∃ text ∈ texts, Mentions text) ↔ ∃ stage ∈ stages, ∃ text ∈ stage.passed, Mentions text := by
  induction together with
  | nil => simp
  | cons first _ ih =>
      rw [List.exists_mem_cons_iff, List.exists_mem_cons_iff, first.2.2, ih]

/-- The script of a graph exists, is not blank and mentions what its stages take over mentions. -/
theorem Graph.exists_mentions_script (compiled : Graph.ofLayers context layers = .ok graph)
    (timed : context.Timed) (rate : ¬Mentions (literal context.rate)) :
    ∃ statements, graph.statements = .ok statements ∧
      (∃ statement ∈ statements, '[' ∈ statement.toList) ∧
      (Mentions (statementSeparator.intercalate statements) ↔
        ∃ stage ∈ graph.stages, ∃ text ∈ stage.passed, Mentions text) := by
  obtain ⟨texts, written, together⟩ := exists_statements_of_forall fun stage member =>
    have labels := isLabel_of_mem compiled member
    Stage.exists_mentions_statement (discreet_of_mem compiled timed rate member)
      (fun name read => (labels.1 name read).not_mentions) labels.2.not_mentions
  have separator : BeginsMarked statementSeparator ∧ EndsMarked statementSeparator ∧
      ¬Mentions statementSeparator := by
    decide
  refine ⟨texts, written, ?_, ?_⟩
  · have nonempty := stages_ne_nil compiled
    generalize graph.stages = stages at together nonempty
    cases together with
    | nil => contradiction
    | cons first _ => exact ⟨_, List.mem_cons_self, first.2.1⟩
  · rw [mentions_intercalate separator.1 separator.2.1 separator.2.2,
      exists_mentions_of_forall₂ together]

end Montage.Filter
