import Montage.Proofs.Filter.Seal

/-!
# Reading the text of a text filter

The renderer reads an option in two steps. The reader of a script drops the quotes, between which
every character is literal. The reader of options then splits what is left at colons, takes a
backslash as a sign that the next character is literal, and drops the blanks around a value. Both
together give back the wrapped text of a caption.
-/

namespace Montage.Filter

open Montage.Caption (escape)

/-! ## Readers -/

/-- What follows the labels and blanks in front of a filter. The flag holds inside a label. -/
def skipLabels : Bool → List Char → List Char
  | _, [] => []
  | true, character :: rest =>
      if character = ']' then skipLabels false rest else skipLabels true rest
  | false, character :: rest =>
      if character = '[' then skipLabels true rest
      else if Text.isBlank character then skipLabels false rest
      else character :: rest

/-- The characters at which the options of a filter end. -/
def filterMarks : List Char := ['[', ']', ',', ';']

/-- The options of a filter without their quotes. The flag holds between quotes. -/
def readOptions : Bool → List Char → List Char
  | _, [] => []
  | quoted, character :: rest =>
      if character = '\'' then readOptions (!quoted) rest
      else if quoted = false ∧ character ∈ filterMarks then []
      else character :: readOptions quoted rest

/-- A value and what follows it. The flag holds between quotes, which would begin anew here. -/
def readValue : Bool → List Char → List Char × List Char
  | _, [] => ([], [])
  | true, character :: rest =>
      if character = '\'' then readValue false rest
      else (readValue true rest).map (character :: ·) id
  | false, '\\' :: character :: rest => (readValue false rest).map (character :: ·) id
  | false, character :: rest =>
      if character = ':' then ([], character :: rest)
      else if character = '\'' then readValue true rest
      else (readValue false rest).map (character :: ·) id

/-- The first option of a filter and what follows it. -/
structure FirstOption where
  filter : List Char
  key : List Char
  value : List Char
  rest : List Char
  deriving DecidableEq

/-- Read the first option of a statement. Blanks around the value do not belong to it. -/
def readFirstOption (statement : List Char) : FirstOption :=
  let filter := skipLabels false statement
  let options := readOptions false ((filter.dropWhile (· ≠ '=')).drop 1)
  let value := readValue false ((options.dropWhile (· ≠ '=')).drop 1)
  { filter := filter.takeWhile (· ≠ '=')
    key := options.takeWhile (· ≠ '=')
    value := Text.strip value.1
    rest := value.2 }

/-! ## What the readers give back -/

variable {text more : List Char}

theorem skipLabels_true_append (plain : ']' ∉ text) :
    skipLabels true (text ++ ']' :: more) = skipLabels false more := by
  induction text with
  | nil => rw [List.nil_append, skipLabels, if_pos rfl]
  | cons character rest ih =>
      obtain ⟨other, plain⟩ := not_or.mp (List.mem_cons.not.mp plain)
      rw [List.cons_append, skipLabels, if_neg (Ne.symm other)]
      exact ih plain

/-- Between quotes every character is read as it is. -/
theorem readOptions_true_append (plain : '\'' ∉ text) :
    readOptions true (text ++ '\'' :: more) = text ++ readOptions false more := by
  induction text with
  | nil => rw [List.nil_append, readOptions, if_pos rfl]; rfl
  | cons character rest ih =>
      obtain ⟨other, plain⟩ := not_or.mp (List.mem_cons.not.mp plain)
      rw [List.cons_append, readOptions, if_neg (Ne.symm other), if_neg (by simp), ih plain]
      rfl

/-- Outside quotes a text without marks is read as it is. -/
theorem readOptions_false_append
    (plain : ∀ character ∈ text, character ≠ '\'' ∧ character ∉ filterMarks) :
    readOptions false (text ++ more) = text ++ readOptions false more := by
  induction text with
  | nil => rfl
  | cons character rest ih =>
      obtain ⟨⟨quote, mark⟩, plain⟩ := List.forall_mem_cons.mp plain
      rw [List.cons_append, readOptions, if_neg quote, if_neg (by simp [mark]), ih plain]
      rfl

/-- A text without colons and quotes is read back from its escaped form, up to the next colon. -/
theorem readValue_escape (plain : ∀ character ∈ text, character ≠ ':' ∧ character ≠ '\'') :
    readValue false (escape text ++ ':' :: more) = (text, ':' :: more) := by
  induction text with
  | nil => simp [escape, readValue]
  | cons character rest ih =>
      obtain ⟨⟨colon, quote⟩, plain⟩ := List.forall_mem_cons.mp plain
      have ih := ih plain
      simp only [escape, List.flatMap_cons, List.append_assoc] at ih ⊢
      split
      next backslash =>
        simp only [List.cons_append, List.nil_append, readValue, ih, backslash]
        rfl
      next other =>
        rw [List.singleton_append, readValue]
        · rw [if_neg colon, if_neg quote, ih]
          rfl
        · rintro - - rfl
          contradiction

/-- What stands in front of an equals sign. -/
theorem takeWhile_name (more : List Char) (plain : '=' ∉ text) :
    (text ++ '=' :: more).takeWhile (· ≠ '=') = text := by
  rw [List.takeWhile_append_of_pos fun character member => by
    simpa using ne_of_mem_of_not_mem member plain]
  simp

/-- What stands behind an equals sign. -/
theorem drop_name (more : List Char) (plain : '=' ∉ text) :
    ((text ++ '=' :: more).dropWhile (· ≠ '=')).drop 1 = more := by
  rw [List.dropWhile_append_of_pos fun character member => by
    simpa using ne_of_mem_of_not_mem member plain]
  simp

/-- The name of a text filter, up to its options. -/
def textFilterName : List Char := ['d', 'r', 'a', 'w', 't', 'e', 'x', 't']

/-- The name of the option with the text. -/
def textOptionName : List Char := ['t', 'e', 'x', 't']

/-- A quoted and escaped text reads as itself, and the option ends behind its closing quote. -/
theorem readFirstOption_text {label wrapped : List Char} (plain : ']' ∉ label)
    (free : ∀ character ∈ wrapped, character ≠ ':' ∧ character ≠ '\'')
    (tight : Text.Tight wrapped) :
    readFirstOption ('[' :: label ++ ']' :: ' ' :: (textFilterName ++ '=' :: (textOptionName ++
        '=' :: '\'' :: (escape wrapped ++ '\'' :: ':' :: more)))) =
      { filter := textFilterName
        key := textOptionName
        value := wrapped
        rest := ':' :: readOptions false more } := by
  have unquoted : '\'' ∉ escape wrapped :=
    Caption.quote_not_mem_escape fun member => (free _ member).2 rfl
  have filter : skipLabels false ('[' :: label ++ ']' :: ' ' :: (textFilterName ++ '=' ::
      (textOptionName ++ '=' :: '\'' :: (escape wrapped ++ '\'' :: ':' :: more)))) =
      textFilterName ++ '=' :: (textOptionName ++ '=' :: '\'' ::
        (escape wrapped ++ '\'' :: ':' :: more)) := by
    rw [List.cons_append, skipLabels, if_pos rfl, skipLabels_true_append plain]
    rfl
  have options : readOptions false (textOptionName ++ '=' :: '\'' ::
      (escape wrapped ++ '\'' :: ':' :: more)) =
      textOptionName ++ '=' :: (escape wrapped ++ ':' :: readOptions false more) := by
    have key (rest : List Char) : textOptionName ++ '=' :: rest =
        textOptionName ++ ['='] ++ rest := by rw [List.append_assoc, List.singleton_append]
    have colon : readOptions false (':' :: more) = ':' :: readOptions false more := by
      simp [readOptions, filterMarks]
    -- Only the quotes are lost here; the backslashes are left for the reader of values.
    rw [key, readOptions_false_append (by simp [textOptionName, filterMarks]), readOptions,
      if_pos rfl, Bool.not_false, readOptions_true_append unquoted, colon,
      key (escape wrapped ++ ':' :: readOptions false more)]
  simp only [readFirstOption, filter, takeWhile_name _ (by decide : '=' ∉ textFilterName),
    drop_name _ (by decide : '=' ∉ textFilterName), options,
    takeWhile_name _ (by decide : '=' ∉ textOptionName),
    drop_name _ (by decide : '=' ∉ textOptionName), readValue_escape free,
    Text.strip_of_tight tight]

/-! ## Text stages -/

variable {context : Context} {item : TimelineItem} {media : MediaItem} {box : PixelRect}
variable {caption : Caption} {drawText : DrawText} {statement : String}

/-- Every text stage of a graph draws the caption of an asset. -/
theorem draws_of_mem {layers : List Layer} {graph : Graph}
    (compiled : Graph.ofLayers context layers = .ok graph)
    (member : .drawText drawText ∈ graph.stages) :
    ∃ item media box caption, context.library.find? item.mediaId = some media ∧
      Geometry.resolve item.geometry (some media) context.frame = .ok box ∧
      Caption.ofMedia? context.metrics context.platform media box = .ok (some caption) ∧
      Draws context item media caption drawText := by
  rcases origin_of_mem compiled member with matte | ⟨item, compiledFor⟩ | ⟨branches, -, mix⟩
  · nomatch List.mem_singleton.mp matte
  · obtain ⟨tag, draft, adds⟩ := compiledFor.adds
    cases adds with
    | sound _ _ _ _ chained => nomatch soundStage_of_mem_chainSteps chained
    | drawText found _ _ placed captioned draws =>
        exact ⟨item, _, _, _, found, placed, captioned, draws⟩
  · contradiction

/-- The statement of a text stage begins with its label and its text. -/
theorem exists_remaining (printed : (Stage.drawText drawText).statement = .ok statement) :
    ∃ remaining, statement.toList =
      (bracketed drawText.input ++ " drawtext=text='" ++ drawText.text ++ "':").toList ++
        remaining := by
  obtain ⟨body, filtered, equal⟩ := bind_eq_ok.mp printed
  obtain ⟨options, listed, joined⟩ := bind_eq_ok.mp filtered
  obtain ⟨size, -, listed⟩ := bind_eq_ok.mp listed
  obtain ⟨enabled, -, listed⟩ := bind_eq_ok.mp listed
  cases equal
  cases joined
  cases listed
  have opening : " drawtext=text='" = " " ++ "drawtext=text='" := by decide +kernel
  have closing : "':" = "'" ++ ":" := by decide +kernel
  simp only [Stage.inputs, List.map_cons, List.map_nil, String.join_cons, String.join_nil,
    String.toList_append, String.toList_intercalate, List.cons_append, List.intercalate_cons_cons,
    List.append_assoc, opening, closing]
  exact ⟨_, rfl⟩

/-- A text stage that draws a caption reads back as the wrapped text of the caption, whatever the
text and its box are. The option ends where its closing quote stands. Labels hold no bracket, which
would end them. -/
theorem readFirstOption_of_draws
    (captioned : Caption.ofMedia? context.metrics context.platform media box = .ok (some caption))
    (draws : Draws context item media caption drawText) (label : ']' ∉ drawText.input.toList)
    (printed : (Stage.drawText drawText).statement = .ok statement) :
    ∃ remaining,
      statement.toList =
          (bracketed drawText.input ++ " drawtext=text='" ++ caption.text ++ "':").toList ++
            remaining ∧
        readFirstOption statement.toList =
          { filter := "drawtext".toList
            key := "text".toList
            value := caption.layout.wrappedText
            rest := ':' :: readOptions false remaining } := by
  obtain ⟨remaining, written⟩ := exists_remaining printed
  have describes := Caption.describes_of_ofMedia? captioned
  have free : ∀ character ∈ caption.layout.wrappedText, character ≠ ':' ∧ character ≠ '\'' := by
    intro character member
    constructor
    · rintro rfl
      exact absurd (describes.not_isReserved member) (by decide)
    · rintro rfl
      exact absurd (describes.not_isReserved member) (by decide)
  rw [draws.text] at written
  refine ⟨remaining, written, ?_⟩
  have opening : " drawtext=text='".toList =
      ' ' :: (textFilterName ++ '=' :: (textOptionName ++ ['=', '\''])) := by decide +kernel
  have closing : "':".toList = ['\'', ':'] := by decide +kernel
  have names : "drawtext".toList = textFilterName ∧ "text".toList = textOptionName := by
    decide +kernel
  rw [names.1, names.2, ← readFirstOption_text label free describes.tight, written,
    describes.text]
  simp only [String.toList_append, toList_bracketed, String.toList_ofList, opening, closing,
    List.append_assoc, List.cons_append, List.nil_append]

/-- A stage that draws a caption over the matte for four seconds. -/
def sampleText (caption : Caption) (spacing : Int) : DrawText where
  input := matteLabel
  output := "text_0"
  text := caption.text
  fontSize := .real caption.layout.fontSize
  fontColor := caption.fontColor
  fontFile := caption.fontFile
  x := caption.xExpression
  y := caption.yExpression
  start := 0
  finish := .real 4
  lineSpacing := .int spacing

/-- A text with reserved characters between others, and with a backslash at its end. -/
def markedTitle : MediaItem :=
  { sampleAsset "title" .text with text := some " C:\\100%;\r\n[a] \"b\\\"'\\ c,\\ " }

theorem readFirstOption_markedTitle :
    ∃ caption spacing statement remaining,
      (Stage.drawText (sampleText caption spacing)).statement = .ok statement ∧
        readFirstOption statement.toList =
          { filter := "drawtext".toList
            key := "text".toList
            value := "C\\100%\n[a] b\\\\ c\\".toList
            rest := ':' :: readOptions false remaining } := by
  have printed : ∃ found ∈ (Caption.ofMedia? sampleContext.metrics sampleContext.platform
      markedTitle ⟨0, 0, 1920, 1080, 0⟩).toOption, ∃ caption ∈ found,
      caption.layout.wrappedText = "C\\100%\n[a] b\\\\ c\\".toList ∧
        ∃ spacing ∈ caption.layout.lineSpacing.toOption,
          ((Stage.drawText (sampleText caption spacing)).statement.toOption).isSome := by
    decide +kernel
  obtain ⟨found, captioned, caption, same, wrapped, spacing, spaced, some⟩ := printed
  cases Option.mem_def.mp same
  have captioned := mem_toOption.mp captioned
  obtain ⟨statement, some⟩ := Option.isSome_iff_exists.mp some
  have printed := mem_toOption.mp some
  have timed : textWindow sampleContext (sampleItem "title" 0) markedTitle = .ok (0, .real 4) := by
    decide +kernel
  have draws : Draws sampleContext (sampleItem "title" 0) markedTitle caption
      (sampleText caption spacing) :=
    ⟨timed, ⟨spacing, mem_toOption.mp spaced, rfl⟩, rfl, rfl, rfl, rfl, ⟨rfl, rfl⟩, ⟨rfl, rfl⟩⟩
  have label : ']' ∉ (sampleText caption spacing).input.toList :=
    (by decide : ']' ∉ matteLabel.toList)
  obtain ⟨remaining, -, reads⟩ := readFirstOption_of_draws captioned draws label printed
  exact ⟨caption, spacing, statement, remaining, printed, wrapped ▸ reads⟩

end Montage.Filter
