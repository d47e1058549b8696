import Montage.Proofs.Caption
import Montage.Proofs.Filter.Statement
import Montage.Proofs.Filter.Stream

/-!
# Sealed graphs

Nothing that a payload holds shapes the script of its graph, apart from colours. Labels are plain,
texts lose their quotes, fonts come from a table and numbers are written as numerals. A colour in
functional notation is rewritten, and a colour of a box that is no hexadecimal one is replaced.
Every other colour is passed on as it is, so it has to be inert.
-/

namespace Montage.Filter

open Montage.Caption (filterColor boxColor componentsOf? standardTextColor)

variable {context : Context} {item : TimelineItem} {tag : String} {tags : List String}
variable {draft next : Draft} {stage : Stage} {layers : List Layer} {graph : Graph}

/-! ## Labels -/

theorem plain_label {kind tag : String} (plain : Plain kind.toList) (tagged : Plain tag.toList) :
    Plain (label kind tag).toList := by
  rw [toList_label]
  exact plain.append (.cons rfl tagged)

theorem plain_stream {name : String} (stream : IsStream name) : Plain name.toList := by
  obtain ⟨position, rfl | rfl⟩ := stream
  · rw [videoStream, String.toList_append]
    exact (plain_intText position).append (by decide +kernel)
  · rw [audioStream, String.toList_append]
    exact (plain_intText position).append (by decide +kernel)

/-- The labels that a graph may have. -/
inductive IsLabel : String → Prop where
  | stream {name : String} (stream : IsStream name) : IsLabel name
  | matte : IsLabel matteLabel
  | mix : IsLabel mixLabel
  | item {kind : String} (known : kind ∈ itemKinds) (layer position : Nat) :
      IsLabel (label kind (itemTag layer position))
  | picture {kind : String} (known : kind ∈ pictureKinds) (number : Nat) :
      IsLabel (label kind (toString number))

theorem IsLabel.plain {name : String} (known : IsLabel name) : Plain name.toList := by
  have kinds : ∀ kind ∈ itemKinds ++ pictureKinds, Plain kind.toList := by decide +kernel
  cases known with
  | stream stream => exact plain_stream stream
  | matte => decide +kernel
  | mix => decide +kernel
  | item known layer position =>
      have tagged : Plain (itemTag layer position).toList :=
        plain_label (plain_natText layer) (plain_natText position)
      exact plain_label (kinds _ (List.mem_append_left _ known)) tagged
  | picture known number =>
      exact plain_label (kinds _ (List.mem_append_right _ known)) (plain_natText number)

theorem exists_itemTag {entry : TimelineItem × String} (member : entry ∈ taggedItems layers) :
    ∃ layer position, entry.2 = itemTag layer position := by
  obtain ⟨⟨layer, layerPosition⟩, -, member⟩ := List.mem_flatMap.mp member
  obtain ⟨⟨item, itemPosition⟩, -, rfl⟩ := List.mem_map.mp member
  exact ⟨layerPosition, itemPosition, rfl⟩

theorem Named.isLabel {first bound : Nat} {name : String} (named : Named tags first bound name)
    (tagged : ∀ tag ∈ tags, ∃ layer position, tag = itemTag layer position) : IsLabel name := by
  cases named with
  | item known member =>
      obtain ⟨layer, position, rfl⟩ := tagged _ member
      exact .item known layer position
  | picture known => exact .picture known _

/-- A graph has no other labels. -/
theorem isLabel_of_mem (compiled : Graph.ofLayers context layers = .ok graph)
    (member : stage ∈ graph.stages) :
    (∀ name ∈ stage.inputs, IsLabel name) ∧ IsLabel stage.output := by
  obtain ⟨draft, items, equal⟩ := bind_eq_ok.mp compiled
  cases equal
  obtain ⟨tags, wired, origin⟩ := (Draft.wired_start context).addItems items
    (taggedItems_distinct layers) (by simp)
  have tagged : ∀ tag ∈ tags, ∃ layer position, tag = itemTag layer position := by
    intro tag used
    obtain ⟨entry, listed, rfl⟩ :=
      List.mem_map.mp ((origin tag used).resolve_left List.not_mem_nil)
    exact exists_itemTag listed
  have defined : ∀ name ∈ definedLabels draft.stages, IsLabel name := by
    intro name known
    rcases wired.named name known with rfl | named
    · exact .matte
    · exact named.isLabel tagged
  rcases Draft.mem_finish member with old | rfl
  · refine ⟨fun name read => ?_, defined _ (List.mem_map_of_mem old)⟩
    obtain ⟨before, after, place⟩ := List.append_of_mem old
    rcases (place ▸ wired.ordered).earlier read with stream | unknown | earlier
    · exact .stream stream
    · contradiction
    · refine defined name ?_
      rw [place, definedLabels_append]
      exact List.mem_append_left _ earlier
  · constructor
    · intro name read
      exact defined name (wired.open_defined (List.mem_cons_of_mem _ read))
    · exact .mix

/-- The labels of a graph are plain. -/
theorem plainLabels_of_mem (compiled : Graph.ofLayers context layers = .ok graph)
    (member : stage ∈ graph.stages) : stage.PlainLabels := by
  obtain ⟨inputs, output⟩ := isLabel_of_mem compiled member
  exact ⟨fun name read => (inputs name read).plain, output.plain⟩

/-! ## Colours -/

/-- A colour that cannot shape a script: one in functional notation, which is rewritten, or one
that is inert. -/
def InertColor (color : String) : Prop :=
  componentsOf? (Text.strip color.toList) = none → Inert color

/-- The colours of an asset cannot shape a script. The colour of a box counts only if it is
hexadecimal. -/
structure InertColors (media : MediaItem) : Prop where
  font : ∀ color ∈ media.fontColor, InertColor color
  background : ∀ color ∈ media.backgroundColor, color.toList.head? = some '#' → InertColor color

theorem isPlain_digitChar (digit : Nat) (bound : digit < 16) :
    isPlain (Nat.digitChar digit) = true := by
  interval_cases digit <;> rfl

theorem plain_componentText {digits text : List Char}
    (written : Caption.componentText digits = .ok text) : Plain text := by
  obtain ⟨value, -, equal⟩ := bind_eq_ok.mp written
  cases equal
  exact .cons (isPlain_digitChar _ (by omega)) (.cons (isPlain_digitChar _ (by omega)) rfl)

/-- A colour in functional notation becomes a hexadecimal one. -/
theorem inert_filterColor {color printed : String} (inert : InertColor color)
    (converted : filterColor color = .ok printed) : Inert printed := by
  simp only [filterColor] at converted
  split at converted
  next foreign =>
    cases converted
    exact inert foreign
  next red green blue _ =>
    obtain ⟨red, writtenRed, rest⟩ := bind_eq_ok.mp converted
    obtain ⟨green, writtenGreen, rest⟩ := bind_eq_ok.mp rest
    obtain ⟨blue, writtenBlue, equal⟩ := bind_eq_ok.mp rest
    cases equal
    have plain : Plain (red ++ green ++ blue) :=
      ((plain_componentText writtenRed).append (plain_componentText writtenGreen)).append
        (plain_componentText writtenBlue)
    have sign : Closed scriptMarks ['#'] := by decide
    rw [Inert, String.toList_ofList]
    exact sign.append (.of_isPlain plain)

theorem inert_boxColor {transparent : Bool} {color? : Option String} {printed : String}
    (inert : ∀ color ∈ color?, color.toList.head? = some '#' → InertColor color)
    (converted : boxColor transparent color? = .ok (some printed)) : Inert printed := by
  simp only [boxColor] at converted
  split at converted
  next => cases converted
  next color named =>
    obtain ⟨candidate, written, equal⟩ := bind_eq_ok.mp converted
    cases equal
    split
    next hexadecimal =>
      -- A colour that is not rewritten is hexadecimal itself, so it is one of those that count.
      refine inert_filterColor (fun foreign => ?_) written
      simp only [filterColor, foreign] at written
      cases written
      exact inert color (Option.filter_eq_some_iff.mp named).1 (by simpa using hexadecimal) foreign
    next => decide +kernel

/-! ## Texts -/

/-- Where the platforms keep their fonts. -/
def fontDirectories : List String :=
  ["C:/Windows/Fonts/", "/usr/share/fonts/truetype/liberation/", "/System/Library/Fonts/"]

/-- The names of all font files. -/
def fontNames : List String :=
  ["arial.ttf", "times.ttf", "georgia.ttf", "verdana.ttf", "arialbi.ttf", "arialbd.ttf",
    "ariali.ttf", "timesbi.ttf", "timesbd.ttf", "timesi.ttf", "LiberationSans-Regular.ttf",
    "LiberationSans-Bold.ttf", "LiberationSans-Italic.ttf", "LiberationSans-BoldItalic.ttf",
    "LiberationSerif-Regular.ttf", "LiberationSerif-Bold.ttf", "LiberationSerif-Italic.ttf",
    "LiberationSerif-BoldItalic.ttf", "Arial.ttf", "Helvetica.ttc", "Times.ttc", "Georgia.ttf",
    "Verdana.ttf"]

/-- Whatever a payload names, its font file is a known one. -/
theorem exists_fontName (family : Option String) (bold italic : Bool) (platform : Platform) :
    ∃ directory ∈ fontDirectories, ∃ name ∈ fontNames,
      fontFile family bold italic platform = directory ++ name := by
  cases platform with
  | windows =>
      have variants : ∀ name ∈ FontFamily.windowsVariant family bold italic, name ∈ fontNames := by
        fun_cases FontFamily.windowsVariant family bold italic
        case case7 => simp
        all_goals simp [fontNames]
      have regular : (FontFamily.ofName family).windowsFile ∈ fontNames := by
        cases FontFamily.ofName family <;> decide
      refine ⟨"C:/Windows/Fonts/", by decide, _, ?_, rfl⟩
      cases variant : FontFamily.windowsVariant family bold italic with
      | none => exact regular
      | some name => exact variants name variant
  | linux =>
      have joined (directory family dash face suffix : String) :
          directory ++ family ++ dash ++ face ++ suffix =
            directory ++ (family ++ dash ++ face ++ suffix) := by
        simp only [String.append_assoc]
      refine ⟨"/usr/share/fonts/truetype/liberation/", by decide, _, ?_, joined _ _ _ _ _⟩
      cases FontFamily.ofName family <;> cases bold <;> cases italic <;> decide +kernel
  | mac =>
      refine ⟨"/System/Library/Fonts/", by decide, (FontFamily.ofName family).macFile, ?_, rfl⟩
      cases FontFamily.ofName family <;> decide

/-- Every font file has a plain name in a directory. -/
theorem quote_not_mem_fontFile (family : Option String) (bold italic : Bool)
    (platform : Platform) : '\'' ∉ (fontFile family bold italic platform).toList := by
  have directories : ∀ directory ∈ fontDirectories, '\'' ∉ directory.toList := by decide +kernel
  have names : ∀ name ∈ fontNames, '\'' ∉ name.toList := by decide +kernel
  obtain ⟨directory, kept, name, known, file⟩ := exists_fontName family bold italic platform
  rw [file, String.toList_append, List.mem_append, not_or]
  exact ⟨directories directory kept, names name known⟩

theorem inert_centred (start length : Int) {extent : String} (inert : Inert extent) :
    Inert (Caption.centred start length extent) :=
  Inert.append (.of_isPlain (plain_intText start)) (by decide +kernel)
    |>.append (.of_isPlain (plain_intText length)) |>.append (by decide +kernel)
    |>.append inert |>.append (by decide +kernel)

/-! ## Times -/

/-- A context whose own numbers have numerals. -/
structure Context.Timed (context : Context) : Prop where
  total : HasNumeral context.totalDuration
  text : ∃ duration, context.textDuration = .real duration

/-- A sum with a binary64 number is one. -/
theorem exists_real_of_add {left sum : Number} {right : Binary64}
    (added : left.add (.real right) = .ok sum) : ∃ value, sum = .real value := by
  cases left with
  | int left =>
      obtain ⟨converted, -, equal⟩ := bind_eq_ok.mp added
      cases equal
      exact ⟨_, rfl⟩
  | real left =>
      cases added
      exact ⟨_, rfl⟩

/-- The times of a text have numerals. -/
theorem hasNumeral_of_textWindow {media : MediaItem} {start finish : Number}
    (timed : context.Timed) (window : textWindow context item media = .ok (start, finish)) :
    HasNumeral start ∧ HasNumeral finish := by
  obtain ⟨standard, standardReal⟩ := timed.text
  obtain ⟨sum, added, equal⟩ := bind_eq_ok.mp window
  cases equal
  constructor
  · split
    · exact ⟨"0", by decide +kernel⟩
    · exact hasNumeral_real _
  · suffices real : ∃ value, finish = .real value by
      obtain ⟨value, rfl⟩ := real
      exact hasNumeral_real value
    -- The start may be an integer, but the duration that is added to it never is.
    generalize (if item.startTime.isZero then 0 else .real item.startTime : Number) = start at added
    split at added
    · split at added
      · exact exists_real_of_add added
      · exact exists_real_of_add (standardReal ▸ added)
    · exact exists_real_of_add added

/-! ## Stages -/

/-- A text stage that draws a caption is sealed if the colour of its asset is inert. -/
theorem DrawText.sealed_of_draws {media : MediaItem} {rect : PixelRect} {caption : Caption}
    {drawText : DrawText} (timed : context.Timed) (colors : InertColors media)
    (captioned : Caption.ofMedia? context.metrics context.platform media rect = .ok (some caption))
    (draws : Draws context item media caption drawText) : drawText.Sealed := by
  have describes := Caption.describes_of_ofMedia? captioned
  have times := hasNumeral_of_textWindow timed draws.timed
  have unquoted : '\'' ∉ caption.layout.wrappedText := fun quote =>
    absurd (describes.not_isReserved quote) (by decide)
  refine ⟨draws.fontSize ▸ hasNumeral_real _, times.1, times.2, ?_, ?_, ?_, ?_, ?_, ?_⟩
  · rw [draws.text, describes.text, String.toList_ofList]
    exact Caption.quote_not_mem_escape unquoted
  · rw [draws.fontFile, describes.fontFile]
    exact quote_not_mem_fontFile _ _ _ _
  · rw [draws.fontColor]
    refine inert_filterColor ?_ describes.fontColor
    cases named : media.fontColor.filter (· != "") with
    | none => exact fun _ => by decide +kernel
    | some color => exact colors.font color (Option.filter_eq_some_iff.mp named).1
  · rw [draws.position.1, describes.xExpression]
    exact inert_centred _ _ (by decide +kernel)
  · rw [draws.position.2, describes.yExpression]
    exact inert_centred _ _ (by decide +kernel)
  · rw [draws.shadow.1]
    decide +kernel

/-- The stages that an item adds are sealed if the colours of its asset are inert. -/
theorem Adds.sealed (adds : Adds context item tag draft stage) (timed : context.Timed)
    (colors : ∀ media, context.library.find? item.mediaId = some media → media.kind = .text →
      InertColors media) : stage.Sealed := by
  cases adds with
  | trim => exact hasNumeral_real _
  | scale => exact hasNumeral_real _
  | overlay => exact ⟨hasNumeral_real _, hasNumeral_real _⟩
  | sound _ _ _ _ chained =>
      cases soundStage_of_mem_chainSteps chained with
      | cut | volume | delay => exact hasNumeral_real _
  | drawBox found kind _ _ captioned fills draws =>
      have times := hasNumeral_of_textWindow timed draws.timed
      have background := (Caption.describes_of_ofMedia? captioned).backgroundColor
      rw [fills.color] at background
      exact ⟨fills.timed.1 ▸ times.1, fills.timed.2 ▸ times.2,
        inert_boxColor (colors _ found kind).background background⟩
  | drawText found kind _ _ captioned draws =>
      exact DrawText.sealed_of_draws timed (colors _ found kind) captioned draws

/-! ## Graphs -/

/-- A graph is sealed if the colours of the texts in its library are inert. -/
theorem sealed_of_mem (compiled : Graph.ofLayers context layers = .ok graph)
    (timed : context.Timed)
    (colors : ∀ id media, context.library.find? id = some media → media.kind = .text →
      InertColors media)
    (member : stage ∈ graph.stages) : stage.Sealed := by
  rcases origin_of_mem compiled member with matte | ⟨item, compiledFor⟩ | ⟨branches, -, rfl⟩
  · have black : Inert "black" := by decide +kernel
    rw [List.mem_singleton.mp matte]
    exact ⟨timed.total, black⟩
  · obtain ⟨tag, draft, adds⟩ := compiledFor.adds
    exact adds.sealed timed (colors item.mediaId)
  · have longest : Inert "longest" := by decide +kernel
    exact longest

theorem stages_ne_nil (compiled : Graph.ofLayers context layers = .ok graph) :
    graph.stages ≠ [] := by
  obtain ⟨draft, items, equal⟩ := bind_eq_ok.mp compiled
  cases equal
  obtain ⟨tags, wired⟩ := wired_of_prefix (List.append_nil _).symm items
  obtain ⟨stage, member, -⟩ := List.mem_map.mp (wired.open_defined List.mem_cons_self)
  exact List.ne_nil_of_mem (List.mem_append_left _ member)

/-- The script of a graph exists and reads as the statements of its stages. -/
theorem Graph.exists_script (compiled : Graph.ofLayers context layers = .ok graph)
    (timed : context.Timed)
    (colors : ∀ id media, context.library.find? id = some media → media.kind = .text →
      InertColors media) :
    ∃ script, graph.script = .ok script ∧
      List.Forall₂ ReadsAs graph.stages (readStatements script) :=
  Filter.exists_script (stages_ne_nil compiled)
    (fun _ => sealed_of_mem compiled timed colors) fun _ => plainLabels_of_mem compiled

end Montage.Filter
