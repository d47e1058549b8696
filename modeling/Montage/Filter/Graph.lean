import Montage.Caption
import Montage.Filter.Statement
import Montage.Inputs

/-!
# Filter graphs of timelines

The picture is one chain. It starts with a black matte, and each visible item is drawn on the
result of those before it. Sounds are branches of their own that are mixed at the end.

Labels of items carry the position of the item among the visible layers, labels of pictures a
number that grows with every picture drawn. Both stay the same when something is added behind.
-/

namespace Montage.Filter

/-- What a graph is compiled from, apart from the layers. -/
structure Context where
  library : Library
  sources : Table Source
  frame : FrameSize
  totalDuration : Number
  metrics : Caption.TextMetrics := {}
  /-- How long a text is shown when nothing says so. -/
  textDuration : Number := .real 5
  rate : Number := 30
  platform : Platform := .linux

/-- The labels that a command takes from a graph. -/
structure Outputs where
  video : String
  audio : Option String
  deriving DecidableEq

/-- A compiled graph. -/
structure Graph where
  stages : List Stage
  outputs : Outputs
  audioBranches : List String
  deriving DecidableEq

namespace Graph

/-- The stages as entries of a list. -/
def entries (graph : Graph) : List Entry :=
  graph.stages.map .stage

/-- The statements of the stages. -/
def statements (graph : Graph) : Except Failure (List String) :=
  Filter.statements graph.entries

/-- The text of the filter script. -/
def script (graph : Graph) : Except Failure String :=
  Filter.script graph.entries statementSeparator

end Graph

/-- What has been compiled so far. -/
structure Draft where
  stages : List Stage
  /-- The label of the picture with everything drawn so far. -/
  video : String
  audioBranches : List String := []
  /-- The number that the next picture takes. -/
  pictures : Nat := 0
  deriving DecidableEq

/-! ## Labels -/

/-- The label of the matte. -/
def matteLabel : String := "bg"

/-- The label of the mixed sound. -/
def mixLabel : String := "audio_final"

/-- A label from a kind of stage and what tells it from others of its kind. -/
def label (kind tag : String) : String :=
  kind ++ "_" ++ tag

/-- The tag of an item from its position among the visible layers. -/
def itemTag (layer item : Nat) : String :=
  toString layer ++ "_" ++ toString item

/-- The picture stream of an input. -/
def videoStream (position : Int) : String :=
  toString position ++ ":v"

/-- The sound stream of an input. -/
def audioStream (position : Int) : String :=
  toString position ++ ":a"

/-! ## Items -/

/-- Lay a scaled picture over everything drawn so far, while the item lasts. -/
def Draft.overlay (draft : Draft) (before : List Stage) (source : String)
    (rect : PixelRect) (item : TimelineItem) (tag : String) : Draft :=
  let scaled := label "item" tag
  let output := label "overlay" (toString draft.pictures)
  let scale : Scale :=
    { input := source, output := scaled, width := .int rect.width, height := .int rect.height
      rotation := .real rect.rotation }
  let overlay : Overlay :=
    { base := draft.video, overlay := scaled, output := output
      x := .int rect.x, y := .int rect.y
      start := .real item.startTime, finish := .real (item.startTime + item.duration) }
  { draft with
    stages := draft.stages ++ before ++ [.scale scale, .overlay overlay]
    video := output
    pictures := draft.pictures + 1 }

/-- Draw a still picture. -/
def addImage (context : Context) (item : TimelineItem) (media : MediaItem) (position : Int)
    (tag : String) (draft : Draft) : Except ArithmeticError Draft := do
  let rect ← Geometry.resolve item.geometry (some media) context.frame
  return draft.overlay [] (videoStream position) rect item tag

/-- Draw a moving picture, cut to the time of its item. An item without time is passed over. -/
def addVideo (context : Context) (item : TimelineItem) (media : MediaItem) (position : Int)
    (tag : String) (draft : Draft) : Except ArithmeticError Draft := do
  if item.duration ≤ 0 then return draft
  else
    let rect ← Geometry.resolve item.geometry (some media) context.frame
    let trimmed := label "trim" tag
    let trim : Trim :=
      { input := videoStream position, output := trimmed, duration := .real item.duration }
    return draft.overlay [.trim trim] trimmed rect item tag

/-- The loudness of an asset in percent. -/
def loudness (media : MediaItem) : Binary64 :=
  media.volume.getD 100

/-- The steps of a sound, each with the kind of its label and the stage it makes between two
labels: the cut, then the loudness and the delay where they change something. -/
def soundSteps (item : TimelineItem) (factor : Binary64) :
    List (String × (String → String → Stage)) :=
  let cut := fun input output =>
    Stage.trim { input := input, output := output, duration := .real item.duration, audio := true }
  let volume := fun input output =>
    Stage.volume { input := input, output := output, factor := .real factor }
  let delay := fun input output =>
    Stage.delay
      { input := input, output := output, milliseconds := .real (item.startTime * 1000) }
  [("atrim", cut)] ++
    (if factor.equals 1 then [] else [("avol", volume)]) ++
    (if 0 < item.startTime then [("adelay", delay)] else [])

/-- Chain steps from a label on. The last step defines the label of the branch. -/
def chainSteps (tag branch : String) (source : String) :
    List (String × (String → String → Stage)) → List Stage
  | [] => []
  | [(_, make)] => [make source branch]
  | (kind, make) :: rest =>
      let target := label kind tag
      make source target :: chainSteps tag branch target rest

/-- Add a sound as a branch. A silent item, or one without time, is passed over. -/
def addAudio (item : TimelineItem) (media : MediaItem) (position : Int) (tag : String)
    (draft : Draft) : Except ArithmeticError Draft := do
  let percent := loudness media
  if media.muted || percent.isZero then return draft
  else if item.duration ≤ 0 then return draft
  else
    let factor ← percent.div 100
    let branch := label "audio" tag
    return { draft with
      stages := draft.stages ++
        chainSteps tag branch (audioStream position) (soundSteps item factor)
      audioBranches := draft.audioBranches ++ [branch] }

/-- The time at which a text appears and the time at which it goes. A text without a duration of
its own lasts as long as its asset says, or else the standard time. A start of zero is an integer,
so the end of a standard time that is one stays exact. -/
def textWindow (context : Context) (item : TimelineItem) (media : MediaItem) :
    Except ArithmeticError (Number × Number) := do
  let start : Number := if item.startTime.isZero then 0 else .real item.startTime
  let standard : Number :=
    match media.duration.filter (!·.isZero) with
    | some duration => .real duration
    | none => context.textDuration
  let duration := if item.duration.isZero then standard else .real item.duration
  return (start, ← start.add duration)

/-- Draw a text, on a filled box where its asset has a colour for one. -/
def addText (context : Context) (item : TimelineItem) (media : MediaItem) (draft : Draft) :
    Except ArithmeticError Draft := do
  let rect ← Geometry.resolve item.geometry (some media) context.frame
  match ← Caption.ofMedia? context.metrics context.platform media rect with
  | none => return draft
  | some caption =>
      let (start, finish) ← textWindow context item media
      let boxed : Draft :=
        match caption.backgroundColor with
        | none => draft
        | some color =>
            let output := label "bgbox" (toString draft.pictures)
            let box : DrawBox :=
              { input := draft.video, output := output
                x := .int rect.x, y := .int rect.y
                width := .int rect.width, height := .int rect.height, color := color
                start := start, finish := finish }
            { draft with
              stages := draft.stages ++ [.drawBox box]
              video := output
              pictures := draft.pictures + 1 }
      let output := label "text" (toString boxed.pictures)
      let spacing ← caption.layout.lineSpacing
      let text : DrawText :=
        { input := boxed.video, output := output, text := caption.text
          fontSize := .real caption.layout.fontSize, fontColor := caption.fontColor
          fontFile := caption.fontFile, x := caption.xExpression, y := caption.yExpression
          start := start, finish := finish, lineSpacing := .int spacing }
      return { boxed with
        stages := boxed.stages ++ [.drawText text]
        video := output
        pictures := boxed.pictures + 1 }

/-- Compile one item. An item whose asset is unknown, has no source, or needs an input and has
none, is passed over. -/
def addItem (context : Context) (item : TimelineItem) (tag : String) (draft : Draft) :
    Except ArithmeticError Draft :=
  match context.library.find? item.mediaId with
  | none => .ok draft
  | some media =>
      match context.sources.find? media.id, media.kind with
      | none, _ => .ok draft
      | some _, .text => addText context item media draft
      | some .drawn, _ => .ok draft
      | some (.input position), .image => addImage context item media position tag draft
      | some (.input position), .video => addVideo context item media position tag draft
      | some (.input position), .audio => addAudio item media position tag draft
      | some (.input position), .voiceover => addAudio item media position tag draft

/-! ## Layers -/

/-- The items of visible layers with their tags, in the order of painting. -/
def taggedItems (layers : List Layer) : List (TimelineItem × String) :=
  (layers.filter (·.visible)).zipIdx.flatMap fun (layer, layerPosition) =>
    layer.items.zipIdx.map fun (item, itemPosition) =>
      (item, itemTag layerPosition itemPosition)

/-- Compile items one after another. -/
def addItems (context : Context) (items : List (TimelineItem × String)) (draft : Draft) :
    Except ArithmeticError Draft :=
  items.foldlM (fun draft (item, tag) => addItem context item tag draft) draft

/-- The graph before anything is drawn. -/
def Draft.start (context : Context) : Draft :=
  let matte : Background :=
    { output := matteLabel, width := .int context.frame.width, height := .int context.frame.height
      duration := context.totalDuration, rate := context.rate }
  { stages := [.background matte], video := matteLabel }

/-- The finished graph. A single sound is the sound of the film; several are mixed. -/
def Draft.finish (draft : Draft) : Graph :=
  let audio : List Stage × Option String :=
    match draft.audioBranches with
    | [] => ([], none)
    | [branch] => ([], some branch)
    | branches => ([.mix { inputs := branches, output := mixLabel }], some mixLabel)
  { stages := draft.stages ++ audio.1
    outputs := { video := draft.video, audio := audio.2 }
    audioBranches := draft.audioBranches }

/-- The graph of the visible layers. -/
def Graph.ofLayers (context : Context) (layers : List Layer) : Except ArithmeticError Graph := do
  let draft ← addItems context (taggedItems layers) (Draft.start context)
  return draft.finish

end Montage.Filter
