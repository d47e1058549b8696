import Montage.Number

/-!
# Timelines

A payload describes one film. The media library defines the assets; layers place them in time.
Later layers lie on top of earlier ones, and items of a layer on top of those before them.
-/

namespace Montage

/-- A placement relative to the frame: all sizes are shares of its width or height. What is left
out is the integer zero or one, whose share of a length is exact. -/
structure Geometry where
  x : Number := 0
  y : Number := 0
  width : Number := 1
  height : Number := 1
  rotation : Option Binary64 := none
  deriving DecidableEq

/-- The kinds of assets. -/
inductive MediaKind where
  | video
  | image
  | audio
  | voiceover
  | text
  deriving DecidableEq, Repr

/-- Where the lines of a text would begin. Text is always centred in its box, so the choice is
kept but has no effect. -/
inductive TextAlignment where
  | left
  | center
  | right
  deriving DecidableEq, Repr

/-- An asset of the media library. -/
structure MediaItem where
  id : String
  kind : MediaKind
  filePath : String
  duration : Option Binary64
  /-- Loudness in percent. -/
  volume : Option Binary64
  muted : Bool
  /-- Where the asset is placed when a timeline item says nothing. -/
  x : Option Binary64
  y : Option Binary64
  width : Option Binary64
  height : Option Binary64
  text : Option String
  fontFamily : Option String
  fontSize : Option Binary64
  fontBold : Bool
  fontItalic : Bool
  fontColor : Option String
  backgroundColor : Option String
  backgroundTransparent : Bool
  textAlignment : Option TextAlignment
  deriving DecidableEq

/-- An asset placed in time. -/
structure TimelineItem where
  id : String
  mediaId : String
  startTime : Binary64
  duration : Binary64
  track : Int
  geometry : Option Geometry
  deriving DecidableEq

/-- A track of items that lie at one depth. -/
structure Layer where
  id : String
  name : String
  visible : Bool
  locked : Bool
  kind : Option String
  items : List TimelineItem
  deriving DecidableEq

/-- What is known about the whole film. -/
structure TimelineInfo where
  totalDuration : Option Binary64
  deriving DecidableEq

/-- Settings of the editor that concern the film. -/
structure EditorSettings where
  /-- The name of an output format. Unknown names are allowed. -/
  videoStyle : Option String
  deriving DecidableEq

/-- A complete request to render a film. -/
structure RenderPayload where
  layers : List Layer
  mediaLibrary : List MediaItem
  timeline : TimelineInfo
  editorSettings : EditorSettings
  deriving DecidableEq

end Montage
