import Montage.Failure
import Montage.Schema.Record
import Montage.Timeline

/-!
# Timelines as documents

The records of a timeline and the names of their fields. Most fields have a wire spelling in camel
case and a plain spelling in snake case; both are read. Keys that belong to no field are ignored.
-/

namespace Montage

open Schema

/-- Kinds of assets by name. -/
def MediaKind.choices : List (String × MediaKind) :=
  [("video", .video), ("image", .image), ("audio", .audio), ("voiceover", .voiceover),
    ("text", .text)]

/-- Alignments by name. -/
def TextAlignment.choices : List (String × TextAlignment) :=
  [("left", .left), ("center", .center), ("right", .right)]

/-- A share of the frame. -/
def readShare : Reader Number :=
  fun value => Number.real <$> readNumber value

/-- A placement. Its fields have a single spelling. -/
def Geometry.read : Reader Geometry :=
  readRecord "Geometry" fun entries =>
    Geometry.mk
      <$> defaulted (.single "x") 0 readShare entries
      <*> defaulted (.single "y") 0 readShare entries
      <*> defaulted (.single "width") 1 readShare entries
      <*> defaulted (.single "height") 1 readShare entries
      <*> optional (.single "rotation") readNumber entries

/-- An asset. -/
def MediaItem.read : Reader MediaItem :=
  readRecord "MediaItem" fun entries =>
    MediaItem.mk
      <$> required (.single "id") readString entries
      <*> required (.single "type") (readChoice MediaKind.choices) entries
      <*> defaulted ⟨"filePath", "file_path"⟩ "" readString entries
      <*> optional (.single "duration") readNumber entries
      <*> optional (.single "volume") readNumber entries
      <*> defaulted (.single "muted") false readBoolean entries
      <*> optional (.single "x") readNumber entries
      <*> optional (.single "y") readNumber entries
      <*> optional (.single "width") readNumber entries
      <*> optional (.single "height") readNumber entries
      <*> optional (.single "text") readString entries
      <*> optional ⟨"fontFamily", "font_family"⟩ readString entries
      <*> optional ⟨"fontSize", "font_size"⟩ readNumber entries
      <*> defaulted ⟨"fontBold", "font_bold"⟩ false readBoolean entries
      <*> defaulted ⟨"fontItalic", "font_italic"⟩ false readBoolean entries
      <*> optional ⟨"fontColor", "font_color"⟩ readString entries
      <*> optional ⟨"backgroundColor", "background_color"⟩ readString entries
      <*> defaulted ⟨"backgroundTransparent", "background_transparent"⟩ false readBoolean entries
      <*> optional ⟨"textAlignment", "text_alignment"⟩ (readChoice TextAlignment.choices) entries

/-- An asset placed in time. -/
def TimelineItem.read : Reader TimelineItem :=
  readRecord "TimelineItem" fun entries =>
    TimelineItem.mk
      <$> required (.single "id") readString entries
      <*> required ⟨"mediaId", "media_id"⟩ readString entries
      <*> defaulted ⟨"startTime", "start_time"⟩ 0 readNumber entries
      <*> defaulted (.single "duration") 0 readNumber entries
      <*> defaulted (.single "track") 0 readInteger entries
      <*> optional (.single "geometry") Geometry.read entries

/-- A layer. Its fields have a single spelling. -/
def Layer.read : Reader Layer :=
  readRecord "Layer" fun entries =>
    Layer.mk
      <$> required (.single "id") readString entries
      <*> defaulted (.single "name") "" readString entries
      <*> defaulted (.single "visible") true readBoolean entries
      <*> defaulted (.single "locked") false readBoolean entries
      <*> optional (.single "type") readString entries
      <*> defaulted (.single "items") [] (readList TimelineItem.read) entries

/-- What is known about the whole film. -/
def TimelineInfo.read : Reader TimelineInfo :=
  readRecord "TimelineInfo" fun entries =>
    TimelineInfo.mk <$> optional ⟨"totalDuration", "total_duration"⟩ readNumber entries

/-- Settings of the editor. -/
def EditorSettings.read : Reader EditorSettings :=
  readRecord "EditorSettings" fun entries =>
    EditorSettings.mk <$> optional ⟨"videoStyle", "video_style"⟩ readString entries

/-- A request to render a film. Every part may be left out. -/
def RenderPayload.read : Reader RenderPayload :=
  readRecord "RenderPayload" fun entries =>
    RenderPayload.mk
      <$> defaulted (.single "layers") [] (readList Layer.read) entries
      <*> defaulted ⟨"mediaLibrary", "media_library"⟩ [] (readList MediaItem.read) entries
      <*> defaulted (.single "timeline") ⟨none⟩ TimelineInfo.read entries
      <*> defaulted ⟨"editorSettings", "editor_settings"⟩ ⟨none⟩ EditorSettings.read entries

/-- The text that reports the first fault of a payload. A fault of the payload as a whole has no
place to name. -/
def faultReport (fault : Fault) : String :=
  let place := " -> ".intercalate (fault.path.map PathStep.text)
  if place.isEmpty then fault.cause.message
  else "Invalid render payload: " ++ place ++ ": " ++ fault.cause.message

/-- Check a document as a payload. The first fault is reported. -/
def RenderPayload.parse (document : Json) : Except Failure RenderPayload :=
  match RenderPayload.read document with
  | .valid payload => .ok payload
  | .invalid (fault :: _) => .error (Failure.invalidInput (faultReport fault))
  | .invalid [] => .error (Failure.invalidInput "Validation error")

end Montage
