import Montage.Timeline.Document

/-!
# Documents of timelines

Every record of a timeline has a document that lists all of its fields under their plain spelling,
in the order in which they are declared. A field without a value is null.
-/

namespace Montage

/-- The document of a share of the frame. It is written as a binary64 number where it is one. -/
def shareDocument (share : Number) : Json :=
  match share.toBinary64 with
  | .ok value => .ofBinary64 value
  | .error _ => .number share

/-- The document of a placement. -/
def Geometry.document (geometry : Geometry) : Json :=
  .object [("x", shareDocument geometry.x), ("y", shareDocument geometry.y),
    ("width", shareDocument geometry.width), ("height", shareDocument geometry.height),
    ("rotation", .ofOption .ofBinary64 geometry.rotation)]

/-- The document of an asset. -/
def MediaItem.document (media : MediaItem) : Json :=
  .object [("id", .string media.id), ("type", .ofChoice MediaKind.choices media.kind),
    ("file_path", .string media.filePath), ("duration", .ofOption .ofBinary64 media.duration),
    ("volume", .ofOption .ofBinary64 media.volume), ("muted", .bool media.muted),
    ("x", .ofOption .ofBinary64 media.x), ("y", .ofOption .ofBinary64 media.y),
    ("width", .ofOption .ofBinary64 media.width), ("height", .ofOption .ofBinary64 media.height),
    ("text", .ofOption .string media.text), ("font_family", .ofOption .string media.fontFamily),
    ("font_size", .ofOption .ofBinary64 media.fontSize), ("font_bold", .bool media.fontBold),
    ("font_italic", .bool media.fontItalic), ("font_color", .ofOption .string media.fontColor),
    ("background_color", .ofOption .string media.backgroundColor),
    ("background_transparent", .bool media.backgroundTransparent),
    ("text_alignment", .ofOption (.ofChoice TextAlignment.choices) media.textAlignment)]

/-- The document of an asset placed in time. -/
def TimelineItem.document (item : TimelineItem) : Json :=
  .object [("id", .string item.id), ("media_id", .string item.mediaId),
    ("start_time", .ofBinary64 item.startTime), ("duration", .ofBinary64 item.duration),
    ("track", .ofInt item.track),
    ("geometry", .ofOption Geometry.document item.geometry)]

/-- The document of a layer. -/
def Layer.document (layer : Layer) : Json :=
  .object [("id", .string layer.id), ("name", .string layer.name),
    ("visible", .bool layer.visible), ("locked", .bool layer.locked),
    ("type", .ofOption .string layer.kind),
    ("items", .array (layer.items.map TimelineItem.document))]

/-- The document of what is known about the whole film. -/
def TimelineInfo.document (info : TimelineInfo) : Json :=
  .object [("total_duration", .ofOption .ofBinary64 info.totalDuration)]

/-- The document of the settings of the editor. -/
def EditorSettings.document (editor : EditorSettings) : Json :=
  .object [("video_style", .ofOption .string editor.videoStyle)]

/-- The document of a request to render a film. -/
def RenderPayload.document (payload : RenderPayload) : Json :=
  .object [("layers", .array (payload.layers.map Layer.document)),
    ("media_library", .array (payload.mediaLibrary.map MediaItem.document)),
    ("timeline", payload.timeline.document),
    ("editor_settings", payload.editorSettings.document)]

end Montage
