import Montage.Json.Reader
import Montage.Schema.Record

/-!
# Settings

Every setting has a standard value. An environment variable replaces it, and a value that the
program gives replaces both. The name of a variable is the name of the setting after a common
start. Names may be spelled in any mixture of capital and small letters.
-/

namespace Montage

open Schema

/-- Where the program runs. -/
inductive Environment where
  | development
  | staging
  | production
  deriving DecidableEq, Repr

namespace Environment

/-- Environments by name. -/
def choices : List (String × Environment) :=
  [("development", .development), ("staging", .staging), ("production", .production)]

/-- The name of an environment. -/
def name : Environment → String
  | .development => "development"
  | .staging => "staging"
  | .production => "production"

end Environment

/-- The settings of the program. -/
structure Settings where
  appName : String := "Storyreel Render API"
  appVersion : String := "0.1.0"
  environment : Environment := .development
  debug : Bool := true
  logLevel : String := "INFO"
  corsOriginsRaw : String := "http://localhost:5173,http://localhost:3000"
  ffmpegPath : String := "ffmpeg"
  /-- The directory that relative media paths start from. -/
  mediaRoot : String := "/tmp/storyreel/media"
  renderOutputDir : String := "/tmp/storyreel/renders"
  renderTempDir : Option String := none
  renderFps : Int := 30
  renderVideoCodec : String := "libx264"
  renderPreset : String := "medium"
  renderCrf : Int := 23
  renderPixFmt : String := "yuv420p"
  renderAudioCodec : String := "aac"
  renderAudioSampleRate : Int := 48000
  renderDefaultDuration : Binary64 := 30
  renderDefaultTextDuration : Binary64 := 5
  deriving DecidableEq

namespace Settings

/-- The settings that nothing replaces. -/
def standard : Settings := {}

/-- The settings that a list of entries describes; unknown names are ignored. -/
def ofEntries (entries : Json.Entries) : Checked Settings :=
  let text (name : String) (value : String) := defaulted (.single name) value readString entries
  let integer (name : String) (value : Int) := defaulted (.single name) value readInteger entries
  let number (name : String) (value : Binary64) :=
    defaulted (.single name) value readNumber entries
  Settings.mk
    <$> text "app_name" standard.appName
    <*> text "app_version" standard.appVersion
    <*> defaulted (.single "environment") standard.environment (readChoice Environment.choices)
          entries
    <*> defaulted (.single "debug") standard.debug readBoolean entries
    <*> text "log_level" standard.logLevel
    <*> text "cors_origins_raw" standard.corsOriginsRaw
    <*> text "ffmpeg_path" standard.ffmpegPath
    <*> text "media_root" standard.mediaRoot
    <*> text "render_output_dir" standard.renderOutputDir
    <*> optional (.single "render_temp_dir") readString entries
    <*> integer "render_fps" standard.renderFps
    <*> text "render_video_codec" standard.renderVideoCodec
    <*> text "render_preset" standard.renderPreset
    <*> integer "render_crf" standard.renderCrf
    <*> text "render_pix_fmt" standard.renderPixFmt
    <*> text "render_audio_codec" standard.renderAudioCodec
    <*> integer "render_audio_sample_rate" standard.renderAudioSampleRate
    <*> number "render_default_duration_s" standard.renderDefaultDuration
    <*> number "render_default_text_duration_s" standard.renderDefaultTextDuration

/-- What the name of every environment variable of the program starts with. -/
def variableStart : List Char := "storyreel_".toList

/-- The setting that an environment variable names. -/
def settingOfVariable? (variableName : String) : Option String :=
  let name := Text.lowerAscii variableName.toList
  if variableStart.isPrefixOf name then some (String.ofList (name.drop variableStart.length))
  else none

/-- The entries that environment assignments give. Of two assignments for one setting the later one
counts. -/
def variableEntries (assignments : List (String × String)) : Json.Entries :=
  assignments.foldl
    (fun entries (name, value) =>
      match settingOfVariable? name with
      | some setting => Table.insert entries setting (.string value)
      | none => entries)
    []

/-- Entries under the plain spelling of their names. -/
def plainEntries (given : Json.Entries) : Json.Entries :=
  given.map fun (name, value) => (String.ofList (Text.lowerAscii name.toList), value)

/-- The settings under an environment. A given value wins over a variable, and of the values that
are given under spellings of one name the first one counts. -/
def read (assignments : List (String × String)) (given : Json.Entries) : Checked Settings :=
  ofEntries (plainEntries given ++ variableEntries assignments)

/-- The origins that may call from a browser: the JSON value of the setting where it is an array
in JSON, and else the parts between its commas that are not blank. -/
def corsOrigins (settings : Settings) : Except Failure Json :=
  let raw := settings.corsOriginsRaw.toList
  let parts := ((Text.pieces (· == ',') raw).map Text.strip).filter fun part => !part.isEmpty
  let listed := Json.array (parts.map fun part => .string (String.ofList part))
  if raw.head? == some '[' then
    match Json.read raw with
    | .ok value => .ok value
    | .error .malformed => .ok listed
    | .error (.arithmetic cause) => .error (.arithmetic cause)
    | .error (.nestedTooDeep container) => .error (.nestedTooDeep container)
  else .ok listed

/-- The document of the settings: every setting under its name, in the order in which they are
declared. -/
def document (settings : Settings) : Json :=
  .object [("app_name", .string settings.appName), ("app_version", .string settings.appVersion),
    ("environment", .string settings.environment.name), ("debug", .bool settings.debug),
    ("log_level", .string settings.logLevel),
    ("cors_origins_raw", .string settings.corsOriginsRaw),
    ("ffmpeg_path", .string settings.ffmpegPath), ("media_root", .string settings.mediaRoot),
    ("render_output_dir", .string settings.renderOutputDir),
    ("render_temp_dir", .ofOption .string settings.renderTempDir),
    ("render_fps", .ofInt settings.renderFps),
    ("render_video_codec", .string settings.renderVideoCodec),
    ("render_preset", .string settings.renderPreset), ("render_crf", .ofInt settings.renderCrf),
    ("render_pix_fmt", .string settings.renderPixFmt),
    ("render_audio_codec", .string settings.renderAudioCodec),
    ("render_audio_sample_rate", .ofInt settings.renderAudioSampleRate),
    ("render_default_duration_s", .ofBinary64 settings.renderDefaultDuration),
    ("render_default_text_duration_s", .ofBinary64 settings.renderDefaultTextDuration)]

end Settings

end Montage
