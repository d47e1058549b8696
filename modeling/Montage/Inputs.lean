import Montage.Failure
import Montage.Table
import Montage.Timeline

/-!
# Input files of a film

The assets that visible layers use are numbered in the order in which they are first met. An asset
with a file takes the next input; text needs none and is only marked as used. Assets that cannot
be read are passed over.
-/

namespace Montage

/-- The assets of a library by id. Of two assets with one id the later one counts. -/
abbrev Library := Table MediaItem

/-- The library of a list of assets. -/
def Library.ofList (assets : List MediaItem) : Library :=
  Table.ofEntries (assets.map fun media => (media.id, media))

/-- Where the content of an asset comes from. -/
inductive Source where
  /-- The content is drawn; no file is read. -/
  | drawn
  /-- The input at this position. -/
  | input (position : Int)
  deriving DecidableEq, Repr

/-- The assets that a film uses and the inputs that they come from. -/
structure Inputs where
  library : Library
  used : List MediaItem := []
  sources : Table Source := []
  files : List String := []
  deriving DecidableEq

/-! ## Paths -/

/-- Holds of paths that start with the letter of a drive. -/
def hasDrive (path : List Char) : Bool :=
  match path with
  | letter :: ':' :: separator :: _ =>
      letter.isAlpha && (separator == '\\' || separator == '/')
  | _ => false

/-- A path below a directory. -/
def joinPath (directory path : String) : String :=
  if path.toList.head? == some '/' then path
  else if directory.isEmpty || directory.toList.getLast? == some '/' then directory ++ path
  else directory ++ "/" ++ path

/-- The path of an asset. A path that is absolute, or starts with a drive, does not depend on the
directory of the media. -/
def mediaPath (path root : String) : String :=
  if path.toList.head? == some '/' || hasDrive path.toList then path else joinPath root path

/-- The file that holds the content of an asset, if there is one. Content that lives in the memory
of a browser has none. -/
def MediaItem.file? (media : MediaItem) (root : String) (isFile : String → Bool) :
    Option String :=
  if media.filePath.isEmpty || "blob:".toList.isPrefixOf media.filePath.toList then none
  else
    let path := mediaPath media.filePath root
    if isFile path then some path else none

/-! ## Numbering -/

namespace Inputs

/-- Number the asset of an item, unless it is unknown, numbered already or without content. -/
def addItem (root : String) (isFile : String → Bool) (inputs : Inputs) (item : TimelineItem) :
    Inputs :=
  match inputs.library.find? item.mediaId with
  | none => inputs
  | some media =>
      if inputs.sources.has media.id then inputs
      else if media.kind = .text then
        { inputs with
          used := inputs.used ++ [media]
          sources := inputs.sources.insert media.id .drawn }
      else
        match media.file? root isFile with
        | none => inputs
        | some path =>
            { inputs with
              used := inputs.used ++ [media]
              sources := inputs.sources.insert media.id (.input inputs.files.length)
              files := inputs.files ++ [path] }

/-- The items that can be seen or heard, in the order of painting. -/
def visibleItems (layers : List Layer) : List TimelineItem :=
  (layers.filter (·.visible)).flatMap (·.items)

/-- Number the assets of all items, whether or not any is usable. -/
def collect (layers : List Layer) (assets : List MediaItem) (root : String)
    (isFile : String → Bool) : Inputs :=
  (visibleItems layers).foldl (addItem root isFile) { library := Library.ofList assets }

/-- Number the assets of all visible items. A film without a usable asset is refused. -/
def ofTimeline (layers : List Layer) (assets : List MediaItem) (root : String)
    (isFile : String → Bool) : Except Failure Inputs :=
  let inputs := collect layers assets root isFile
  if inputs.used.isEmpty then .error (Failure.invalidInput "No valid media items found")
  else .ok inputs

end Inputs

end Montage
