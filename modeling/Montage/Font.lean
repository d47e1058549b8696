/-!
# Font files

The text filter has no switches for weight and slant, so a bold or italic face is another file.
Each platform has its own directory and its own file names.
-/

namespace Montage

/-- The families of fonts that text may name. -/
inductive FontFamily where
  | arial
  | helvetica
  | timesNewRoman
  | georgia
  | verdana
  deriving DecidableEq, Repr

/-- The family that a name stands for. Every other name, and none, is Arial. -/
def FontFamily.ofName (name : Option String) : FontFamily :=
  match name with
  | some "Helvetica" => .helvetica
  | some "Times New Roman" => .timesNewRoman
  | some "Georgia" => .georgia
  | some "Verdana" => .verdana
  | _ => .arial

/-- The platforms that keep their fonts in different places. -/
inductive Platform where
  | windows
  | linux
  | mac
  deriving DecidableEq, Repr

/-- The platform of a system name. An empty name is Linux, an unknown one counts as a Mac. -/
def Platform.ofName (name : String) : Platform :=
  if name.isEmpty then .linux
  else if "win".toList.isPrefixOf name.toList then .windows
  else if "linux".toList.isPrefixOf name.toList then .linux
  else .mac

namespace FontFamily

/-- The regular face on Windows. -/
def windowsFile : FontFamily → String
  | .arial | .helvetica => "arial.ttf"
  | .timesNewRoman => "times.ttf"
  | .georgia => "georgia.ttf"
  | .verdana => "verdana.ttf"

/-- The bold and italic faces on Windows. A name must be known for its variants to be used, so
text without a family stays regular. -/
def windowsVariant (name : Option String) (bold italic : Bool) : Option String :=
  match name, bold, italic with
  | some "Arial", true, true => some "arialbi.ttf"
  | some "Arial", true, false => some "arialbd.ttf"
  | some "Arial", false, true => some "ariali.ttf"
  | some "Times New Roman", true, true => some "timesbi.ttf"
  | some "Times New Roman", true, false => some "timesbd.ttf"
  | some "Times New Roman", false, true => some "timesi.ttf"
  | _, _, _ => none

/-- The face on a Mac, where weight and slant are not selected. -/
def macFile : FontFamily → String
  | .arial => "Arial.ttf"
  | .helvetica => "Helvetica.ttc"
  | .timesNewRoman => "Times.ttc"
  | .georgia => "Georgia.ttf"
  | .verdana => "Verdana.ttf"

/-- The Liberation family with the same metrics. -/
def liberationName : FontFamily → String
  | .timesNewRoman | .georgia => "LiberationSerif"
  | _ => "LiberationSans"

end FontFamily

/-- The face name of a weight and slant. -/
def faceName (bold italic : Bool) : String :=
  match bold, italic with
  | true, true => "BoldItalic"
  | true, false => "Bold"
  | false, true => "Italic"
  | false, false => "Regular"

/-- The font file of a family and style on a platform. -/
def fontFile (family : Option String) (bold italic : Bool) (platform : Platform) : String :=
  match platform with
  | .windows =>
      "C:/Windows/Fonts/" ++
        (FontFamily.windowsVariant family bold italic).getD
          (FontFamily.ofName family).windowsFile
  | .linux =>
      "/usr/share/fonts/truetype/liberation/" ++ (FontFamily.ofName family).liberationName ++
        "-" ++ faceName bold italic ++ ".ttf"
  | .mac => "/System/Library/Fonts/" ++ (FontFamily.ofName family).macFile

end Montage
