import Montage.Proofs.Caption.Layout
import Montage.Proofs.Caption.Wrap

/-!
# Captions

The text of a caption is that of its asset without reserved characters, wrapped and escaped. The
other parts come from the asset and the box alone.
-/

namespace Montage.Caption

open Montage.Text (Tight)

variable {text : List Char} {character : Char}

/-! ## Sanitized texts -/

theorem mem_of_mem_unifyBreaks (member : character ∈ unifyBreaks text) :
    character ∈ text ∨ character = '\n' := by
  fun_induction unifyBreaks text with
  | case1 rest ih =>
      rcases List.mem_cons.mp member with rfl | later
      · exact .inr rfl
      · exact (ih later).imp_left fun inside => List.mem_cons_of_mem _ (List.mem_cons_of_mem _ inside)
  | case2 rest other ih =>
      rcases List.mem_cons.mp member with rfl | later
      · exact .inr rfl
      · exact (ih later).imp_left (List.mem_cons_of_mem _)
  | case3 first rest feed plain ih =>
      rcases List.mem_cons.mp member with rfl | later
      · exact .inl List.mem_cons_self
      · exact (ih later).imp_left (List.mem_cons_of_mem _)
  | case4 => contradiction

/-- No reserved character is left in a sanitized text. -/
theorem not_isReserved_of_mem_sanitize (member : character ∈ sanitize text) :
    isReserved character = false := by
  have unified := (Text.strip_sublist _).subset member
  rcases mem_of_mem_unifyBreaks unified with inside | rfl
  · simpa using (List.mem_filter.mp inside).2
  · decide

theorem quote_not_mem_escape (plain : '\'' ∉ text) : '\'' ∉ escape text := by
  rw [escape, List.mem_flatMap]
  rintro ⟨character, member, written⟩
  split at written
  · simp at written
  · exact plain (List.mem_singleton.mp written ▸ member)

/-! ## Layouts -/

/-- The lines of a fitted text are those of a wrap of it. -/
theorem lines_of_fit {metrics : TextMetrics} {width height : Int} {asked : Option Number}
    {layout : Layout} (fitted : fit metrics text width height asked = .ok layout) :
    ∃ budget, layout.lines = wrap text budget := by
  obtain ⟨optimal, limit, fitting⟩ := exists_fitting_of_fit fitted
  exact fitting.lines

/-- What a caption consists of. -/
structure Describes (platform : Platform) (media : MediaItem) (box : PixelRect)
    (caption : Caption) : Prop where
  nonempty : sanitize (media.text.getD "").toList ≠ []
  lines : ∃ budget, caption.layout.lines = wrap (sanitize (media.text.getD "").toList) budget
  text : caption.text = String.ofList (escape caption.layout.wrappedText)
  fontColor : filterColor ((media.fontColor.filter (· != "")).getD standardTextColor) =
    .ok caption.fontColor
  fontFile : caption.fontFile =
    Montage.fontFile media.fontFamily media.fontBold media.fontItalic platform
  xExpression : caption.xExpression = centred box.x box.width "text_w"
  yExpression : caption.yExpression = centred box.y box.height "text_h"
  backgroundColor : boxColor media.backgroundTransparent media.backgroundColor =
    .ok caption.backgroundColor

theorem describes_of_ofMedia? {metrics : TextMetrics} {platform : Platform} {media : MediaItem}
    {box : PixelRect} {caption : Caption}
    (captioned : ofMedia? metrics platform media box = .ok (some caption)) :
    Describes platform media box caption := by
  simp only [ofMedia?] at captioned
  split at captioned
  next => cases captioned
  next some =>
    obtain ⟨layout, fitted, rest⟩ := bind_eq_ok.mp captioned
    obtain ⟨fontColor, colored, rest⟩ := bind_eq_ok.mp rest
    obtain ⟨background, boxed, equal⟩ := bind_eq_ok.mp rest
    cases equal
    exact ⟨by simpa using some, lines_of_fit fitted, rfl, colored, rfl, rfl, rfl, boxed⟩

/-- Only an asset without words has no caption. -/
theorem sanitize_eq_nil_of_ofMedia? {metrics : TextMetrics} {platform : Platform}
    {media : MediaItem} {box : PixelRect}
    (captionless : ofMedia? metrics platform media box = .ok none) :
    sanitize (media.text.getD "").toList = [] := by
  simp only [ofMedia?] at captionless
  split at captionless
  next empty => simpa using empty
  next =>
    obtain ⟨layout, -, rest⟩ := bind_eq_ok.mp captionless
    obtain ⟨fontColor, -, rest⟩ := bind_eq_ok.mp rest
    obtain ⟨background, -, equal⟩ := bind_eq_ok.mp rest
    cases equal

namespace Describes

variable {platform : Platform} {media : MediaItem} {box : PixelRect} {caption : Caption}

/-- The wrapped text of a caption begins and ends with words. -/
theorem tight (describes : Describes platform media box caption) :
    Tight caption.layout.wrappedText := by
  obtain ⟨budget, lines⟩ := describes.lines
  rw [Layout.wrappedText, lines]
  exact tight_wrap (Text.tight_strip describes.nonempty) budget

/-- The wrapped text of a caption holds no reserved character. -/
theorem not_isReserved (describes : Describes platform media box caption)
    (member : character ∈ caption.layout.wrappedText) : isReserved character = false := by
  obtain ⟨budget, lines⟩ := describes.lines
  rw [Layout.wrappedText, lines] at member
  rcases Text.mem_intercalate member with ⟨line, listed, inside⟩ | gap
  · rcases mem_of_mem_wrap listed inside with original | rfl
    · exact not_isReserved_of_mem_sanitize original
    · decide
  · rw [List.mem_singleton.mp gap]
    decide

end Describes

end Montage.Caption
