import Montage.Proofs.Schema.Spelling
import Montage.Timeline.Document

/-!
# Timelines in either spelling

Editors spell the fields of a timeline in camel case, other clients in snake case, and a payload may
mix the two. Both spellings of a payload give the same film. If the payload does not fit, both are
refused for the same fault, whose report names the place as the payload at hand spells it.
-/

namespace Montage

open Schema

/-- The fields that have two spellings. -/
def twofoldFields : List FieldName :=
  [⟨"mediaLibrary", "media_library"⟩, ⟨"editorSettings", "editor_settings"⟩,
    ⟨"totalDuration", "total_duration"⟩, ⟨"videoStyle", "video_style"⟩,
    ⟨"mediaId", "media_id"⟩, ⟨"startTime", "start_time"⟩, ⟨"filePath", "file_path"⟩,
    ⟨"fontFamily", "font_family"⟩, ⟨"fontSize", "font_size"⟩, ⟨"fontBold", "font_bold"⟩,
    ⟨"fontItalic", "font_italic"⟩, ⟨"fontColor", "font_color"⟩,
    ⟨"backgroundColor", "background_color"⟩,
    ⟨"backgroundTransparent", "background_transparent"⟩, ⟨"textAlignment", "text_alignment"⟩]

theorem ignoresSpelling_readString : IgnoresSpelling twofoldFields readString :=
  isScalar_readString.ignoresSpelling

theorem ignoresSpelling_readNumber : IgnoresSpelling twofoldFields readNumber :=
  isScalar_readNumber.ignoresSpelling

theorem ignoresSpelling_readBoolean : IgnoresSpelling twofoldFields readBoolean :=
  isScalar_readBoolean.ignoresSpelling

/-! ## Records -/

theorem Geometry.ignoresSpelling_read : IgnoresSpelling twofoldFields Geometry.read := by
  have share : IgnoresSpelling twofoldFields readShare := ignoresSpelling_readNumber.map Number.real
  apply ChecksAlike.readRecord
  repeat' apply ChecksAlike.seq
  · exact .map (.defaulted (by decide) share) _
  · exact .defaulted (by decide) share
  · exact .defaulted (by decide) share
  · exact .defaulted (by decide) share
  · exact .optional (by decide) ignoresSpelling_readNumber

theorem MediaItem.ignoresSpelling_read : IgnoresSpelling twofoldFields MediaItem.read := by
  have kind : IgnoresSpelling twofoldFields (readChoice MediaKind.choices) :=
    (isScalar_readChoice _).ignoresSpelling
  have alignment : IgnoresSpelling twofoldFields (readChoice TextAlignment.choices) :=
    (isScalar_readChoice _).ignoresSpelling
  apply ChecksAlike.readRecord
  repeat' apply ChecksAlike.seq
  · exact .map (.required (by decide) ignoresSpelling_readString) _
  · exact .required (by decide) kind
  · exact .defaulted (by decide) ignoresSpelling_readString
  · exact .optional (by decide) ignoresSpelling_readNumber
  · exact .optional (by decide) ignoresSpelling_readNumber
  · exact .defaulted (by decide) ignoresSpelling_readBoolean
  · exact .optional (by decide) ignoresSpelling_readNumber
  · exact .optional (by decide) ignoresSpelling_readNumber
  · exact .optional (by decide) ignoresSpelling_readNumber
  · exact .optional (by decide) ignoresSpelling_readNumber
  · exact .optional (by decide) ignoresSpelling_readString
  · exact .optional (by decide) ignoresSpelling_readString
  · exact .optional (by decide) ignoresSpelling_readNumber
  · exact .defaulted (by decide) ignoresSpelling_readBoolean
  · exact .defaulted (by decide) ignoresSpelling_readBoolean
  · exact .optional (by decide) ignoresSpelling_readString
  · exact .optional (by decide) ignoresSpelling_readString
  · exact .defaulted (by decide) ignoresSpelling_readBoolean
  · exact .optional (by decide) alignment

theorem TimelineItem.ignoresSpelling_read : IgnoresSpelling twofoldFields TimelineItem.read := by
  apply ChecksAlike.readRecord
  repeat' apply ChecksAlike.seq
  · exact .map (.required (by decide) ignoresSpelling_readString) _
  · exact .required (by decide) ignoresSpelling_readString
  · exact .defaulted (by decide) ignoresSpelling_readNumber
  · exact .defaulted (by decide) ignoresSpelling_readNumber
  · exact .defaulted (by decide) isScalar_readInteger.ignoresSpelling
  · exact .optional (by decide) Geometry.ignoresSpelling_read

theorem Layer.ignoresSpelling_read : IgnoresSpelling twofoldFields Layer.read := by
  apply ChecksAlike.readRecord
  repeat' apply ChecksAlike.seq
  · exact .map (.required (by decide) ignoresSpelling_readString) _
  · exact .defaulted (by decide) ignoresSpelling_readString
  · exact .defaulted (by decide) ignoresSpelling_readBoolean
  · exact .defaulted (by decide) ignoresSpelling_readBoolean
  · exact .optional (by decide) ignoresSpelling_readString
  · exact .defaulted (by decide) TimelineItem.ignoresSpelling_read.readList

theorem TimelineInfo.ignoresSpelling_read : IgnoresSpelling twofoldFields TimelineInfo.read := by
  apply ChecksAlike.readRecord
  exact .map (.optional (by decide) ignoresSpelling_readNumber) _

theorem EditorSettings.ignoresSpelling_read :
    IgnoresSpelling twofoldFields EditorSettings.read := by
  apply ChecksAlike.readRecord
  exact .map (.optional (by decide) ignoresSpelling_readString) _

theorem RenderPayload.ignoresSpelling_read : IgnoresSpelling twofoldFields RenderPayload.read := by
  apply ChecksAlike.readRecord
  repeat' apply ChecksAlike.seq
  · exact .map (.defaulted (by decide) Layer.ignoresSpelling_read.readList) _
  · exact .defaulted (by decide) MediaItem.ignoresSpelling_read.readList
  · exact .defaulted (by decide) TimelineInfo.ignoresSpelling_read
  · exact .defaulted (by decide) EditorSettings.ignoresSpelling_read

/-! ## Payloads -/

/-- A payload is refused with the report of its first fault. -/
theorem RenderPayload.parse_of_invalid {document : Json} {fault : Fault} {faults : List Fault}
    (invalid : read document = .invalid (fault :: faults)) :
    parse document = .error (Failure.invalidInput (faultReport fault)) := by
  rw [parse, invalid]

/-- Both spellings of a payload give the same film, or are refused for the same first fault, which
each reports in its own spelling. -/
theorem RenderPayload.parse_respelled {document document' : Json}
    (unambiguous : Unambiguous twofoldFields document)
    (respelled : Respelled twofoldFields document document') :
    (∃ payload, parse document = .ok payload ∧ parse document' = .ok payload) ∨
      ∃ fault fault' faults faults', read document = .invalid (fault :: faults) ∧
        read document' = .invalid (fault' :: faults') ∧
        SameFault document document' fault fault' ∧
        parse document = .error (Failure.invalidInput (faultReport fault)) ∧
        parse document' = .error (Failure.invalidInput (faultReport fault')) := by
  have agrees := ignoresSpelling_read document document' unambiguous respelled
  generalize checked : read document = outcome, checked' : read document' = outcome' at agrees
  cases agrees with
  | valid payload =>
      left
      exact ⟨payload, by rw [parse, checked], by rw [parse, checked']⟩
  | invalid found same =>
      right
      cases same with
      | nil => contradiction
      | cons first rest =>
          exact ⟨_, _, _, _, rfl, rfl, first, parse_of_invalid checked, parse_of_invalid checked'⟩

/-- A payload with an asset that does not fit. -/
def misfit (library bold : String) : Json :=
  .object [(library, .array [.object
    [("id", .string "a"), ("type", .string "text"), (bold, .string "heavy")]])]

theorem unambiguous_misfit : Unambiguous twofoldFields (misfit "mediaLibrary" "fontBold") := by
  apply Unambiguous.object (by decide)
  rw [List.forall_mem_singleton]
  apply Unambiguous.array
  rw [List.forall_mem_singleton]
  apply Unambiguous.object (by decide)
  simp only [List.forall_mem_cons, List.not_mem_nil, false_implies, implies_true, and_true]
  exact ⟨.string "a", .string "text", .string "heavy"⟩

theorem respelled_misfit :
    Respelled twofoldFields (misfit "mediaLibrary" "fontBold")
      (misfit "media_library" "font_bold") := by
  have library : Spelling twofoldFields "mediaLibrary" "media_library" :=
    @Spelling.plain _ ⟨_, _⟩ (by simp [twofoldFields])
  have bold : Spelling twofoldFields "fontBold" "font_bold" :=
    @Spelling.plain _ ⟨_, _⟩ (by simp [twofoldFields])
  apply Respelled.object
  refine .cons (.entry library (.array (.cons (.object ?_) .nil))) .nil
  refine .cons (.entry (.same "id") (.string "a")) ?_
  refine .cons (.entry (.same "type") (.string "text")) ?_
  exact .cons (.entry bold (.string "heavy")) .nil

theorem RenderPayload.parse_misfit :
    Unambiguous twofoldFields (misfit "mediaLibrary" "fontBold") ∧
      Respelled twofoldFields (misfit "mediaLibrary" "fontBold")
        (misfit "media_library" "font_bold") ∧
      ∃ fault fault', SameFault (misfit "mediaLibrary" "fontBold")
          (misfit "media_library" "font_bold") fault fault' ∧
        faultReport fault = "Invalid render payload: mediaLibrary -> 0 -> fontBold: " ++
          "Input should be a valid boolean, unable to interpret input" ∧
        faultReport fault' = "Invalid render payload: media_library -> 0 -> font_bold: " ++
          "Input should be a valid boolean, unable to interpret input" := by
  refine ⟨unambiguous_misfit, respelled_misfit, ?_⟩
  rcases parse_respelled unambiguous_misfit respelled_misfit with ⟨payload, valid, -⟩ |
    ⟨fault, fault', faults, faults', invalid, invalid', same, -, -⟩
  · cases valid
  · refine ⟨fault, fault', same, ?_, ?_⟩
    · cases invalid
      decide +kernel
    · cases invalid'
      decide +kernel

end Montage
