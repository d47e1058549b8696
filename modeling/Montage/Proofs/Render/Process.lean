import Montage.Render.Process
import Montage.Proofs.Text.Decoder

/-!
# What processes write

A process of the operating system writes bytes, which arrive in portions of any size. The text that
is read is the text of all bytes together, so it does not matter where one portion ends and the next
begins, be it inside a character or inside bytes without a meaning.
-/

namespace Montage.SystemProcess

open Text (StandsFor Incomplete replacement)

variable {process : SystemProcess}

theorem readAll_of_portions (portions : ∀ portion ∈ process.reads, portion ≠ []) :
    process.readAll =
      ((Text.decodePortions .ready process.reads).map String.ofList,
        { process with reads := [] }) := by
  have kept : ∀ portion ∈ process.reads, (!portion.isEmpty) = true := by
    intro portion member
    simpa using portions portion member
  rw [readAll, List.takeWhile_eq_self_iff.mpr kept, List.dropWhile_eq_nil_iff.mpr kept]
  rfl

theorem toList_join_readAll (portions : ∀ portion ∈ process.reads, portion ≠ []) :
    (String.join process.readAll.1).toList = Text.decode process.reads.flatten := by
  rw [readAll_of_portions portions, String.toList_join, List.flatMap_map]
  simp only [String.toList_ofList, List.flatMap_id']
  exact Text.flatten_decodePortions .ready process.reads

/-- However the bytes of a process are divided, the pieces of text that are read make up the text of
all bytes, and none of them is empty. Bytes at the end that only begin a character add one
replacement character. -/
theorem standsFor_readAll (process : SystemProcess)
    (portions : ∀ portion ∈ process.reads, portion ≠ []) :
    (∀ text, StandsFor process.reads.flatten text ↔
        (String.join process.readAll.1).toList = text) ∧
      (∀ piece ∈ process.readAll.1, piece ≠ "") ∧
      ∀ start tail, process.reads.flatten = start ++ tail → Incomplete tail →
        ∃ text, StandsFor start text ∧
          (String.join process.readAll.1).toList = text ++ [replacement] := by
  have whole := toList_join_readAll portions
  have stands := Text.standsFor_decode process.reads.flatten
  refine ⟨fun text => ?_, ?_, ?_⟩
  · rw [whole]
    constructor
    · exact stands.unique
    · rintro rfl
      exact stands
  · intro piece member
    rw [readAll_of_portions portions, List.mem_map] at member
    obtain ⟨text, read, rfl⟩ := member
    intro empty
    apply Text.ne_nil_of_mem_decodePortions read
    rw [← String.toList_ofList (l := text), empty]
    rfl
  · intro start tail divided incomplete
    refine ⟨Text.decode start, Text.standsFor_decode start, ?_⟩
    rw [whole]
    apply stands.unique
    rw [divided]
    exact (Text.standsFor_decode start).append incomplete.standsFor incomplete.first

/-- Output that is divided inside a character, behind the first two bytes of a surrogate, and ends
inside a character. -/
def brokenOutput : SystemProcess :=
  { reads := [[0x41, 0xE2], [0x82], [0xAC, 0xED, 0xA0], [0xF0, 0x9F]] }

theorem standsFor_brokenOutput :
    (∀ portion ∈ brokenOutput.reads, portion ≠ []) ∧
      StandsFor brokenOutput.reads.flatten
        ['A', '€', replacement, replacement, replacement] ∧
      (∀ piece ∈ brokenOutput.readAll.1, piece ≠ "") ∧
      Incomplete [0xF0, 0x9F] ∧
      ∃ text, StandsFor [0x41, 0xE2, 0x82, 0xAC, 0xED, 0xA0] text ∧
        (String.join brokenOutput.readAll.1).toList = text ++ [replacement] := by
  have portions : ∀ portion ∈ brokenOutput.reads, portion ≠ [] := by decide
  have incomplete : Incomplete [0xF0, 0x9F] := ⟨by decide, '😀', by decide, by decide⟩
  obtain ⟨text, pieces, tail⟩ := standsFor_readAll brokenOutput portions
  exact ⟨portions, (text _).mpr (by decide +kernel), pieces, incomplete,
    tail _ [0xF0, 0x9F] rfl incomplete⟩

end Montage.SystemProcess
