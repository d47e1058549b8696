import Montage.Command
import Montage.Proofs.Filter.Numeral

/-!
# Reading command lines

The external renderer reads its command line from left to right: an option is followed by its
value, unless it stands alone, and the path of the film comes last. The inputs of a film are the
values of one option in their order, so their numbers are places in a list.
-/

namespace Montage

open Montage.Filter (Outputs numeral)

/-- The options that stand alone. -/
def loneOptions : List String := ["-shortest", "-y"]

/-- The values that a command line gives an option, in order. -/
def optionValues (option : String) : List String → List String
  | [] => []
  | [_] => []
  | word :: value :: rest =>
      if word ∈ loneOptions then optionValues option (value :: rest)
      else if word = option then value :: optionValues option rest
      else optionValues option rest

section

variable {option word : String}

theorem optionValues_last (option word : String) : optionValues option [word] = [] := rfl

theorem optionValues_lone (lone : word ∈ loneOptions) (option : String) (rest : List String) :
    optionValues option (word :: rest) = optionValues option rest := by
  cases rest with
  | nil => rfl
  | cons value rest => rw [optionValues, if_pos lone]

theorem optionValues_self (valued : option ∉ loneOptions) (value : String) (rest : List String) :
    optionValues option (option :: value :: rest) = value :: optionValues option rest := by
  rw [optionValues, if_neg valued, if_pos rfl]

theorem optionValues_other (valued : word ∉ loneOptions) (other : word ≠ option) (value : String)
    (rest : List String) :
    optionValues option (word :: value :: rest) = optionValues option rest := by
  rw [optionValues, if_neg valued, if_neg other]

end

/-- Every file is an input, in the order of the files. -/
theorem optionValues_inputArguments (files rest : List String) :
    optionValues "-i" (inputArguments files ++ rest) = files ++ optionValues "-i" rest := by
  induction files with
  | nil => rfl
  | cons path files ih =>
      rw [inputArguments, List.flatMap_cons, List.append_assoc]
      exact (optionValues_self (by decide) _ _).trans (congrArg (path :: ·) ih)

/-- The files of a film are no values of another option. -/
theorem optionValues_skip_inputs {option : String} (other : "-i" ≠ option)
    (files rest : List String) :
    optionValues option (inputArguments files ++ rest) = optionValues option rest := by
  induction files with
  | nil => rfl
  | cons path files ih =>
      rw [inputArguments, List.flatMap_cons, List.append_assoc]
      exact (optionValues_other (by decide) other _ _).trans ih

variable {settings : Settings} {files : List String} {outputs : Outputs}
variable {scriptPath output : String} {totalDuration : Number} {arguments : List String}

/-- Every film whose length is a real number has a command line. -/
theorem renderArguments_real (settings : Settings) (files : List String) (outputs : Outputs)
    (scriptPath output : String) (totalDuration : Binary64) :
    ∃ arguments, renderArguments settings files outputs scriptPath (.real totalDuration) output =
      .ok arguments := by
  obtain ⟨duration, written⟩ := Filter.numeral_real totalDuration
  exact ⟨_, bind_eq_ok.mpr ⟨duration, written, rfl⟩⟩

/-- What stands behind the sound of a film names no input and takes no stream. -/
theorem optionValues_ending {option : String} (other : option = "-i" ∨ option = "-map")
    (settings : Settings) (duration output : String) :
    optionValues option (codecArguments settings ++ ["-t", duration, "-y", output]) = [] := by
  rcases other with rfl | rfl
  all_goals
    simp (disch := decide) only [codecArguments, List.cons_append, List.nil_append,
      optionValues_other, optionValues_lone, optionValues_last]

/-- The inputs of a film are its files, and a source of silence behind them if it has no sound. -/
theorem inputs_of_renderArguments
    (rendered : renderArguments settings files outputs scriptPath totalDuration output =
      .ok arguments) :
    optionValues "-i" arguments =
      files ++ if outputs.audio.isNone then [silentSource settings] else [] := by
  obtain ⟨duration, -, equal⟩ := bind_eq_ok.mp rendered
  cases equal
  have ending := optionValues_ending (.inl rfl) settings duration output
  simp only [List.append_assoc, optionValues_inputArguments]
  cases outputs.audio with
  | none => simp (disch := decide) [soundArguments, optionValues_self, optionValues_other,
      optionValues_lone, ending]
  | some label => simp (disch := decide) [soundArguments, optionValues_other, ending]

/-- A film takes its picture from its graph, and its sound from there or, if there is none, from
the input behind its files. -/
theorem maps_of_renderArguments
    (rendered : renderArguments settings files outputs scriptPath totalDuration output =
      .ok arguments) :
    optionValues "-map" arguments =
      ["[" ++ outputs.video ++ "]",
        match outputs.audio with
        | some label => "[" ++ label ++ "]"
        | none => Filter.audioStream files.length] := by
  obtain ⟨duration, -, equal⟩ := bind_eq_ok.mp rendered
  cases equal
  have ending := optionValues_ending (.inr rfl) settings duration output
  simp only [List.append_assoc, optionValues_skip_inputs (by decide : "-i" ≠ "-map")]
  cases outputs.audio with
  | none =>
      simp (disch := decide) [soundArguments, optionValues_self, optionValues_other,
        optionValues_lone, ending]
      rfl
  | some label => simp (disch := decide) [soundArguments, optionValues_self, optionValues_other,
      ending]

/-- A film is cut to its length. -/
theorem duration_of_renderArguments
    (rendered : renderArguments settings files outputs scriptPath totalDuration output =
      .ok arguments) :
    ∃ duration, numeral totalDuration = .ok duration ∧
      optionValues "-t" arguments = [duration] := by
  obtain ⟨duration, written, equal⟩ := bind_eq_ok.mp rendered
  cases equal
  refine ⟨duration, written, ?_⟩
  simp only [List.append_assoc, optionValues_skip_inputs (by decide : "-i" ≠ "-t")]
  cases outputs.audio with
  | none =>
      simp (disch := decide) [soundArguments, codecArguments, optionValues_self, optionValues_other,
        optionValues_lone, optionValues_last]
  | some label =>
      simp (disch := decide) [soundArguments, codecArguments, optionValues_self, optionValues_other,
        optionValues_lone, optionValues_last]

/-- The source of a black film. -/
def blackSource (settings : Settings) (frame : FrameSize) (duration : String) : String :=
  "color=black:size=" ++ toString frame.width ++ "x" ++ toString frame.height ++ ":duration=" ++
    duration ++ ":rate=" ++ toString settings.renderFps

/-- A black film has one source, which is as long as the film. -/
theorem source_of_fallbackArguments {frame : FrameSize}
    (fallback : fallbackArguments settings frame totalDuration output = .ok arguments) :
    ∃ duration, numeral totalDuration = .ok duration ∧
      optionValues "-i" arguments = [blackSource settings frame duration] := by
  obtain ⟨duration, written, equal⟩ := bind_eq_ok.mp fallback
  cases equal
  refine ⟨duration, written, ?_⟩
  change optionValues "-i" (["-f", "lavfi", "-i", blackSource settings frame duration] ++
    codecArguments settings ++ ["-y", output]) = _
  simp (disch := decide) only [codecArguments, List.cons_append, List.nil_append,
    optionValues_self, optionValues_other, optionValues_lone, optionValues_last]

end Montage
