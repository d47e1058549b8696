import Mathlib
import Montage.Filter.Graph

/-!
# Labels

A label is a kind, an underscore and what tells it from others of its kind. The kinds hold no
underscore, so a label determines both parts. The stream of an input holds no underscore at all,
which keeps it apart from every label that a stage defines.
-/

namespace Montage.Filter

/-! ## Digits -/

theorem underscore_not_mem_natText (number : Nat) : '_' ∉ (toString number).toList := by
  rw [Nat.toString_eq_repr, Nat.toList_repr]
  exact Nat.underscore_not_in_toDigits

theorem underscore_not_mem_intText (number : Int) : '_' ∉ (toString number).toList := by
  cases number with
  | ofNat number => exact underscore_not_mem_natText number
  | negSucc number =>
      have minus : toString (Int.negSucc number) = "-" ++ toString (number + 1) := rfl
      rw [minus, String.toList_append, List.mem_append, not_or]
      exact ⟨by decide, underscore_not_mem_natText (number + 1)⟩

/-- The first occurrence of a separator splits a list in one way. -/
theorem append_cons_injective {α : Type} {separator : α} {left left' right right' : List α}
    (plain : separator ∉ left) (plain' : separator ∉ left')
    (equal : left ++ separator :: right = left' ++ separator :: right') :
    left = left' ∧ right = right' := by
  induction left generalizing left' with
  | nil =>
      cases left' with
      | nil => simpa using equal
      | cons head rest =>
          have headEqual : separator = head := (List.cons.inj equal).1
          exact (plain' (headEqual ▸ List.mem_cons_self)).elim
  | cons head rest ih =>
      cases left' with
      | nil =>
          have headEqual : head = separator := (List.cons.inj equal).1
          exact (plain (headEqual ▸ List.mem_cons_self)).elim
      | cons head' rest' =>
          obtain ⟨rfl, restEqual⟩ := List.cons.inj equal
          have parts := ih (fun member => plain (List.mem_cons_of_mem _ member))
            (fun member => plain' (List.mem_cons_of_mem _ member)) restEqual
          exact ⟨congrArg (head :: ·) parts.1, parts.2⟩

/-! ## Kinds and tags -/

@[simp] theorem toList_label (kind tag : String) :
    (label kind tag).toList = kind.toList ++ '_' :: tag.toList := by
  simp [label]

/-- A label determines its kind and what follows it. -/
theorem label_injective {kind kind' tag tag' : String}
    (plain : '_' ∉ kind.toList) (plain' : '_' ∉ kind'.toList)
    (equal : label kind tag = label kind' tag') : kind = kind' ∧ tag = tag' := by
  have characters := congrArg String.toList equal
  simp only [toList_label] at characters
  obtain ⟨kinds, tags⟩ := append_cons_injective plain plain' characters
  exact ⟨String.toList_injective kinds, String.toList_injective tags⟩

/-- The tag of an item determines its position. -/
theorem itemTag_injective {layer layer' item item' : Nat}
    (equal : itemTag layer item = itemTag layer' item') : layer = layer' ∧ item = item' := by
  obtain ⟨layers, items⟩ := label_injective (underscore_not_mem_natText layer)
    (underscore_not_mem_natText layer') equal
  exact ⟨Nat.repr_inj.mp layers, Nat.repr_inj.mp items⟩

theorem itemTag_ne_final (layer item : Nat) : itemTag layer item ≠ "final" := by
  intro equal
  have underscore : '_' ∈ (itemTag layer item).toList := by simp [itemTag]
  rw [equal] at underscore
  exact absurd underscore (by decide)

/-! ## Streams of inputs -/

/-- A label that names a stream of an input. -/
def IsStream (name : String) : Prop :=
  ∃ position : Int, name = videoStream position ∨ name = audioStream position

theorem isStream_videoStream (position : Int) : IsStream (videoStream position) :=
  ⟨position, .inl rfl⟩

theorem isStream_audioStream (position : Int) : IsStream (audioStream position) :=
  ⟨position, .inr rfl⟩

theorem underscore_not_mem_stream {name : String} (stream : IsStream name) :
    '_' ∉ name.toList := by
  obtain ⟨position, rfl | rfl⟩ := stream
  all_goals
    simp only [videoStream, audioStream, String.toList_append, List.mem_append, not_or]
    exact ⟨underscore_not_mem_intText position, by decide⟩

@[simp] theorem not_isStream_label (kind tag : String) : ¬IsStream (label kind tag) := by
  intro stream
  exact underscore_not_mem_stream stream (by simp)

theorem not_isStream_matteLabel : ¬IsStream matteLabel := by
  rintro ⟨position, equal | equal⟩
  all_goals
    have colon : ':' ∈ matteLabel.toList := by
      rw [equal]
      simp [videoStream, audioStream]
    exact absurd colon (by decide)

/-- The picture stream of an input determines the position of the input. -/
theorem videoStream_injective {position position' : Int}
    (equal : videoStream position = videoStream position') : position = position' :=
  Int.repr_injective ((String.append_left_inj ":v").mp equal)

/-- The sound stream of an input determines the position of the input. -/
theorem audioStream_injective {position position' : Int}
    (equal : audioStream position = audioStream position') : position = position' :=
  Int.repr_injective ((String.append_left_inj ":a").mp equal)

theorem videoStream_ne_audioStream (position position' : Int) :
    videoStream position ≠ audioStream position' := by
  intro equal
  have lastCharacters := congrArg (fun name => name.toList.getLast?) equal
  simp [videoStream, audioStream] at lastCharacters

end Montage.Filter
