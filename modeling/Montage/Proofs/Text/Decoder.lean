import Montage.Proofs.Text.Utf8

/-!
# Decoding byte by byte

The decoder sees one byte at a time and still finds the text of all bytes. What it keeps between two
bytes is the beginning of the characters that may come; it gives this part up at the first byte that
none of them goes on with, and takes that byte anew. What it has kept at the end has no meaning.
-/

namespace Montage.Text

variable {bytes part rest held : List UInt8} {byte : UInt8} {text : List Char}

/-! ## Characters that have begun -/

/-- What the decoder keeps of a character that has begun says how many bytes its written form
lacks, which bits they follow and which byte may come next. -/
structure Pending (character : OpenCharacter) (held : List UInt8) : Prop where
  nonempty : held ≠ []
  owed : 1 ≤ character.owed
  begins : BeginsCharacter held
  written : ∀ value, value.isValidChar → held.map UInt8.toNat <+: spelling value →
    (spelling value).length = held.length + character.owed ∧
      value / 0x40 ^ character.owed = character.bits
  next : ∀ byte, BeginsCharacter (held ++ [byte]) ↔
    character.low ≤ byte.toNat ∧ byte.toNat ≤ character.high

theorem pending_of_opens {character : OpenCharacter}
    (opens : openCharacter byte = ([], .within character)) : Pending character [byte] := by
  have size := byte.toNat_lt
  revert opens
  fun_cases openCharacter byte with
  | case1 => nofun
  | case9 => nofun
  | _ =>
      rintro ⟨⟩
      constructor
      case nonempty => exact List.cons_ne_nil _ _
      case owed => simp
      case begins => exact beginsCharacter_singleton.mpr (by omega)
      case written =>
        intro value valid written
        simp only [List.map_cons, List.map_nil, prefix_spelling_singleton] at written
        simp only [Nat.isValidChar] at valid
        simp only [length_spelling, List.length_cons, List.length_nil, surrogateBits]
        split_ifs at written ⊢ <;> omega
      case next =>
        intro next
        simp only [List.cons_append, List.nil_append, beginsCharacter_pair]
        omega

namespace Pending

variable {character : OpenCharacter}

/-- What has begun is no whole character. -/
theorem ne_encode (pending : Pending character held) (whole : Char) :
    held ≠ String.utf8EncodeChar whole := by
  intro same
  have written := pending.written whole.toNat whole.valid
    (prefix_encode_iff.mp (same ▸ List.prefix_rfl))
  rw [← map_toNat_encode, ← same, List.length_map] at written
  exact absurd written.1 (by have := pending.owed; omega)

/-- A byte that goes on with a character adds six bits. -/
theorem bits_of_written (pending : Pending character held) {value : Nat}
    (valid : value.isValidChar)
    (written : (held ++ [byte]).map UInt8.toNat <+: spelling value) :
    (spelling value).length = held.length + character.owed ∧
      value / 0x40 ^ (character.owed - 1) = character.bits * 0x40 + (byte.toNat - 0x80) := by
  obtain ⟨behind, owed⟩ := Nat.exists_eq_add_of_le' pending.owed
  rw [List.map_append] at written
  obtain ⟨size, bits⟩ := pending.written value valid ((List.prefix_append _ _).trans written)
  have number : byte.toNat = 0x80 + value / 0x40 ^ behind % 0x40 :=
    eq_of_prefix_spelling written (by simpa using pending.nonempty)
      (by rw [List.length_map]; omega)
  refine ⟨size, ?_⟩
  rw [owed, pow_succ, ← Nat.div_div_eq_div_mul] at bits
  rw [owed, Nat.add_sub_cancel]
  omega

/-- The last byte completes the character. -/
theorem complete (pending : Pending character held) (last : character.owed = 1)
    (fits : character.low ≤ byte.toNat ∧ byte.toNat ≤ character.high) :
    held ++ [byte] =
      String.utf8EncodeChar (Char.ofNat (character.bits * 0x40 + (byte.toNat - 0x80))) := by
  obtain ⟨whole, written⟩ := (pending.next byte).mpr fits
  have valid : whole.toNat.isValidChar := whole.valid
  obtain ⟨size, bits⟩ := pending.bits_of_written valid (prefix_encode_iff.mp written)
  rw [last, Nat.sub_self, pow_zero, Nat.div_one] at bits
  have same : Char.ofNat whole.toNat = whole := Char.ofNat_toNat whole
  rw [← bits, same]
  rw [← map_toNat_encode, List.length_map] at size
  exact written.eq_of_length (by rw [size, last, List.length_append, List.length_singleton])

/-- A character that has begun has no meaning where the next byte does not go on with it. -/
theorem unreadable (pending : Pending character held)
    (ends : ∀ byte ∈ rest.head?, ¬(character.low ≤ byte.toNat ∧ byte.toNat ≤ character.high)) :
    Unreadable held rest where
  nonempty := pending.nonempty
  begins := .inl pending.begins
  incomplete := pending.ne_encode
  longest := fun byte member begins => ends byte member ((pending.next byte).mp begins)

/-- Any other byte leaves the character open. -/
theorem advance (pending : Pending character held) (more : 2 ≤ character.owed)
    (fits : character.low ≤ byte.toNat ∧ byte.toNat ≤ character.high) :
    Pending ⟨character.owed - 1, 0x80, 0xBF, character.bits * 0x40 + (byte.toNat - 0x80)⟩
      (held ++ [byte]) where
  nonempty := by simp
  owed := by
    show 1 ≤ character.owed - 1
    omega
  begins := (pending.next byte).mpr fits
  written := by
    intro value valid written
    obtain ⟨size, bits⟩ := pending.bits_of_written valid written
    refine ⟨?_, bits⟩
    show _ = (held ++ [byte]).length + (character.owed - 1)
    rw [List.length_append, List.length_singleton]
    omega
  next := by
    intro next
    rw [beginsCharacter_iff]
    constructor
    · rintro ⟨value, -, written⟩
      exact continues_of_written written (by simp)
    · intro range
      obtain ⟨value, valid, written⟩ := beginsCharacter_iff.mp ((pending.next byte).mpr fits)
      have size := (pending.bits_of_written valid written).1
      have nonempty := List.length_pos_iff.mpr pending.nonempty
      have digit : 0x80 + (next.toNat - 0x80) = next.toNat := Nat.add_sub_cancel' range.1
      have small : next.toNat - 0x80 < 0x40 :=
        Nat.sub_lt_left_of_lt_add range.1 (Nat.lt_succ_of_le range.2)
      obtain ⟨value', valid', written'⟩ := exists_spelling_append valid written
        (by rw [List.length_map, List.length_append, List.length_singleton]; omega)
        (by rw [List.length_map, List.length_append, List.length_singleton]; omega) small
      refine ⟨value', valid', ?_⟩
      rwa [digit, ← List.map_singleton (f := UInt8.toNat), ← List.map_append] at written'

end Pending

/-! ## The decoder -/

/-- What the decoder keeps after bytes that stand for nothing yet. -/
inductive Holds : DecoderState → List UInt8 → Prop where
  | ready : Holds .ready []
  | within {character : OpenCharacter} {held : List UInt8} (pending : Pending character held) :
      Holds (.within character) held
  | surrogate {byte : UInt8} (range : 0xA0 ≤ byte.toNat ∧ byte.toNat ≤ 0xBF) :
      Holds .surrogate [0xED, byte]

/-- Bytes are taken into account as the given characters and as what the decoder keeps. -/
def Settles (bytes : List UInt8) (result : List Char × DecoderState) : Prop :=
  ∃ held, Holds result.2 held ∧
    ∀ rest text, StandsFor (held ++ rest) text → StandsFor (bytes ++ rest) (result.1 ++ text)

theorem unreadable_singleton (foreign : ¬BeginsCharacter [byte]) : Unreadable [byte] rest where
  nonempty := List.cons_ne_nil _ _
  begins := .inr rfl
  incomplete := fun character same => foreign ⟨character, same ▸ List.prefix_rfl⟩
  longest := fun _ _ begins => foreign (begins.of_prefix (List.prefix_append _ _))

theorem openCharacter_cases (byte : UInt8) :
    (byte.toNat < 0x80 ∧ openCharacter byte = ([Char.ofNat byte.toNat], .ready)) ∨
      (∃ character, openCharacter byte = ([], .within character)) ∨
      (¬BeginsCharacter [byte] ∧ openCharacter byte = ([replacement], .ready)) := by
  rw [beginsCharacter_singleton]
  fun_cases openCharacter byte with
  | case1 value small => exact .inl ⟨small, rfl⟩
  | case9 => exact .inr (.inr ⟨by omega, rfl⟩)
  | _ => exact .inr (.inl ⟨_, rfl⟩)

theorem encode_of_small (small : byte.toNat < 0x80) :
    String.utf8EncodeChar (Char.ofNat byte.toNat) = [byte] := by
  have valid : byte.toNat.isValidChar := .inl (by omega)
  apply List.map_injective_iff.mpr fun first second => UInt8.toNat_inj.mp
  rw [map_toNat_encode, Char.toNat_ofNat, if_pos valid, spelling, if_pos small]
  rfl

theorem settles_openCharacter (byte : UInt8) : Settles [byte] (openCharacter byte) := by
  rcases openCharacter_cases byte with ⟨small, opened⟩ | ⟨character, opened⟩ | ⟨foreign, opened⟩
  · rw [opened]
    refine ⟨[], .ready, fun rest text stands => ?_⟩
    rw [← encode_of_small small]
    exact .character _ stands
  · rw [opened]
    exact ⟨[byte], .within (pending_of_opens opened), fun rest text stands => stands⟩
  · rw [opened]
    exact ⟨[], .ready, fun rest text stands => .unreadable (unreadable_singleton foreign) stands⟩

/-- A part without a meaning is settled before what follows it. -/
theorem Settles.after_unreadable {result : List Char × DecoderState}
    (settles : Settles bytes result) (unreadable : ∀ rest, Unreadable part (bytes ++ rest)) :
    Settles (part ++ bytes) (replacement :: result.1, result.2) := by
  obtain ⟨held, holds, settles⟩ := settles
  refine ⟨held, holds, fun rest text stands => ?_⟩
  rw [List.append_assoc]
  exact .unreadable (unreadable rest) (settles rest text stands)

/-- A surrogate begins like some characters, but its second byte is none of theirs. -/
theorem Pending.of_makesSurrogate {character : OpenCharacter} (pending : Pending character held)
    (surrogate : character.makesSurrogate byte = true) :
    held = [0xED] ∧ 0xA0 ≤ byte.toNat ∧ byte.toNat ≤ 0xBF := by
  simp only [OpenCharacter.makesSurrogate, Bool.and_eq_true, beq_iff_eq, decide_eq_true_eq,
    surrogateBits] at surrogate
  obtain ⟨⟨⟨owed, bits⟩, low⟩, high⟩ := surrogate
  obtain ⟨value, valid, written⟩ := beginsCharacter_iff.mp pending.begins
  obtain ⟨size, leading⟩ := pending.written value valid written
  rw [owed, bits] at leading
  rw [owed, length_spelling, if_neg (by omega), if_neg (by omega), if_pos (by omega)] at size
  obtain ⟨first, rfl⟩ := List.length_eq_one_iff.mp (by omega : held.length = 1)
  rw [List.map_singleton, prefix_spelling_singleton, if_neg (by omega), if_neg (by omega),
    if_pos (by omega)] at written
  have number : first.toNat = (0xED : UInt8).toNat := by
    rw [written]
    show _ = 0xED
    omega
  exact ⟨by rw [UInt8.toNat_inj.mp number], low, high⟩

/-- The two bytes that begin a surrogate have no meaning, each on its own. -/
theorem unreadable_surrogate {second : UInt8} (range : 0xA0 ≤ second.toNat ∧ second.toNat ≤ 0xBF) :
    Unreadable [0xED] (second :: rest) ∧ Unreadable [second] rest := by
  have pending : Pending ⟨2, 0x80, 0x9F, surrogateBits⟩ [0xED] := pending_of_opens rfl
  constructor
  · apply pending.unreadable
    rintro _ ⟨⟩
    show ¬(0x80 ≤ second.toNat ∧ second.toNat ≤ 0x9F)
    omega
  · apply unreadable_singleton
    rw [beginsCharacter_singleton]
    omega

/-- What is kept and the next byte are settled together. The cases are those of the decoder. -/
theorem settles_decodeByte {state : DecoderState} (holds : Holds state held) (byte : UInt8) :
    Settles (held ++ [byte]) (decodeByte state byte) := by
  cases holds with
  | ready => exact settles_openCharacter byte
  | @surrogate second range =>
      have inner : Settles ([second] ++ [byte]) _ := (settles_openCharacter byte).after_unreadable
        fun rest => (unreadable_surrogate range).2
      exact inner.after_unreadable fun rest => (unreadable_surrogate range).1
  | @within character held pending =>
      simp only [decodeByte]
      split_ifs with fits last surrogate
      · refine ⟨[], .ready, fun rest text stands => ?_⟩
        rw [pending.complete (le_antisymm last pending.owed) fits]
        exact .character _ stands
      · exact ⟨held ++ [byte], .within (pending.advance (by omega) fits),
          fun rest text stands => stands⟩
      · obtain ⟨rfl, range⟩ := pending.of_makesSurrogate surrogate
        exact ⟨[0xED, byte], .surrogate range, fun rest text stands => stands⟩
      · apply (settles_openCharacter byte).after_unreadable
        intro rest
        apply pending.unreadable
        rintro _ ⟨⟩
        exact fits

theorem settles_decodeBytes {state : DecoderState} (holds : Holds state held)
    (bytes : List UInt8) : Settles (held ++ bytes) (decodeBytes state bytes) := by
  induction bytes generalizing state held with
  | nil =>
      rw [List.append_nil]
      exact ⟨held, holds, fun rest text stands => stands⟩
  | cons byte bytes ih =>
      obtain ⟨kept, holds', first⟩ := settles_decodeByte holds byte
      obtain ⟨kept', holds'', second⟩ := ih holds'
      refine ⟨kept', holds'', fun rest text stands => ?_⟩
      have whole := first _ _ (List.append_assoc .. ▸ second rest text stands)
      rw [← List.append_assoc] at whole
      simpa [decodeBytes] using whole

theorem standsFor_decodeEnd {state : DecoderState} (holds : Holds state held) :
    StandsFor held (decodeEnd state) := by
  cases holds with
  | ready => exact .nil
  | @surrogate second range =>
      obtain ⟨first, second⟩ := unreadable_surrogate range
      exact .unreadable first (.unreadable second .nil)
  | within pending =>
      rw [← List.append_nil held]
      exact .unreadable (pending.unreadable fun _ member => by contradiction) .nil

theorem standsFor_decode (bytes : List UInt8) : StandsFor bytes (decode bytes) := by
  obtain ⟨held, holds, settles⟩ := settles_decodeBytes .ready bytes
  have ended := standsFor_decodeEnd holds
  rw [← List.append_nil held] at ended
  have whole := settles [] _ ended
  rwa [List.append_nil] at whole

/-! ## Portions -/

theorem decodeBytes_append (state : DecoderState) (bytes rest : List UInt8) :
    decodeBytes state (bytes ++ rest) =
      ((decodeBytes state bytes).1 ++ (decodeBytes (decodeBytes state bytes).2 rest).1,
        (decodeBytes (decodeBytes state bytes).2 rest).2) := by
  induction bytes generalizing state with
  | nil => rfl
  | cons byte bytes ih =>
      simp only [List.cons_append, decodeBytes, ih, List.append_assoc]

/-- Leaving empty texts out loses no character. -/
theorem flatten_filter_nonempty (texts : List (List Char)) :
    (texts.filter fun text => !text.isEmpty).flatten = texts.flatten := by
  induction texts with
  | nil => rfl
  | cons text texts ih => cases text <;> simp [ih]

/-- The texts of the portions make up the text of all bytes. -/
theorem flatten_decodePortions (state : DecoderState) (portions : List (List UInt8)) :
    (decodePortions state portions).flatten =
      (decodeBytes state portions.flatten).1 ++
        decodeEnd (decodeBytes state portions.flatten).2 := by
  induction portions generalizing state with
  | nil =>
      simp only [decodePortions, flatten_filter_nonempty, List.flatten_nil, decodeBytes,
        List.flatten_singleton, List.nil_append]
  | cons portion portions ih =>
      simp only [decodePortions, List.flatten_append, flatten_filter_nonempty, ih,
        List.flatten_cons, List.flatten_nil, List.append_nil, decodeBytes_append,
        List.append_assoc]

theorem ne_nil_of_mem_decodePortions {state : DecoderState} {portions : List (List UInt8)}
    (member : text ∈ decodePortions state portions) : text ≠ [] := by
  induction portions generalizing state with
  | nil =>
      rw [decodePortions, List.mem_filter] at member
      simpa using member.2
  | cons portion portions ih =>
      rw [decodePortions, List.mem_append, List.mem_filter] at member
      rcases member with ⟨-, nonempty⟩ | later
      · simpa using nonempty
      · exact ih later

end Montage.Text
