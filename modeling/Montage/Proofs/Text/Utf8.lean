import Mathlib
import Montage.Text.Utf8

/-!
# What bytes stand for

A sequence of bytes consists of characters in their written form and of parts that are none. Such a
part begins a character with which the next byte does not go on, or it is a single byte that begins
none. A sequence can be divided in one way only, so it stands for one text. The written forms are
those of the standard library; of their bytes the first shows how many follow, and the others are
never taken for a first one.
-/

namespace Montage.Text

variable {bytes part rest other held : List UInt8} {byte : UInt8} {text : List Char}

/-! ## The text of bytes -/

/-- Holds of the beginnings of the written forms of characters. -/
def BeginsCharacter (bytes : List UInt8) : Prop :=
  ∃ character : Char, bytes <+: String.utf8EncodeChar character

/-- Bytes that stand for no character, and what follows them. They are as many as can be counted as
the beginning of one character. -/
structure Unreadable (part rest : List UInt8) : Prop where
  nonempty : part ≠ []
  begins : BeginsCharacter part ∨ part.length = 1
  incomplete : ∀ character, part ≠ String.utf8EncodeChar character
  longest : ∀ byte ∈ rest.head?, ¬BeginsCharacter (part ++ [byte])

/-- The text that bytes stand for. The replacement character stands for each part without a
meaning. -/
inductive StandsFor : List UInt8 → List Char → Prop where
  | nil : StandsFor [] []
  | character (character : Char) {rest : List UInt8} {text : List Char}
      (remainder : StandsFor rest text) :
      StandsFor (String.utf8EncodeChar character ++ rest) (character :: text)
  | unreadable {part rest : List UInt8} {text : List Char} (unreadable : Unreadable part rest)
      (remainder : StandsFor rest text) : StandsFor (part ++ rest) (replacement :: text)

theorem BeginsCharacter.of_prefix (begins : BeginsCharacter bytes) (shorter : part <+: bytes) :
    BeginsCharacter part := by
  obtain ⟨character, written⟩ := begins
  exact ⟨character, shorter.trans written⟩

/-- No written form of a character is the beginning of another one. -/
theorem encode_append_inj {first second : Char}
    (same : String.utf8EncodeChar first ++ rest = String.utf8EncodeChar second ++ other) :
    first = second ∧ rest = other := by
  have decoded (character : Char) (tail : List UInt8) :
      (String.utf8EncodeChar character ++ tail).toByteArray.utf8DecodeChar? 0 =
        some character := by
    rw [List.toByteArray_append]
    exact ByteArray.utf8DecodeChar?_utf8EncodeChar_append
  obtain rfl : first = second :=
    Option.some.inj ((decoded first rest).symm.trans (same ▸ decoded second other))
  exact ⟨rfl, List.append_cancel_left same⟩

theorem encode_append_ne_nil (character : Char) : String.utf8EncodeChar character ++ rest ≠ [] := by
  intro empty
  have written := congrArg List.length (List.append_eq_nil_iff.mp empty).1
  rw [String.length_utf8EncodeChar] at written
  exact character.utf8Size_pos.ne' written

theorem Unreadable.ne_encode_append (unreadable : Unreadable part rest) (character : Char) :
    part ++ rest ≠ String.utf8EncodeChar character ++ other := by
  intro same
  have shorter : String.utf8EncodeChar character <+: part ++ rest :=
    same ▸ List.prefix_append _ _
  rcases List.prefix_or_prefix_of_prefix (List.prefix_append part rest) shorter with
    ⟨tail, written⟩ | ⟨tail, written⟩
  · cases tail with
    | nil => exact unreadable.incomplete character (by rw [← written, List.append_nil])
    | cons byte tail =>
        -- The character goes on with the next byte.
        rw [← written, List.append_assoc, List.append_cancel_left_eq] at same
        apply unreadable.longest byte (by rw [same]; rfl)
        exact ⟨character, tail, by rw [← written, List.append_assoc]; rfl⟩
  · obtain rfl : tail = [] := by
      rcases unreadable.begins with ⟨longer, after, whole⟩ | single
      · rw [← written, List.append_assoc, ← List.append_nil (String.utf8EncodeChar longer)] at whole
        exact (List.append_eq_nil_iff.mp (encode_append_inj whole).2).1
      · rw [← written, List.length_append, String.length_utf8EncodeChar] at single
        have size := character.utf8Size_pos
        exact List.eq_nil_of_length_eq_zero (by omega)
    exact unreadable.incomplete character (by rw [← written, List.append_nil])

/-- Of two such parts at the head of a sequence the longer one would go on with a byte that does not
go on with the shorter one. -/
theorem Unreadable.eq_nil_of_longer {tail : List UInt8}
    (unreadable : Unreadable part (tail ++ rest)) (longer : Unreadable (part ++ tail) rest) :
    tail = [] := by
  cases tail with
  | nil => rfl
  | cons byte tail =>
      have begun : part ++ [byte] <+: part ++ byte :: tail := ⟨tail, by simp⟩
      rcases longer.begins with begins | single
      · exact absurd (begins.of_prefix begun) (unreadable.longest byte rfl)
      · have size := List.length_pos_iff.mpr unreadable.nonempty
        rw [List.length_append, List.length_cons] at single
        omega

theorem Unreadable.unique {part' : List UInt8} (unreadable : Unreadable part rest)
    (unreadable' : Unreadable part' other) (same : part ++ rest = part' ++ other) :
    part = part' ∧ rest = other := by
  rcases List.append_eq_append_iff.mp same with ⟨tail, rfl, rfl⟩ | ⟨tail, rfl, rfl⟩
  · obtain rfl := unreadable.eq_nil_of_longer unreadable'
    simp
  · obtain rfl := unreadable'.eq_nil_of_longer unreadable
    simp

/-- Bytes stand for one text. -/
theorem StandsFor.unique {text' : List Char} (stands : StandsFor bytes text)
    (stands' : StandsFor bytes text') : text = text' := by
  induction stands generalizing text' with
  | nil =>
      generalize same : [] = bytes at stands'
      cases stands' with
      | nil => rfl
      | character character => exact absurd same.symm (encode_append_ne_nil character)
      | unreadable unreadable =>
          exact absurd (List.append_eq_nil_iff.mp same.symm).1 unreadable.nonempty
  | @character character rest text _ ih =>
      generalize same : String.utf8EncodeChar character ++ rest = bytes at stands'
      cases stands' with
      | nil => exact absurd same (encode_append_ne_nil character)
      | character character' remainder =>
          obtain ⟨rfl, rfl⟩ := encode_append_inj same
          rw [ih remainder]
      | unreadable unreadable => exact absurd same.symm (unreadable.ne_encode_append character)
  | @unreadable part rest text unreadable _ ih =>
      generalize same : part ++ rest = bytes at stands'
      cases stands' with
      | nil => exact absurd (List.append_eq_nil_iff.mp same).1 unreadable.nonempty
      | character character => exact absurd same (unreadable.ne_encode_append character)
      | unreadable unreadable' remainder =>
          obtain ⟨rfl, rfl⟩ := unreadable.unique unreadable' same
          rw [ih remainder]

/-! ## Written forms in numbers -/

/-- The bytes that write a code point, as numbers. -/
def spelling (value : Nat) : List Nat :=
  if value < 0x80 then [value]
  else if value < 0x800 then [0xC0 + value / 0x40, 0x80 + value % 0x40]
  else if value < 0x10000 then
    [0xE0 + value / 0x1000, 0x80 + value / 0x40 % 0x40, 0x80 + value % 0x40]
  else
    [0xF0 + value / 0x40000, 0x80 + value / 0x1000 % 0x40, 0x80 + value / 0x40 % 0x40,
      0x80 + value % 0x40]

theorem spelling_double {value : Nat} (low : 0x80 ≤ value) (high : value < 0x800) :
    spelling value = [0xC0 + value / 0x40, 0x80 + value % 0x40] := by
  rw [spelling, if_neg low.not_gt, if_pos high]

theorem spelling_triple {value : Nat} (low : 0x800 ≤ value) (high : value < 0x10000) :
    spelling value =
      [0xE0 + value / 0x1000, 0x80 + value / 0x40 % 0x40, 0x80 + value % 0x40] := by
  rw [spelling, if_neg (by omega), if_neg low.not_gt, if_pos high]

theorem spelling_quadruple {value : Nat} (low : 0x10000 ≤ value) :
    spelling value =
      [0xF0 + value / 0x40000, 0x80 + value / 0x1000 % 0x40, 0x80 + value / 0x40 % 0x40,
        0x80 + value % 0x40] := by
  rw [spelling, if_neg (by omega), if_neg (by omega), if_neg low.not_gt]

theorem map_toNat_encode (character : Char) :
    (String.utf8EncodeChar character).map UInt8.toNat = spelling character.toNat := by
  have valid : character.toNat.isValidChar := character.valid
  have value : character.val.toNat = character.toNat := rfl
  simp only [Nat.isValidChar] at valid
  simp only [String.utf8EncodeChar, spelling, value]
  split_ifs
  all_goals
    simp only [List.map_cons, List.map_nil, UInt8.toNat_ofNat', List.cons.injEq, and_true]
    omega

theorem prefix_encode_iff {character : Char} :
    bytes <+: String.utf8EncodeChar character ↔
      bytes.map UInt8.toNat <+: spelling character.toNat := by
  rw [← map_toNat_encode]
  exact (List.prefix_map_iff_of_injective fun first second => UInt8.toNat_inj.mp).symm

theorem beginsCharacter_iff : BeginsCharacter bytes ↔
    ∃ value, value.isValidChar ∧ bytes.map UInt8.toNat <+: spelling value := by
  constructor
  · rintro ⟨character, written⟩
    exact ⟨character.toNat, character.valid, prefix_encode_iff.mp written⟩
  · rintro ⟨value, valid, written⟩
    refine ⟨Char.ofNat value, prefix_encode_iff.mpr ?_⟩
    rwa [Char.toNat_ofNat, if_pos valid]

/-- Each byte behind the first one holds six bits of the code point. -/
theorem getElem?_spelling {value index behind : Nat}
    (size : (spelling value).length = index + 2 + behind) :
    (spelling value)[index + 1]? = some (0x80 + value / 0x40 ^ behind % 0x40) := by
  unfold spelling at size ⊢
  split_ifs at size ⊢
  all_goals simp only [List.length_cons, List.length_nil] at size
  · omega
  · obtain ⟨rfl, rfl⟩ : index = 0 ∧ behind = 0 := by omega
    simp
  · obtain ⟨rfl, rfl⟩ | ⟨rfl, rfl⟩ : index = 0 ∧ behind = 1 ∨ index = 1 ∧ behind = 0 := by omega
    all_goals simp
  · obtain ⟨rfl, rfl⟩ | ⟨rfl, rfl⟩ | ⟨rfl, rfl⟩ :
      index = 0 ∧ behind = 2 ∨ index = 1 ∧ behind = 1 ∨ index = 2 ∧ behind = 0 := by omega
    all_goals simp

/-! ## First and second bytes -/

theorem length_spelling (value : Nat) : (spelling value).length =
    if value < 0x80 then 1 else if value < 0x800 then 2 else if value < 0x10000 then 3 else 4 := by
  unfold spelling
  split_ifs <;> rfl

/-- The first byte of a written form shows how long it is and holds the leading bits. -/
theorem prefix_spelling_singleton {number value : Nat} : [number] <+: spelling value ↔
    number = if value < 0x80 then value else if value < 0x800 then 0xC0 + value / 0x40
      else if value < 0x10000 then 0xE0 + value / 0x1000 else 0xF0 + value / 0x40000 := by
  unfold spelling
  split_ifs
  all_goals simp only [List.cons_prefix_cons, List.nil_prefix, and_true]

theorem prefix_spelling_pair {first second value : Nat} : [first, second] <+: spelling value ↔
    [first] <+: spelling value ∧ 0x80 ≤ value ∧
      second = 0x80 + (if value < 0x800 then value else if value < 0x10000 then value / 0x40
        else value / 0x1000) % 0x40 := by
  unfold spelling
  split_ifs
  all_goals
    simp only [List.cons_prefix_cons, List.nil_prefix, List.prefix_nil, reduceCtorEq, and_true,
      and_false, false_iff]
    omega

theorem beginsCharacter_singleton : BeginsCharacter [byte] ↔
    byte.toNat < 0x80 ∨ 0xC2 ≤ byte.toNat ∧ byte.toNat ≤ 0xF4 := by
  simp only [beginsCharacter_iff, List.map_cons, List.map_nil, prefix_spelling_singleton,
    Nat.isValidChar]
  constructor
  · rintro ⟨value, valid, written⟩
    split_ifs at written <;> omega
  · intro range
    -- The least code point that the byte begins.
    obtain single | double | least | triple | least | quadruple : byte.toNat < 0x80 ∨
        0xC2 ≤ byte.toNat ∧ byte.toNat < 0xE0 ∨ byte.toNat = 0xE0 ∨
        0xE0 < byte.toNat ∧ byte.toNat < 0xF0 ∨ byte.toNat = 0xF0 ∨
        0xF0 < byte.toNat ∧ byte.toNat ≤ 0xF4 := by omega
    · exact ⟨byte.toNat, by omega, by rw [if_pos single]⟩
    · exact ⟨(byte.toNat - 0xC0) * 0x40, by omega, by split_ifs <;> omega⟩
    · exact ⟨0x800, by omega, by simp [least]⟩
    · exact ⟨(byte.toNat - 0xE0) * 0x1000, by omega, by split_ifs <;> omega⟩
    · exact ⟨0x10000, by omega, by simp [least]⟩
    · exact ⟨(byte.toNat - 0xF0) * 0x40000, by omega, by split_ifs <;> omega⟩

theorem beginsCharacter_pair {first second : UInt8} : BeginsCharacter [first, second] ↔
    (0x80 ≤ second.toNat ∧ second.toNat ≤ 0xBF) ∧ (0xC2 ≤ first.toNat ∧ first.toNat ≤ 0xF4) ∧
      (first.toNat = 0xE0 → 0xA0 ≤ second.toNat) ∧ (first.toNat = 0xED → second.toNat ≤ 0x9F) ∧
      (first.toNat = 0xF0 → 0x90 ≤ second.toNat) ∧
      (first.toNat = 0xF4 → second.toNat ≤ 0x8F) := by
  simp only [beginsCharacter_iff, List.map_cons, List.map_nil, Nat.isValidChar]
  constructor
  · rintro ⟨value, valid, written⟩
    rw [prefix_spelling_pair, prefix_spelling_singleton] at written
    obtain ⟨written, long, written'⟩ := written
    split_ifs at written written' <;> omega
  · rintro ⟨tail, range, e0, ed, f0, f4⟩
    obtain double | triple | quadruple : first.toNat < 0xE0 ∨
        0xE0 ≤ first.toNat ∧ first.toNat < 0xF0 ∨ 0xF0 ≤ first.toNat := by omega
    · refine ⟨(first.toNat - 0xC0) * 0x40 + (second.toNat - 0x80), by omega, ?_⟩
      rw [spelling_double (by omega) (by omega)]
      simp only [List.cons_prefix_cons, List.nil_prefix, and_true]
      omega
    · refine ⟨((first.toNat - 0xE0) * 0x40 + (second.toNat - 0x80)) * 0x40, by omega, ?_⟩
      rw [spelling_triple (by omega) (by omega)]
      simp only [List.cons_prefix_cons, List.nil_prefix, and_true]
      omega
    · refine ⟨((first.toNat - 0xF0) * 0x40 + (second.toNat - 0x80)) * 0x1000, by omega, ?_⟩
      rw [spelling_quadruple (by omega)]
      simp only [List.cons_prefix_cons, List.nil_prefix, and_true]
      omega

theorem eq_of_prefix_spelling {value number behind : Nat} {before : List Nat}
    (written : before ++ [number] <+: spelling value) (inside : before ≠ [])
    (size : (spelling value).length = before.length + 1 + behind) :
    number = 0x80 + value / 0x40 ^ behind % 0x40 := by
  obtain ⟨index, length⟩ := Nat.exists_eq_add_of_le' (List.length_pos_iff.mpr inside)
  have last : (spelling value)[index + 1]? = some number := by
    obtain ⟨after, whole⟩ := written
    rw [← whole, ← length, List.getElem?_append_left (by simp), List.getElem?_concat_length]
  rw [getElem?_spelling (by omega : _ = index + 2 + behind)] at last
  exact (Option.some.inj last).symm

/-- A byte behind the first one is no first byte. -/
theorem continues_of_written {value : Nat}
    (written : (held ++ [byte]).map UInt8.toNat <+: spelling value) (inside : held ≠ []) :
    0x80 ≤ byte.toNat ∧ byte.toNat ≤ 0xBF := by
  obtain ⟨behind, size⟩ := Nat.exists_eq_add_of_le written.length_le
  rw [List.map_append] at written size
  have number := eq_of_prefix_spelling written (by simpa using inside) (by simpa using size)
  omega

/-- What two bytes begin goes on with any byte that is not a first one. -/
theorem exists_spelling_append {value digit : Nat} {before : List Nat} (valid : value.isValidChar)
    (written : before <+: spelling value) (two : 2 ≤ before.length)
    (short : before.length < (spelling value).length) (small : digit < 0x40) :
    ∃ value', value'.isValidChar ∧ before ++ [0x80 + digit] <+: spelling value' := by
  simp only [Nat.isValidChar] at valid ⊢
  have three : 0x800 ≤ value := by
    rw [length_spelling] at short
    split_ifs at short <;> omega
  rcases lt_or_ge value 0x10000 with triple | quadruple
  · rw [spelling_triple three triple] at written short
    obtain ⟨first, second, rfl⟩ := List.length_eq_two.mp (two.antisymm' (Nat.le_of_lt_succ short))
    refine ⟨value / 0x40 * 0x40 + digit, by omega, ?_⟩
    rw [spelling_triple (by omega) (by omega)]
    simp only [List.cons_append, List.nil_append, List.cons_prefix_cons, List.nil_prefix,
      and_true] at written ⊢
    omega
  · rw [spelling_quadruple quadruple] at written short
    simp only [List.length_cons, List.length_nil] at short
    obtain size | size : before.length = 2 ∨ before.length = 3 := by omega
    · obtain ⟨first, second, rfl⟩ := List.length_eq_two.mp size
      refine ⟨(value / 0x1000 * 0x40 + digit) * 0x40, by omega, ?_⟩
      rw [spelling_quadruple (by omega)]
      simp only [List.cons_append, List.nil_append, List.cons_prefix_cons, List.nil_prefix,
        and_true] at written ⊢
      omega
    · obtain ⟨first, second, third, rfl⟩ := List.length_eq_three.mp size
      refine ⟨value / 0x40 * 0x40 + digit, by omega, ?_⟩
      rw [spelling_quadruple (by omega)]
      simp only [List.cons_append, List.nil_append, List.cons_prefix_cons, List.nil_prefix,
        and_true] at written ⊢
      omega

/-! ## Bytes behind bytes -/

/-- Behind other bytes no character goes on with a first byte. -/
theorem not_beginsCharacter_append (first : BeginsCharacter [byte]) (inside : held ≠ []) :
    ¬BeginsCharacter (held ++ [byte]) := by
  intro begins
  obtain ⟨value, -, written⟩ := beginsCharacter_iff.mp begins
  have behind := continues_of_written written inside
  rw [beginsCharacter_singleton] at first
  omega

/-- A first byte begins anew, whatever comes before it. -/
theorem StandsFor.append {text' : List Char} (stands : StandsFor bytes text)
    (stands' : StandsFor rest text') (first : ∀ byte ∈ rest.head?, BeginsCharacter [byte]) :
    StandsFor (bytes ++ rest) (text ++ text') := by
  induction stands with
  | nil => exact stands'
  | character character _ ih =>
      rw [List.append_assoc]
      exact .character character ih
  | @unreadable part remainder text unreadable _ ih =>
      rw [List.append_assoc]
      refine .unreadable ⟨unreadable.nonempty, unreadable.begins, unreadable.incomplete, ?_⟩ ih
      intro byte member
      cases remainder with
      | nil => exact not_beginsCharacter_append (first byte member) unreadable.nonempty
      | cons head tail => exact unreadable.longest byte member

/-- Bytes that only begin a character. -/
def Incomplete (bytes : List UInt8) : Prop :=
  bytes ≠ [] ∧ ∃ character, bytes <+: String.utf8EncodeChar character ∧
    bytes ≠ String.utf8EncodeChar character

theorem Incomplete.standsFor (incomplete : Incomplete bytes) : StandsFor bytes [replacement] := by
  obtain ⟨nonempty, character, begun, short⟩ := incomplete
  have unreadable : Unreadable bytes [] := by
    refine ⟨nonempty, .inl ⟨character, begun⟩, ?_, fun _ member => by contradiction⟩
    rintro whole rfl
    obtain ⟨tail, same⟩ := begun
    rw [← List.append_nil (String.utf8EncodeChar character)] at same
    exact short (congrArg _ (encode_append_inj same).1)
  rw [← List.append_nil bytes]
  exact .unreadable unreadable .nil

theorem Incomplete.first (incomplete : Incomplete bytes) :
    ∀ byte ∈ bytes.head?, BeginsCharacter [byte] := by
  obtain ⟨-, character, begun, -⟩ := incomplete
  intro byte member
  obtain ⟨tail, rfl⟩ := List.head?_eq_some_iff.mp member
  exact BeginsCharacter.of_prefix ⟨character, begun⟩ ⟨tail, rfl⟩

end Montage.Text
