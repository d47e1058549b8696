/-!
# Decoding UTF-8 as it arrives

The decoder takes bytes in any portions. It keeps what it knows of a character that is not
complete, so the portions do not matter. Bytes that can be part of no character become the
replacement character: one for each longest beginning of a character that cannot go on. The first
two bytes of a surrogate are the beginning of no character, so each of them becomes one.
-/

namespace Montage.Text

/-- A character whose first bytes have arrived. The next byte has to lie between two bounds, which
exclude overlong forms, surrogates and values beyond the last character. -/
structure OpenCharacter where
  /-- How many bytes are still to come. -/
  owed : Nat
  low : Nat
  high : Nat
  /-- The bits of the code point so far. -/
  bits : Nat
  deriving DecidableEq, Repr

/-- What the decoder keeps between bytes. -/
inductive DecoderState where
  /-- A character may begin. -/
  | ready
  /-- A character has begun. -/
  | within (character : OpenCharacter)
  /-- The first two bytes of a surrogate have arrived. No byte completes it, but this is not said
  before the next byte is there. -/
  | surrogate
  deriving DecidableEq, Repr

/-- The character that stands for bytes without a meaning. -/
def replacement : Char := '\uFFFD'

/-- The bits that the first byte of every surrogate carries. -/
def surrogateBits : Nat := 0xD

/-- The state inside a character. -/
def opened (owed low high bits : Nat) : List Char × DecoderState :=
  ([], .within { owed := owed, low := low, high := high, bits := bits })

/-- Take a byte where a character may begin. -/
def openCharacter (byte : UInt8) : List Char × DecoderState :=
  let value := byte.toNat
  if value < 0x80 then ([Char.ofNat value], .ready)
  else if 0xC2 ≤ value ∧ value ≤ 0xDF then opened 1 0x80 0xBF (value - 0xC0)
  else if value = 0xE0 then opened 2 0xA0 0xBF 0
  else if value = 0xED then opened 2 0x80 0x9F surrogateBits
  else if 0xE1 ≤ value ∧ value ≤ 0xEF then opened 2 0x80 0xBF (value - 0xE0)
  else if value = 0xF0 then opened 3 0x90 0xBF 0
  else if 0xF1 ≤ value ∧ value ≤ 0xF3 then opened 3 0x80 0xBF (value - 0xF0)
  else if value = 0xF4 then opened 3 0x80 0x8F 4
  else ([replacement], .ready)

/-- Holds of a byte that makes a surrogate of the character that has begun. -/
def OpenCharacter.makesSurrogate (character : OpenCharacter) (byte : UInt8) : Bool :=
  character.owed == 2 && character.bits == surrogateBits &&
    0xA0 ≤ byte.toNat && byte.toNat ≤ 0xBF

/-- Take one byte. A byte that cannot continue a character ends it and begins anew. -/
def decodeByte (state : DecoderState) (byte : UInt8) : List Char × DecoderState :=
  match state with
  | .ready => openCharacter byte
  | .surrogate =>
      let (characters, state) := openCharacter byte
      (replacement :: replacement :: characters, state)
  | .within character =>
      if character.low ≤ byte.toNat ∧ byte.toNat ≤ character.high then
        let bits := character.bits * 0x40 + (byte.toNat - 0x80)
        if character.owed ≤ 1 then ([Char.ofNat bits], .ready)
        else opened (character.owed - 1) 0x80 0xBF bits
      else if character.makesSurrogate byte then ([], .surrogate)
      else
        let (characters, state) := openCharacter byte
        (replacement :: characters, state)

/-- Take a portion of bytes. -/
def decodeBytes (state : DecoderState) : List UInt8 → List Char × DecoderState
  | [] => ([], state)
  | byte :: rest =>
      let (characters, state) := decodeByte state byte
      let (more, state) := decodeBytes state rest
      (characters ++ more, state)

/-- What is left when no byte follows: a character that is not complete has no meaning. -/
def decodeEnd : DecoderState → List Char
  | .ready => []
  | .within _ => [replacement]
  | .surrogate => [replacement, replacement]

/-- The text of a whole sequence of bytes. -/
def decode (bytes : List UInt8) : List Char :=
  let (characters, state) := decodeBytes .ready bytes
  characters ++ decodeEnd state

/-- The texts that portions give one after another, from a state on. Portions that complete no
character give none. -/
def decodePortions (state : DecoderState) : List (List UInt8) → List (List Char)
  | [] => [decodeEnd state].filter fun text => !text.isEmpty
  | portion :: rest =>
      let (text, state) := decodeBytes state portion
      [text].filter (fun text => !text.isEmpty) ++ decodePortions state rest

end Montage.Text
