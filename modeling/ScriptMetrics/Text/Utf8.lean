/-!
Reading text from bytes that claim to be UTF-8. Ill-formed input never fails: every maximal
ill-formed part, that is every start of a character that its next byte does not continue and
every byte that starts none, is read as one replacement character.
-/

namespace ScriptMetrics.Utf8

def replacement : Char :=
  Char.ofNat 0xFFFD

/-- A character begun: the bytes still owed, the range of the next of them, and the bits so far. -/
structure Partial where
  owed : Nat
  low : Nat
  high : Nat
  bits : Nat
deriving DecidableEq, Repr

inductive Lead where
  | whole (char : Char)
  | start (begun : Partial)
  | stray
deriving DecidableEq, Repr

/-- The second byte of a character is restricted where it would spell a shorter character, a
surrogate or a code point out of range. -/
def lead (byte : Nat) : Lead :=
  if byte < 0x80 then .whole (Char.ofNat byte)
  else if byte < 0xC2 then .stray
  else if byte < 0xE0 then .start ⟨1, 0x80, 0xBF, byte - 0xC0⟩
  else if byte = 0xE0 then .start ⟨2, 0xA0, 0xBF, 0⟩
  else if byte = 0xED then .start ⟨2, 0x80, 0x9F, 0xD⟩
  else if byte < 0xF0 then .start ⟨2, 0x80, 0xBF, byte - 0xE0⟩
  else if byte = 0xF0 then .start ⟨3, 0x90, 0xBF, 0⟩
  else if byte < 0xF4 then .start ⟨3, 0x80, 0xBF, byte - 0xF0⟩
  else if byte = 0xF4 then .start ⟨3, 0x80, 0x8F, 4⟩
  else .stray

structure Decoder where
  text : String := ""
  begun : Option Partial := none
deriving DecidableEq, Repr

namespace Decoder

def stepLead (text : String) (byte : Nat) : Decoder :=
  match lead byte with
  | .whole char => { text := text.push char }
  | .start begun => { text, begun := some begun }
  | .stray => { text := text.push replacement }

/-- Reads one byte. A byte that does not continue the character begun ends it as ill-formed and is
then read as the first byte of the next. -/
def step (decoder : Decoder) (byte : UInt8) : Decoder :=
  match decoder.begun with
  | none => stepLead decoder.text byte.toNat
  | some begun =>
      if begun.low ≤ byte.toNat ∧ byte.toNat ≤ begun.high then
        let bits := begun.bits * 64 + (byte.toNat - 0x80)
        if begun.owed ≤ 1 then
          { text := decoder.text.push (Char.ofNat bits) }
        else
          { decoder with begun := some ⟨begun.owed - 1, 0x80, 0xBF, bits⟩ }
      else
        stepLead (decoder.text.push replacement) byte.toNat

/-- A character that the end of the input cuts off is ill-formed. -/
def finish (decoder : Decoder) : String :=
  match decoder.begun with
  | none => decoder.text
  | some _ => decoder.text.push replacement

end Decoder

def decode (bytes : List UInt8) : String :=
  (bytes.foldl Decoder.step {}).finish

end ScriptMetrics.Utf8
