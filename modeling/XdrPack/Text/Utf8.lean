/-!
# Decoding bytes that may not be text

Bytes are read as UTF-8 from the left. Where they cannot be read, the longest
sequence that could still have begun a character, or else a single byte, is one
unreadable part. The lossy decoding writes one replacement character for each
unreadable part.
-/

namespace XdrPack.Text

/-- What a leading byte promises: how many bytes follow, the range of the first
of them, and the bits that the leading byte itself contributes. -/
structure Lead where
  following : Nat
  low : Nat
  high : Nat
  bits : Nat

/-- The promise of a leading byte, if it can begin a character of more than one
byte. The ranges of the second byte leave out overlong forms, surrogates and
code points past the last one. -/
def Lead.ofByte? (byte : Nat) : Option Lead :=
  if 0xC2 <= byte && byte <= 0xDF then some ⟨1, 0x80, 0xBF, byte - 0xC0⟩
  else if byte = 0xE0 then some ⟨2, 0xA0, 0xBF, 0⟩
  else if byte = 0xED then some ⟨2, 0x80, 0x9F, 0x0D⟩
  else if 0xE1 <= byte && byte <= 0xEF then some ⟨2, 0x80, 0xBF, byte - 0xE0⟩
  else if byte = 0xF0 then some ⟨3, 0x90, 0xBF, 0⟩
  else if 0xF1 <= byte && byte <= 0xF3 then some ⟨3, 0x80, 0xBF, byte - 0xF0⟩
  else if byte = 0xF4 then some ⟨3, 0x80, 0x8F, 4⟩
  else none

/-- Reads bytes in the state of an unfinished character, or between characters
when `pending` is absent. An unreadable part appears as `none`. -/
def decodeFrom (pending : Option Lead) : List Nat -> List (Option Char)
  | [] => if pending.isSome then [none] else []
  | byte :: rest =>
      match pending with
      | some lead =>
          if lead.low <= byte && byte <= lead.high then
            let bits := lead.bits * 64 + (byte - 0x80)
            if lead.following <= 1 then
              some (Char.ofNat bits) :: decodeFrom none rest
            else
              decodeFrom (some ⟨lead.following - 1, 0x80, 0xBF, bits⟩) rest
          else if byte < 0x80 then
            none :: some (Char.ofNat byte) :: decodeFrom none rest
          else
            match Lead.ofByte? byte with
            | some next => none :: decodeFrom (some next) rest
            | none => none :: none :: decodeFrom none rest
      | none =>
          if byte < 0x80 then
            some (Char.ofNat byte) :: decodeFrom none rest
          else
            match Lead.ofByte? byte with
            | some next => decodeFrom (some next) rest
            | none => none :: decodeFrom none rest

/-- The text that bytes stand for, with U+FFFD for every unreadable part. -/
def decodeLossy (bytes : List UInt8) : String :=
  String.ofList ((decodeFrom none (bytes.map UInt8.toNat)).map fun part => part.getD '�')

end XdrPack.Text
