/-!
# Bytes read as text

Strict decoding is the standard library's.  Lossy decoding puts the
replacement character U+FFFD in place of every longest run of bytes that
starts a character but does not finish it.
-/

namespace LockBench
namespace Text

/-- What a leading byte asks of the bytes after it: how many follow, and the
range of the first of them. -/
structure Lead where
  /-- Number of bytes that follow the leading one. -/
  following : Nat
  /-- Least value of the first byte that follows. -/
  low : Nat
  /-- Greatest value of the first byte that follows. -/
  high : Nat

/-- The demands of a leading byte, or `none` when no character starts so. -/
def lead? (byte : Nat) : Option Lead :=
  if byte ≤ 0x7F then some ⟨0, 0x80, 0xBF⟩
  else if 0xC2 ≤ byte ∧ byte ≤ 0xDF then some ⟨1, 0x80, 0xBF⟩
  else if byte = 0xE0 then some ⟨2, 0xA0, 0xBF⟩
  else if byte = 0xED then some ⟨2, 0x80, 0x9F⟩
  else if 0xE1 ≤ byte ∧ byte ≤ 0xEF then some ⟨2, 0x80, 0xBF⟩
  else if byte = 0xF0 then some ⟨3, 0x90, 0xBF⟩
  else if 0xF1 ≤ byte ∧ byte ≤ 0xF3 then some ⟨3, 0x80, 0xBF⟩
  else if byte = 0xF4 then some ⟨3, 0x80, 0x8F⟩
  else none

/-- The value of the leading byte's own bits. -/
def Lead.bits (lead : Lead) (byte : Nat) : Nat :=
  match lead.following with
  | 0 => byte
  | 1 => byte % 32
  | 2 => byte % 16
  | _ => byte % 8

/-- A character whose end has not been read yet. -/
structure Pending where
  /-- Number of bytes still to come, less one. -/
  missing : Nat
  /-- Least value of the next byte. -/
  low : Nat
  /-- Greatest value of the next byte. -/
  high : Nat
  /-- Bits read so far. -/
  bits : Nat

/-- The replacement character. -/
def replacement : Char := '\uFFFD'

/-- Decode from a byte that starts a character: the character, if it is whole
or ill-formed, and what is pending otherwise. -/
def startCharacter (byte : Nat) : List Char × Option Pending :=
  match lead? byte with
  | none => ([replacement], none)
  | some lead =>
    match lead.following with
    | 0 => ([Char.ofNat byte], none)
    | missing + 1 =>
      ([], some ⟨missing, lead.low, lead.high, lead.bits byte⟩)

/-- Decode bytes, replacing what is not part of a character. -/
def decodeFrom (pending : Option Pending) : List UInt8 -> List Char
  | [] =>
    match pending with
    | none => []
    | some _ => [replacement]
  | byte :: rest =>
    match pending with
    | none =>
      let (found, next) := startCharacter byte.toNat
      found ++ decodeFrom next rest
    | some state =>
      if state.low ≤ byte.toNat ∧ byte.toNat ≤ state.high then
        let bits := state.bits * 64 + byte.toNat % 64
        match state.missing with
        | 0 => Char.ofNat bits :: decodeFrom none rest
        | missing + 1 => decodeFrom (some ⟨missing, 0x80, 0xBF, bits⟩) rest
      else
        let (found, next) := startCharacter byte.toNat
        replacement :: found ++ decodeFrom next rest

/-- The text of some bytes, with U+FFFD for what is not UTF-8. -/
def decodeLossy (bytes : ByteArray) : String :=
  match String.fromUTF8? bytes with
  | some text => text
  | none => String.ofList (decodeFrom none bytes.toList)

/-- The bytes of a text. -/
def bytes (text : String) : List UInt8 :=
  text.toUTF8.data.toList

/-- The bytes of a text read back as that text. -/
@[simp] theorem fromUTF8?_toByteArray (text : String) :
    String.fromUTF8? text.toByteArray = some text := by
  simp only [String.fromUTF8?, dif_pos text.isValidUTF8]
  rfl

/-- Bytes that are read as a text are those of that text. -/
theorem eq_toUTF8_of_fromUTF8?
    {content : ByteArray}
    {text : String}
    (isText : String.fromUTF8? content = some text) :
    content = text.toUTF8 := by
  rw [String.fromUTF8?] at isText
  split at isText
  · cases isText
    rfl
  · cases isText

@[simp] theorem decodeLossy_toByteArray (text : String) :
    decodeLossy text.toByteArray = text := by
  simp [decodeLossy]

end Text
end LockBench
