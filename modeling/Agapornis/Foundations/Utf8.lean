import Agapornis.Foundations.Text

namespace Agapornis
namespace Foundations

/-!
# Text of bytes that need not be text

The lossy reading of UTF-8: a longest beginning of a character that is not
continued becomes one replacement character.
-/

/-- How much of a character is read: so many bytes are missing, the next one
lies between two bounds, and the bytes before it carry a value. -/
structure PartialChar where
  missing : Nat
  lower : Nat
  upper : Nat
  value : Nat
  deriving DecidableEq, Repr

def replacementCharacter : Char := Char.ofNat 0xFFFD

/-- What the first byte of a character says of it. -/
def firstByte (byte : Nat) : Option Char × Option PartialChar :=
  if byte < 0x80 then (some (Char.ofNat byte), none)
  else if 0xC2 <= byte && byte <= 0xDF then (none, some ⟨1, 0x80, 0xBF, byte - 0xC0⟩)
  else if byte = 0xE0 then (none, some ⟨2, 0xA0, 0xBF, 0⟩)
  else if byte = 0xED then (none, some ⟨2, 0x80, 0x9F, 0xD⟩)
  else if 0xE1 <= byte && byte <= 0xEF then (none, some ⟨2, 0x80, 0xBF, byte - 0xE0⟩)
  else if byte = 0xF0 then (none, some ⟨3, 0x90, 0xBF, 0⟩)
  else if byte = 0xF4 then (none, some ⟨3, 0x80, 0x8F, 4⟩)
  else if 0xF1 <= byte && byte <= 0xF3 then (none, some ⟨3, 0x80, 0xBF, byte - 0xF0⟩)
  else (some replacementCharacter, none)

/-- Read on in the middle of a character or between two. -/
def lossyFrom : Option PartialChar -> Bytes -> Text
  | none, [] => []
  | some _, [] => [replacementCharacter]
  | none, byte :: rest =>
      let begun := firstByte byte.toNat
      begun.1.toList ++ lossyFrom begun.2 rest
  | some begun, byte :: rest =>
      if begun.lower <= byte.toNat && byte.toNat <= begun.upper then
        let value := begun.value * 64 + (byte.toNat - 0x80)
        if begun.missing <= 1 then Char.ofNat value :: lossyFrom none rest
        else lossyFrom (some ⟨begun.missing - 1, 0x80, 0xBF, value⟩) rest
      else
        let next := firstByte byte.toNat
        replacementCharacter :: (next.1.toList ++ lossyFrom next.2 rest)

def fromUtf8Lossy (bytes : Bytes) : Text :=
  lossyFrom none bytes

example : fromUtf8Lossy [0x61, 0xC3, 0xA9, 0xE2, 0x82, 0x41, 0xFF] =
    ['a', 'é', replacementCharacter, 'A', replacementCharacter] := by
  decide

/-- The bytes of a text in UTF-8. -/
def encodeUtf8 (text : Text) : Bytes :=
  text.flatMap String.utf8EncodeChar

/-- The strict reading of UTF-8. -/
def fromUtf8 (bytes : Bytes) : Option Text :=
  bytes.toByteArray.utf8Decode?.map Array.toList

theorem encodeUtf8_append (front back : Text) :
    encodeUtf8 (front ++ back) = encodeUtf8 front ++ encodeUtf8 back :=
  List.flatMap_append

/-- A character beyond the first 128 has only bytes with the highest bit. -/
theorem utf8EncodeChar_high {character : Char} (large : 0x7f < character.toNat) {byte : UInt8}
    (member : byte ∈ String.utf8EncodeChar character) : 128 <= byte.toNat := by
  have later : Not (character.val.toNat <= 0x7f) := Nat.not_le_of_lt large
  rw [String.utf8EncodeChar, if_neg later] at member
  split at member
  · simp only [List.mem_cons, List.not_mem_nil, or_false] at member
    rcases member with rfl | rfl <;> rw [UInt8.toNat_ofNat'] <;> omega
  · split at member
    · simp only [List.mem_cons, List.not_mem_nil, or_false] at member
      rcases member with rfl | rfl | rfl <;> rw [UInt8.toNat_ofNat'] <;> omega
    · simp only [List.mem_cons, List.not_mem_nil, or_false] at member
      rcases member with rfl | rfl | rfl | rfl <;> rw [UInt8.toNat_ofNat'] <;> omega

theorem utf8EncodeChar_low {character : Char} (small : character.toNat <= 0x7f) :
    String.utf8EncodeChar character = [UInt8.ofNat character.toNat] := by
  have below : character.val.toNat <= 0x7f := small
  rw [String.utf8EncodeChar, if_pos below]
  rfl

/-- A byte below 128 stands for its character alone. -/
theorem mem_encodeUtf8 {text : Text} {character : Char} (ascii : character.toNat < 128) :
    UInt8.ofNat character.toNat ∈ encodeUtf8 text <-> character ∈ text := by
  have value : (UInt8.ofNat character.toNat).toNat = character.toNat := by
    rw [UInt8.toNat_ofNat']
    omega
  have one (other : Char) : UInt8.ofNat character.toNat ∈ String.utf8EncodeChar other <->
      character = other := by
    constructor
    · intro inside
      rcases Nat.lt_or_ge 0x7f other.toNat with large | small
      · have above := utf8EncodeChar_high large inside
        omega
      · rw [utf8EncodeChar_low small, List.mem_singleton] at inside
        have same := congrArg UInt8.toNat inside
        rw [value, UInt8.toNat_ofNat'] at same
        apply Char.toNat_inj.mp
        omega
    · rintro rfl
      rw [utf8EncodeChar_low (Nat.le_of_lt_succ ascii)]
      exact List.mem_singleton.mpr rfl
  rw [encodeUtf8, List.mem_flatMap]
  constructor
  · rintro ⟨other, member, inside⟩
    rw [(one other).mp inside]
    exact member
  · intro member
    exact ⟨character, member, (one character).mpr rfl⟩

theorem toByteArray_encodeUtf8 (text : Text) : (encodeUtf8 text).toByteArray = text.utf8Encode :=
  rfl

theorem fromUtf8_eq_some {bytes : Bytes} {text : Text} :
    fromUtf8 bytes = some text <-> encodeUtf8 text = bytes := by
  rw [fromUtf8, Option.map_eq_some_iff]
  constructor
  · rintro ⟨decoded, same, rfl⟩
    have present : bytes.toByteArray.utf8Decode?.isSome := by rw [same]; rfl
    have encoded := @ByteArray.utf8Encode_get_utf8Decode? bytes.toByteArray present
    simp only [same, Option.get_some] at encoded
    have contents := congrArg ByteArray.data encoded
    rw [<- toByteArray_encodeUtf8, List.data_toByteArray, List.data_toByteArray] at contents
    exact congrArg Array.toList contents
  · intro encoded
    rw [<- encoded, toByteArray_encodeUtf8, List.utf8Decode?_utf8Encode]
    exact ⟨_, rfl, rfl⟩

theorem encodeUtf8_injective {first second : Text} (same : encodeUtf8 first = encodeUtf8 second) :
    first = second := by
  have read : fromUtf8 (encodeUtf8 second) = some first := fromUtf8_eq_some.mpr same
  rw [fromUtf8_eq_some.mpr rfl] at read
  exact (Option.some.inj read).symm

end Foundations
end Agapornis
