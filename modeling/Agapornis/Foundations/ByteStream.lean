import Mathlib.Data.List.Induction
import Agapornis.Foundations.Text

namespace Agapornis
namespace Foundations

/-!
# Byte streams

Numbers of a fixed width, most significant byte first, and reading a known
number of bytes from the front of a stream.
-/

def toBeBytes : Nat -> Nat -> Bytes
  | 0, _ => []
  | width + 1, value => toBeBytes width (value / 256) ++ [UInt8.ofNat value]

def fromBeBytes (bytes : Bytes) : Nat :=
  bytes.foldl (fun value byte => value * 256 + byte.toNat) 0

theorem toBeBytes_length (width value : Nat) : (toBeBytes width value).length = width := by
  induction width generalizing value with
  | zero => rfl
  | succ width ih => rw [toBeBytes, List.length_append, ih, List.length_singleton]

theorem fromBeBytes_concat (bytes : Bytes) (last : UInt8) :
    fromBeBytes (bytes ++ [last]) = fromBeBytes bytes * 256 + last.toNat := by
  rw [fromBeBytes]
  rw [List.foldl_append]
  rfl

/-- A number that fits is read back. -/
theorem fromBeBytes_toBeBytes {width value : Nat} (fits : value < 256 ^ width) :
    fromBeBytes (toBeBytes width value) = value := by
  induction width generalizing value with
  | zero =>
      have zero : value = 0 := by simpa using fits
      rw [zero]
      rfl
  | succ width ih =>
      have smaller : value / 256 < 256 ^ width := by
        apply Nat.div_lt_of_lt_mul
        rw [Nat.pow_succ, Nat.mul_comm] at fits
        exact fits
      rw [toBeBytes, fromBeBytes_concat, ih smaller, UInt8.toNat_ofNat']
      omega

/-- Bytes that were read are written back. -/
theorem toBeBytes_fromBeBytes (bytes : Bytes) :
    toBeBytes bytes.length (fromBeBytes bytes) = bytes := by
  induction bytes using List.reverseRecOn with
  | nil => rfl
  | append_singleton front last ih =>
      have below := last.toNat_lt
      have above : (fromBeBytes front * 256 + last.toNat) / 256 = fromBeBytes front := by omega
      have lowest : UInt8.ofNat (fromBeBytes front * 256 + last.toNat) = last := by
        apply UInt8.toNat_inj.mp
        rw [UInt8.toNat_ofNat']
        omega
      rw [List.length_append, List.length_singleton, toBeBytes, fromBeBytes_concat, above, ih, lowest]

theorem toBeBytes_injective {width first second : Nat} (firstFits : first < 256 ^ width)
    (secondFits : second < 256 ^ width) (same : toBeBytes width first = toBeBytes width second) :
    first = second := by
  rw [<- fromBeBytes_toBeBytes firstFits, same, fromBeBytes_toBeBytes secondFits]

/-- The first bytes of a stream and the rest, when there are that many. -/
def readExact (count : Nat) (stream : Bytes) : Option (Bytes × Bytes) :=
  if stream.length < count then none else some (stream.take count, stream.drop count)

theorem readExact_append {count : Nat} {front : Bytes} (length : front.length = count)
    (rest : Bytes) : readExact count (front ++ rest) = some (front, rest) := by
  rw [readExact]
  rw [if_neg (by rw [List.length_append]; omega), List.take_left' length, List.drop_left' length]

theorem readExact_eq_some {count : Nat} {stream front rest : Bytes}
    (read : readExact count stream = some (front, rest)) :
    stream = front ++ rest /\ front.length = count := by
  rw [readExact] at read
  split at read
  · cases read
  · cases read
    refine ⟨(List.take_append_drop count stream).symm, ?_⟩
    rw [List.length_take]
    omega

end Foundations
end Agapornis
