import Mathlib.Data.Int.Basic
import Mathlib.Data.List.Basic
import Mathlib.Tactic.Ring

/-!
# Fixed-width integers

The values of 32-bit C++ integers as integers, with the wrap of each conversion,
and the little-endian bytes of an unsigned word.
-/

set_option autoImplicit false

namespace ProtoCore.Library

def int32 (value : Int) : Int := value.bmod (2 ^ 32)

def uint32 (value : Int) : Int := value % 2 ^ 32

theorem int32_of_range {value : Int} (low : -2 ^ 31 ≤ value) (high : value < 2 ^ 31) :
    int32 value = value := by
  unfold int32
  rw [Int.bmod_def]
  omega

theorem int32_le {value : Int} (nonneg : 0 ≤ value) : int32 value ≤ value := by
  unfold int32
  rw [Int.bmod_def]
  omega

theorem int32_eq_iff {value : Int} (nonneg : 0 ≤ value) :
    int32 value = value ↔ value < 2 ^ 31 := by
  unfold int32
  rw [Int.bmod_def]
  omega

theorem uint32_of_range {value : Int} (low : 0 ≤ value) (high : value < 2 ^ 32) :
    uint32 value = value := by
  unfold uint32
  omega

/-- `CodedOutputStream::WriteLittleEndian32`. -/
def littleEndian32 (value : Nat) : List UInt8 :=
  [UInt8.ofNat value, UInt8.ofNat (value / 2 ^ 8), UInt8.ofNat (value / 2 ^ 16),
    UInt8.ofNat (value / 2 ^ 24)]

/-- `CodedInputStream::ReadLittleEndian32`, with the bytes after the word. -/
def readLittleEndian32 : List UInt8 → Option (Nat × List UInt8)
  | b0 :: b1 :: b2 :: b3 :: rest =>
      some (b0.toNat + 2 ^ 8 * b1.toNat + 2 ^ 16 * b2.toNat + 2 ^ 24 * b3.toNat, rest)
  | _ => none

@[simp] theorem littleEndian32_length (value : Nat) : (littleEndian32 value).length = 4 := rfl

theorem readLittleEndian32_write {value : Nat} (bounded : value < 2 ^ 32)
    (rest : List UInt8) :
    readLittleEndian32 (littleEndian32 value ++ rest) = some (value, rest) := by
  simp only [littleEndian32, List.cons_append, List.nil_append, readLittleEndian32,
    UInt8.toNat_ofNat', Option.some.injEq, Prod.mk.injEq, and_true]
  omega

theorem readLittleEndian32_short {bytes : List UInt8} (short : bytes.length < 4) :
    readLittleEndian32 bytes = none := by
  match bytes, short with
  | [], _ | [_], _ | [_, _], _ | [_, _, _], _ => rfl
  | _ :: _ :: _ :: _ :: rest, short =>
      simp only [List.length_cons] at short
      omega

theorem readLittleEndian32_eq_some {bytes rest : List UInt8} {word : Nat}
    (read : readLittleEndian32 bytes = some (word, rest)) :
    4 ≤ bytes.length ∧ word < 2 ^ 32 := by
  match bytes, read with
  | b0 :: b1 :: b2 :: b3 :: _, read =>
      have low := b0.toNat_lt
      have second := b1.toNat_lt
      have third := b2.toNat_lt
      have high := b3.toNat_lt
      cases read
      simp only [List.length_cons]
      omega

theorem readLittleEndian32_of_length {bytes : List UInt8} (long : 4 ≤ bytes.length) :
    ∃ word rest, readLittleEndian32 bytes = some (word, rest) := by
  match bytes, long with
  | _ :: _ :: _ :: _ :: rest, _ => exact ⟨_, rest, rfl⟩

theorem readLittleEndian32_append {bytes rest : List UInt8} {word : Nat}
    (read : readLittleEndian32 bytes = some (word, rest)) (more : List UInt8) :
    readLittleEndian32 (bytes ++ more) = some (word, rest ++ more) := by
  match bytes, read with
  | _ :: _ :: _ :: _ :: _, read =>
      cases read
      rfl

theorem readLittleEndian32_rest {bytes rest : List UInt8} {word : Nat}
    (read : readLittleEndian32 bytes = some (word, rest)) : rest = bytes.drop 4 := by
  match bytes, read with
  | _ :: _ :: _ :: _ :: _, read =>
      cases read
      rfl

end ProtoCore.Library
