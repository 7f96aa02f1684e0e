import Mathlib.Data.Nat.Basic
import Mathlib.Tactic.Ring

/-! Byte-addressed memory with little-endian 64-bit words. -/

namespace Kernai.Foundation

abbrev Memory := Nat → UInt8

namespace Memory

/-- The number that `count` bytes spell, least significant byte first. -/
def littleEndian (bytes : Nat → UInt8) : Nat → Nat
  | 0 => 0
  | count + 1 => (bytes 0).toNat + 256 * littleEndian (fun index => bytes (index + 1)) count

def read64 (memory : Memory) (address : Nat) : UInt64 :=
  .ofNat (littleEndian (fun index => memory (address + index)) 8)

def write64 (memory : Memory) (address : Nat) (value : UInt64) : Memory := fun at' =>
  if address ≤ at' ∧ at' < address + 8 then .ofNat (value.toNat / 256 ^ (at' - address)) else memory at'

def zero (memory : Memory) (address count : Nat) : Memory := fun at' =>
  if address ≤ at' ∧ at' < address + count then 0 else memory at'

def readBytes (memory : Memory) (address count : Nat) : List UInt8 :=
  (List.range count).map (fun index => memory (address + index))

def writeBytes (memory : Memory) (address : Nat) (bytes : List UInt8) : Memory := fun at' =>
  if address ≤ at' ∧ at' < address + bytes.length then bytes.getD (at' - address) 0 else memory at'

/-- Both memories hold the same bytes in the given range. -/
def Agree (first second : Memory) (address count : Nat) : Prop :=
  ∀ at', address ≤ at' → at' < address + count → second at' = first at'

theorem Agree.refl (memory : Memory) (address count : Nat) : Agree memory memory address count :=
  fun _ _ _ => rfl

theorem Agree.trans {first second third : Memory} {address count : Nat}
    (left : Agree first second address count) (right : Agree second third address count) :
    Agree first third address count :=
  fun at' above below => (right at' above below).trans (left at' above below)

theorem Agree.symm {first second : Memory} {address count : Nat} (same : Agree first second address count) :
    Agree second first address count :=
  fun at' above below => (same at' above below).symm

theorem littleEndian_congr {first second : Nat → UInt8} {count : Nat}
    (same : ∀ index, index < count → first index = second index) :
    littleEndian first count = littleEndian second count := by
  induction count generalizing first second with
  | zero => rfl
  | succ count ih =>
    rw [littleEndian, littleEndian, same 0 (by omega), ih (fun index inside => same (index + 1) (by omega))]

theorem littleEndian_lt (bytes : Nat → UInt8) (count : Nat) : littleEndian bytes count < 256 ^ count := by
  induction count generalizing bytes with
  | zero => simp [littleEndian]
  | succ count ih =>
    have first := (bytes 0).toNat_lt
    have rest := ih fun index => bytes (index + 1)
    rw [littleEndian, Nat.pow_succ']
    omega

/-- The bytes of a number spell it back, up to the width kept. -/
theorem littleEndian_digits (value count : Nat) :
    littleEndian (fun index => .ofNat (value / 256 ^ index)) count = value % 256 ^ count := by
  induction count generalizing value with
  | zero => simp [littleEndian, Nat.mod_one]
  | succ count ih =>
    have shifted : (fun index : Nat => UInt8.ofNat (value / 256 ^ (index + 1))) =
        fun index => UInt8.ofNat (value / 256 / 256 ^ index) := by
      funext index
      rw [Nat.pow_succ', Nat.div_div_eq_div_mul]
    rw [littleEndian, shifted, ih, Nat.pow_succ', Nat.mod_mul]
    simp

theorem read64_write64 (memory : Memory) (address : Nat) (value : UInt64) :
    read64 (write64 memory address value) address = value := by
  have digits : littleEndian (fun index => write64 memory address value (address + index)) 8 =
      littleEndian (fun index => .ofNat (value.toNat / 256 ^ index)) 8 := by
    apply littleEndian_congr
    intro index inside
    simp [write64, inside]
  rw [read64, digits, littleEndian_digits, show (256 : Nat) ^ 8 = 2 ^ 64 from rfl, UInt64.ofNat_mod_size,
    UInt64.ofNat_toNat]

theorem read64_congr {first second : Memory} {address : Nat} (same : Agree first second address 8) :
    read64 second address = read64 first address := by
  unfold read64
  congr 1
  apply littleEndian_congr
  intro index inside
  exact same (address + index) (by omega) (by omega)

theorem write64_agree (memory : Memory) {address : Nat} (value : UInt64) {other count : Nat}
    (apart : other + count ≤ address ∨ address + 8 ≤ other) :
    Agree memory (write64 memory address value) other count := by
  intro at' above below
  have outside : ¬ (address ≤ at' ∧ at' < address + 8) := by omega
  simp [write64, outside]

theorem zero_agree (memory : Memory) {address length other count : Nat}
    (apart : other + count ≤ address ∨ address + length ≤ other) :
    Agree memory (zero memory address length) other count := by
  intro at' above below
  have outside : ¬ (address ≤ at' ∧ at' < address + length) := by omega
  simp [zero, outside]

theorem writeBytes_agree (memory : Memory) {address : Nat} (bytes : List UInt8) {other count : Nat}
    (apart : other + count ≤ address ∨ address + bytes.length ≤ other) :
    Agree memory (writeBytes memory address bytes) other count := by
  intro at' above below
  have outside : ¬ (address ≤ at' ∧ at' < address + bytes.length) := by omega
  simp [writeBytes, outside]

theorem read64_zero (memory : Memory) {address length word : Nat}
    (inside : address ≤ word ∧ word + 8 ≤ address + length) : read64 (zero memory address length) word = 0 := by
  have zeros : littleEndian (fun index => zero memory address length (word + index)) 8 =
      littleEndian (fun index => .ofNat (0 / 256 ^ index)) 8 := by
    apply littleEndian_congr
    intro index small
    have bounds : address ≤ word + index ∧ word + index < address + length := by omega
    simp [zero, bounds]
  rw [read64, zeros, littleEndian_digits]
  rfl

/-- Copying a block by value reproduces every byte of it. -/
theorem writeBytes_readBytes (memory source : Memory) (address origin count index : Nat) (inside : index < count) :
    writeBytes memory address (readBytes source origin count) (address + index) = source (origin + index) := by
  have bounds : address ≤ address + index ∧ address + index < address + (readBytes source origin count).length := by
    simp [readBytes]; omega
  simp [writeBytes, bounds, readBytes, inside]

end Memory
end Kernai.Foundation
