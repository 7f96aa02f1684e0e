import Kernai.Sv39
import Mathlib.Data.Nat.Bitwise
import Mathlib.Tactic.IntervalCases

/-! Page-table entries: the flag bits and the frame address of what `leaf` and
`nonleaf` build, and the walk indices of an address. -/

namespace Kernai.Mm

theorem and_mod_flags (n : Nat) {mask : Nat} (small : mask < 1024) : n % 1024 &&& mask = n &&& mask := by
  apply Nat.eq_of_testBit_eq
  intro i
  rw [Nat.testBit_and, Nat.testBit_and, show (1024 : Nat) = 2 ^ 10 from rfl, Nat.testBit_mod_two_pow]
  by_cases low : i < 10
  · simp [low]
  · have beyond : mask.testBit i = false := by
      apply Nat.testBit_lt_two_pow
      calc mask < 2 ^ 10 := small
        _ ≤ 2 ^ i := Nat.pow_le_pow_right (by decide) (by omega)
    simp [beyond]

/-- A frame address and ten flag bits, as one entry. -/
def encode (pa flags : Nat) : Nat := (pa >>> 12) <<< 10 ||| flags

theorem encode_eq (pa : Nat) {flags : Nat} (small : flags < 1024) : encode pa flags = pa / 4096 * 1024 + flags := by
  rw [encode, ← Nat.shiftLeft_add_eq_or_of_lt (by simpa using small), Nat.shiftRight_eq_div_pow,
    Nat.shiftLeft_eq]

theorem encode_flags (pa : Nat) {flags mask : Nat} (small : flags < 1024) (inside : mask < 1024) :
    encode pa flags &&& mask = flags &&& mask := by
  rw [← and_mod_flags _ inside, encode_eq pa small]
  congr 1
  omega

theorem ptePa_eq (pte : Nat) : ptePa pte = pte / 1024 % 2 ^ 44 * 4096 := by
  rw [ptePa, Nat.shiftRight_eq_div_pow, Nat.shiftLeft_eq, show 0xfffffffffff = 2 ^ 44 - 1 from rfl,
    Nat.and_two_pow_sub_one_eq_mod]

theorem ptePa_encode {pa flags : Nat} (small : flags < 1024) (aligned : pa % 4096 = 0) (inside : pa < 2 ^ 56) :
    ptePa (encode pa flags) = pa := by
  rw [ptePa_eq, encode_eq pa small]
  omega

theorem encode_lt {pa flags : Nat} (small : flags < 1024) (inside : pa < 2 ^ 56) : encode pa flags < 2 ^ 64 := by
  rw [encode_eq pa small]
  omega

theorem nonleaf_eq_encode (pa : Nat) : nonleaf pa = encode pa 1 := rfl

theorem leaf_eq_encode (pa perms : Nat) : leaf pa perms = encode pa (perms ||| 193) := by
  simp only [leaf, encode, V, A, D, Nat.or_assoc]
  rfl

theorem leaf_flags_lt {perms : Nat} (small : perms < 64) : perms ||| 193 < 1024 :=
  Nat.or_lt_two_pow (n := 10) (by omega) (by decide)

/-- Flag tests on a leaf other than V, A and D look at the permissions given. -/
theorem leaf_and (pa : Nat) {perms mask : Nat} (small : perms < 64) (inside : mask < 64) (apart : mask % 2 = 0) :
    leaf pa perms &&& mask = perms &&& mask := by
  rw [leaf_eq_encode, encode_flags pa (leaf_flags_lt small) (by omega), Nat.and_or_distrib_right]
  have none : 193 &&& mask = 0 := by
    interval_cases mask <;> first | rfl | omega
  rw [none, Nat.or_zero]

theorem leaf_valid (pa : Nat) {perms : Nat} (small : perms < 64) : leaf pa perms &&& V ≠ 0 := by
  rw [leaf_eq_encode, encode_flags pa (leaf_flags_lt small) (by decide), Nat.and_or_distrib_right]
  intro zero
  have := Nat.right_le_or (n := perms &&& V) (m := 193 &&& V)
  rw [zero] at this
  simp [V] at this

theorem ptePa_leaf {pa perms : Nat} (small : perms < 64) (aligned : pa % 4096 = 0) (inside : pa < 2 ^ 56) :
    ptePa (leaf pa perms) = pa := by
  rw [leaf_eq_encode]
  exact ptePa_encode (leaf_flags_lt small) aligned inside

theorem nonleaf_and (pa : Nat) {mask : Nat} (inside : mask < 1024) : nonleaf pa &&& mask = 1 &&& mask := by
  rw [nonleaf_eq_encode]
  exact encode_flags pa (by decide) inside

theorem ptePa_nonleaf {pa : Nat} (aligned : pa % 4096 = 0) (inside : pa < 2 ^ 56) : ptePa (nonleaf pa) = pa := by
  rw [nonleaf_eq_encode]
  exact ptePa_encode (by decide) aligned inside

theorem vpn_eq (va level : Nat) : vpn va level = va / 2 ^ (12 + 9 * level) % 512 := by
  rw [vpn, Nat.shiftRight_eq_div_pow, show 0x1ff = 2 ^ 9 - 1 from rfl, Nat.and_two_pow_sub_one_eq_mod]

theorem vpn_lt (va level : Nat) : vpn va level < 512 := by
  rw [vpn_eq]
  exact Nat.mod_lt _ (by decide)

/-- The page number that a three-level walk can tell apart. -/
def pageNumber (va : Nat) : Nat := va / 4096 % 2 ^ 27

theorem pageNumber_lt (va : Nat) : pageNumber va < 2 ^ 27 := Nat.mod_lt _ (by decide)

theorem vpn_zero (va : Nat) : vpn va 0 = pageNumber va % 512 := by
  rw [vpn_eq, pageNumber]
  omega

theorem vpn_one (va : Nat) : vpn va 1 = pageNumber va / 512 % 512 := by
  rw [vpn_eq, pageNumber]
  omega

theorem vpn_two (va : Nat) : vpn va 2 = pageNumber va / 512 / 512 := by
  rw [vpn_eq, pageNumber]
  omega

end Kernai.Mm
