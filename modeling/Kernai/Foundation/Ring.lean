import Mathlib.Data.Nat.ModEq

/-! A circular buffer whose head and tail are counters that wrap only with their machine
word. The cell of a counter is its remainder by the size of the buffer, which divides the
word. -/

namespace Kernai.Foundation

variable {α : Type}

/-- The cells from `head` up to `tail` hold `queue`, oldest first. -/
structure Circular (size word : Nat) (cells : Nat → α) (head tail : Nat) (queue : List α) : Prop where
  fits : queue.length ≤ size
  bounded : head < word
  isTail : tail = (head + queue.length) % word
  stored : ∀ i (inside : i < queue.length), cells ((head + i) % size) = queue[i]

namespace Circular

variable {size word : Nat} {cells : Nat → α} {head tail : Nat} {queue : List α}

theorem empty (positive : 0 < word) : Circular size word cells 0 0 [] :=
  ⟨Nat.zero_le _, positive, (Nat.zero_mod word).symm, nofun⟩

/-- The distance from head to tail, as the machine computes it, is the number of items. -/
theorem unread (ring : Circular size word cells head tail queue) (roomy : size < word) :
    (tail + word - head) % word = queue.length := by
  have fits := ring.fits
  have bounded := ring.bounded
  have isTail := ring.isTail
  by_cases wraps : head + queue.length < word
  · rw [Nat.mod_eq_of_lt wraps] at isTail
    rw [show tail + word - head = queue.length + word by omega, Nat.add_mod_right, Nat.mod_eq_of_lt (by omega)]
  · rw [Nat.mod_eq_sub_mod (by omega), Nat.mod_eq_of_lt (by omega)] at isTail
    rw [show tail + word - head = queue.length by omega, Nat.mod_eq_of_lt (by omega)]

theorem head_eq_tail_iff (ring : Circular size word cells head tail queue) (roomy : size < word) :
    head = tail ↔ queue = [] := by
  have count := ring.unread roomy
  constructor
  · rintro rfl
    rw [Nat.add_sub_cancel_left, Nat.mod_self] at count
    exact List.length_eq_zero_iff.mp count.symm
  · rintro rfl
    rw [ring.isTail, List.length_nil, Nat.add_zero, Nat.mod_eq_of_lt ring.bounded]

theorem cell_ne {i j : Nat} (less : i < j) (near : j < size) : (head + i) % size ≠ (head + j) % size := by
  intro same
  have zero : i % size = j % size := Nat.ModEq.add_left_cancel' head same
  rw [Nat.mod_eq_of_lt (less.trans near), Nat.mod_eq_of_lt near] at zero
  omega

theorem push (ring : Circular size word cells head tail queue) (divides : size ∣ word) (room : queue.length < size) (item : α) :
    Circular size word (fun i => if i = tail % size then item else cells i) head ((tail + 1) % word) (queue ++ [item]) := by
  have isCell : tail % size = (head + queue.length) % size := by rw [ring.isTail, Nat.mod_mod_of_dvd _ divides]
  refine ⟨by rwa [List.length_append], ring.bounded, by simp [ring.isTail, Nat.add_assoc], fun i inside => ?_⟩
  rw [isCell]
  rcases Nat.lt_or_ge i queue.length with old | new
  · rw [if_neg (cell_ne old room), ring.stored i old, List.getElem_append_left old]
  · obtain rfl : i = queue.length := by
      rw [List.length_append, List.length_singleton] at inside
      omega
    simp

theorem pop {item : α} (ring : Circular size word cells head tail (item :: queue)) (divides : size ∣ word) :
    cells (head % size) = item ∧ Circular size word cells ((head + 1) % word) tail queue := by
  have fits := ring.fits
  rw [List.length_cons] at fits
  refine ⟨ring.stored 0 (Nat.succ_pos _), by omega, Nat.mod_lt _ (Nat.zero_lt_of_lt ring.bounded), ?_, fun i inside => ?_⟩
  · rw [ring.isTail, List.length_cons, Nat.mod_add_mod, Nat.add_right_comm, Nat.add_assoc]
  · have next := ring.stored (i + 1) (Nat.succ_lt_succ inside)
    rwa [Nat.add_mod, Nat.mod_mod_of_dvd _ divides, ← Nat.add_mod, Nat.add_assoc, Nat.add_comm 1 i]

end Circular
end Kernai.Foundation
