import Kernai.FramesPacked
import Kernai.Proofs.Frames

/-! The packed allocator is the bitmap allocator, and over every history of
requests both account for exactly the frames handed out. -/

namespace Kernai.Frames

/-- `handed` are the frames in use, and the count is theirs. -/
structure Accounts (handed : Finset Nat) (phys : Phys) : Prop where
  live : ∀ f, Live phys f ↔ f ∈ handed
  counted : phys.allocated = handed.card

theorem Accounts.alloc {handed : Finset Nat} {before after : Phys} {f : Nat} (accounts : Accounts handed before)
    (allocated : Allocated before f after) : Accounts (insert f handed) after := by
  have fresh : f ∉ handed := fun member => allocated.fresh ((accounts.live f).mpr member)
  refine ⟨fun g => ?_, ?_⟩
  · rw [allocated.live, accounts.live, Finset.mem_insert, or_comm]
  · rw [allocated.counted, accounts.counted, Finset.card_insert_of_notMem fresh]

theorem free_live {phys : Phys} {f : Nat} (live : Live phys f) : (free phys f).allocated = phys.allocated - 1 := by
  obtain ⟨⟨above, below, aligned⟩, used⟩ := live
  unfold free
  rw [if_neg (by omega), if_pos used]

/-- An address that is not a live frame is ignored. -/
theorem free_other {phys : Phys} {f : Nat} (other : ¬ Live phys f) : free phys f = phys := by
  unfold free
  dsimp only
  split
  · rfl
  · next inside =>
    rw [if_neg]
    intro used
    refine other ⟨?_, used⟩
    simp only [IsFrame]
    omega

theorem Accounts.free {handed : Finset Nat} {phys : Phys} (accounts : Accounts handed phys) (f : Nat) :
    Accounts (handed.erase f) (free phys f) := by
  refine ⟨fun g => ?_, ?_⟩
  · rw [live_free, accounts.live, Finset.mem_erase, and_comm]
  · by_cases member : f ∈ handed
    · rw [free_live ((accounts.live f).mpr member), accounts.counted, Finset.card_erase_of_mem member]
    · rw [free_other (fun live => member ((accounts.live f).mp live)), accounts.counted, Finset.erase_eq_of_notMem member]

theorem frames_card_le {handed : Finset Nat} (frames : ∀ f ∈ handed, IsFrame f) : handed.card ≤ poolFrames := by
  have inside : handed ⊆ (Finset.range poolFrames).image (fun index => Hal.poolBase + index * frameSize) := by
    intro f member
    have bounds := (frames f member).bounds
    refine Finset.mem_image.mpr ⟨(f - Hal.poolBase) / frameSize, Finset.mem_range.mpr ?_, ?_⟩
    · simp only [poolFrames, Hal.poolEnd, Hal.poolBase, frameSize]
      omega
    · simp only [Hal.poolBase, frameSize]
      omega
  exact (Finset.card_le_card inside).trans (Finset.card_image_le.trans (Finset.card_range _).le)

theorem Accounts.frames {handed : Finset Nat} {phys : Phys} (accounts : Accounts handed phys) :
    ∀ f ∈ handed, IsFrame f :=
  fun f member => ((accounts.live f).mpr member).isFrame

theorem Accounts.bounded {handed : Finset Nat} {phys : Phys} (accounts : Accounts handed phys) :
    phys.allocated ≤ poolFrames := by
  rw [accounts.counted]
  exact frames_card_le accounts.frames

namespace Packed
open Hal Foundation

private theorem mask_toBitVec (frame : Nat) : (mask frame).toBitVec = BitVec.twoPow 64 (frame % 64) := by
  unfold mask
  rw [UInt64.toBitVec_shiftLeft]
  apply BitVec.eq_of_toNat_eq
  simp [BitVec.twoPow]

/-- Frame `n` is bit `n % 64` of word `n / 64`. -/
theorem test_eq (bitmap : Nat → UInt64) (frame : Nat) :
    test bitmap frame = (bitmap (frame / 64)).toBitVec.getLsbD (frame % 64) := by
  have zero : ∀ word : UInt64, (word != 0) = (word.toBitVec != 0#64) := by
    intro word
    rw [Bool.eq_iff_iff, bne_iff_ne, bne_iff_ne, ne_eq, ne_eq, ← UInt64.toBitVec_inj]
    rfl
  have nonzero : BitVec.twoPow 64 (frame % 64) ≠ 0#64 := by
    intro zero
    have selected := congrArg (fun bits => bits.getLsbD (frame % 64)) zero
    simp [Nat.mod_lt] at selected
  unfold test
  rw [zero, UInt64.toBitVec_and, mask_toBitVec, BitVec.and_twoPow]
  cases (bitmap (frame / 64)).toBitVec.getLsbD (frame % 64) with
  | true => simpa using nonzero
  | false => rfl

/-- Within a word, the bit tells the frame. -/
private theorem bit_iff {frame other : Nat} (word : other / 64 = frame / 64) :
    frame % 64 = other % 64 ↔ other = frame := by omega

theorem test_set (bitmap : Nat → UInt64) (frame : Nat) :
    test (set bitmap frame) = fun other => if other = frame then true else test bitmap other := by
  funext other
  rw [test_eq, test_eq]
  unfold set
  by_cases word : other / 64 = frame / 64
  · rw [if_pos word, UInt64.toBitVec_or, mask_toBitVec, BitVec.getLsbD_or, BitVec.getLsbD_twoPow]
    by_cases same : other = frame
    · simp [same, Nat.mod_lt]
    · simp [same, (bit_iff word).not.mpr same]
  · rw [if_neg word, if_neg (by rintro rfl; exact word rfl)]

theorem test_clear (bitmap : Nat → UInt64) (frame : Nat) :
    test (clear bitmap frame) = fun other => if other = frame then false else test bitmap other := by
  funext other
  rw [test_eq, test_eq]
  unfold clear
  by_cases word : other / 64 = frame / 64
  · rw [if_pos word, UInt64.toBitVec_and, UInt64.toBitVec_not, mask_toBitVec, BitVec.getLsbD_and, BitVec.getLsbD_not,
      BitVec.getLsbD_twoPow]
    by_cases same : other = frame
    · simp [same, Nat.mod_lt]
    · simp [same, (bit_iff word).not.mpr same, Nat.mod_lt]
  · rw [if_neg word, if_neg (by rintro rfl; exact word rfl)]

theorem search_eq (bitmap : Nat → UInt64) (start remaining i : Nat) :
    search bitmap start remaining i = Frames.search (test bitmap) start remaining i := by
  induction remaining generalizing i with
  | zero => rfl
  | succ remaining ih => rw [search, Frames.search, ih]

/-- The pool with a bit per frame. -/
def Pool.phys (pool : Pool) : Phys :=
  { mem := pool.mem, bitmap := test pool.bitmap, nextHint := pool.nextHint.toNat, allocated := pool.allocated.toNat
    satp := 0, destroyed := [] }

/-- As long as the count is a number of frames, `alloc` on words is `alloc` on bits. -/
theorem alloc_refines {pool : Pool} (counted : pool.allocated.toNat ≤ poolFrames) :
    Frames.alloc pool.phys = ((alloc pool).1, (alloc pool).2.phys) := by
  have grown : (pool.allocated + 1).toNat = pool.allocated.toNat + 1 := by
    simp only [poolFrames, poolEnd, poolBase, frameSize] at counted
    rw [UInt64.toNat_add]
    simp only [UInt64.reduceToNat]
    omega
  unfold Frames.alloc alloc
  rw [search_eq]
  cases found : Frames.search (test pool.bitmap) (pool.nextHint.toNat % poolFrames) poolFrames 0 with
  | none => simp only [Pool.phys, found]
  | some frame =>
    have hint : (UInt64.ofNat (frame + 1)).toNat = frame + 1 := by
      have inside := (search_found found).1
      simp only [poolFrames, poolEnd, poolBase, frameSize] at inside
      rw [UInt64.toNat_ofNat']
      omega
    simp only [Pool.phys, found, test_set, grown, hint, physZero]
    split <;> rfl

theorem free_refines {pool : Pool} {pa : Nat} (counted : Live pool.phys pa → 0 < pool.allocated.toNat) :
    Frames.free pool.phys pa = (free pool pa).phys := by
  unfold Frames.free free
  dsimp only
  split
  · rfl
  · next inside =>
    by_cases used : test pool.bitmap ((pa - poolBase) / frameSize) = true
    · have frame : IsFrame pa := by
        simp only [IsFrame]
        omega
      have positive := counted ⟨frame, used⟩
      have shrunk : (pool.allocated - 1).toNat = pool.allocated.toNat - 1 := by
        have small := pool.allocated.toNat_lt
        rw [UInt64.toNat_sub]
        simp only [UInt64.reduceToNat]
        omega
      simp only [Pool.phys, used, test_clear, shrunk, if_true]
    · simp only [Pool.phys, used, if_false, Bool.false_eq_true]

/-- What the statics say at any moment of a history in which `handed` are the
frames handed out and not since freed. -/
structure Sound (handed : Finset Nat) (pool : Pool) : Prop where
  frames : ∀ pa ∈ handed, poolBase ≤ pa ∧ pa < poolEnd ∧ (pa - poolBase) % frameSize = 0
  bits : ∀ frame < poolFrames, test pool.bitmap frame = true ↔ poolBase + frame * frameSize ∈ handed
  counted : pool.allocated.toNat = handed.card
  granted : ∀ pa after, alloc pool = (some pa, after) →
    (poolBase ≤ pa ∧ pa < poolEnd ∧ (pa - poolBase) % frameSize = 0) ∧ pa ∉ handed ∧
      (∀ a, pa ≤ a → a < pa + frameSize → after.mem a = 0) ∧
      ∀ a, ¬ (pa ≤ a ∧ a < pa + frameSize) → after.mem a = pool.mem a
  refused : (alloc pool).1 = none ↔ ∀ frame < poolFrames, poolBase + frame * frameSize ∈ handed

/-- The bitmap layer's account is the statics' own. -/
theorem sound_of_accounts {handed : Finset Nat} {pool : Pool} (accounts : Accounts handed pool.phys) :
    Sound handed pool := by
  have refines := alloc_refines accounts.bounded
  have full : (∀ f, IsFrame f → Live pool.phys f) ↔ ∀ frame < poolFrames, poolBase + frame * frameSize ∈ handed := by
    constructor
    · intro full frame inside
      exact (accounts.live _).mp (full _ (frame_of_index inside).1)
    · intro full f frame
      have := frame.bounds
      have member := full ((f - poolBase) / frameSize) (by
        simp only [poolFrames, poolEnd, poolBase, frameSize]
        omega)
      rw [show poolBase + (f - poolBase) / frameSize * frameSize = f by
        simp only [poolBase, frameSize]
        omega] at member
      exact (accounts.live f).mpr member
  refine ⟨accounts.frames, ?_, accounts.counted, ?_, ?_⟩
  · intro frame inside
    obtain ⟨isFrame, back⟩ := frame_of_index inside
    rw [← accounts.live, Live, back]
    exact ⟨fun used => ⟨isFrame, used⟩, fun live => live.2⟩
  · intro pa after given
    rw [given] at refines
    have allocated := alloc_some refines
    exact ⟨allocated.frame, fun member => allocated.fresh ((accounts.live pa).mpr member), allocated.zeroed, allocated.kept⟩
  · rw [← full, ← alloc_none_iff, refines]

theorem serve_accounts {handed : Finset Nat} {pool : Pool} (accounts : Accounts handed pool.phys) (request : Request) :
    Accounts (serve handed pool request).1 (serve handed pool request).2.phys := by
  cases request with
  | alloc =>
    have refines := alloc_refines accounts.bounded
    rw [serve]
    cases given : alloc pool with
    | mk result after =>
      rw [given] at refines
      cases result with
      | none =>
        rw [← alloc_none refines] at accounts
        exact accounts
      | some pa => exact accounts.alloc (alloc_some refines)
  | free pa =>
    have positive : Live pool.phys pa → 0 < pool.allocated.toNat := by
      intro live
      rw [show pool.allocated.toNat = handed.card from accounts.counted]
      exact Finset.card_pos.mpr ⟨pa, (accounts.live pa).mp live⟩
    have freed := accounts.free pa
    rw [free_refines positive] at freed
    exact freed

theorem serveAll_accounts {handed : Finset Nat} {pool : Pool} (accounts : Accounts handed pool.phys)
    (requests : List Request) :
    Accounts (serveAll handed pool requests).1 (serveAll handed pool requests).2.phys := by
  induction requests generalizing handed pool with
  | nil => exact accounts
  | cons request rest ih => exact ih (serve_accounts accounts request)

theorem powerOn_accounts (mem : Memory) (nextHint : UInt64) : Accounts ∅ (powerOn mem nextHint).phys := by
  refine ⟨fun f => ?_, rfl⟩
  have unused : ¬ Live (powerOn mem nextHint).phys f := by
    rintro ⟨-, used⟩
    have bit : test (fun _ => 0) ((f - poolBase) / frameSize) = false := by
      rw [test_eq]
      exact BitVec.getLsbD_zero
    exact absurd (bit.symm.trans used) (by decide)
  simp [unused]

/-- Over every history of requests, with any hint, the bitmap and the count are
exactly the frames handed out and not since freed; the next allocation is a zeroed
frame that is not one of them, and fails only if there is none. -/
theorem allocator_sound (mem : Memory) (nextHint : UInt64) (requests : List Request) :
    Sound (serveAll ∅ (powerOn mem nextHint) requests).1 (serveAll ∅ (powerOn mem nextHint) requests).2 :=
  sound_of_accounts (serveAll_accounts (powerOn_accounts mem nextHint) requests)

end Packed
end Kernai.Frames
