import Mathlib.Data.Nat.Digits.Defs
import Kernai.State

/-! What fits a frame, and what an emission then puts on the wire. -/

namespace Kernai
open Console

/-- Writes that fit together all go through. -/
theorem FrameBuf.write_fits {frame : FrameBuf} {pieces : List Bytes}
    (fits : frame.buf.length + pieces.flatten.length ≤ capacity) :
    frame.write pieces = { frame with buf := frame.buf ++ pieces.flatten } := by
  induction pieces generalizing frame with
  | nil => simp [FrameBuf.write]
  | cons piece rest ih =>
    simp only [List.flatten_cons, List.length_append] at fits
    have wrote : frame.writeStr piece = (true, { frame with buf := frame.buf ++ piece }) := by
      unfold FrameBuf.writeStr
      exact if_neg (by omega)
    have onwards : FrameBuf.write { frame with buf := frame.buf ++ piece } rest = _ := ih (by
      simp only [List.length_append]
      omega)
    change FrameBuf.write (frame.writeStr piece).2 rest = _
    rw [wrote, onwards]
    simp [List.append_assoc]

/-- A poisoned frame stays poisoned. -/
theorem FrameBuf.write_poisoned {frame : FrameBuf} (poisoned : frame.overflow = true) (pieces : List Bytes) :
    (frame.write pieces).overflow = true := by
  unfold FrameBuf.write
  induction pieces generalizing frame with
  | nil => exact poisoned
  | cons piece rest ih =>
    rw [List.foldl_cons]
    refine ih ?_
    unfold FrameBuf.writeStr
    split
    · rfl
    · exact poisoned

/-- Writes that do not fit together poison the frame. -/
theorem FrameBuf.write_overflow {frame : FrameBuf} {pieces : List Bytes} (within : frame.buf.length ≤ capacity)
    (exceeds : capacity < frame.buf.length + pieces.flatten.length) : (frame.write pieces).overflow = true := by
  induction pieces generalizing frame with
  | nil =>
    simp only [List.flatten_nil, List.length_nil] at exceeds
    omega
  | cons piece rest ih =>
    simp only [List.flatten_cons, List.length_append] at exceeds
    change (FrameBuf.write (frame.writeStr piece).2 rest).overflow = true
    by_cases small : frame.buf.length + piece.length > capacity
    · refine write_poisoned ?_ rest
      simp [FrameBuf.writeStr, small]
    · have wrote : frame.writeStr piece = (true, { frame with buf := frame.buf ++ piece }) := if_neg small
      rw [wrote]
      refine ih ?_ ?_ <;> simp only [List.length_append] <;> omega

/-- The whole text of an event, as one byte string. -/
def Event.text (event : Event) (id : Nat) : Bytes := (event.pieces id).flatten

theorem Event.overflow_iff (event : Event) (id : Nat) :
    (event.frameBuf id).overflow = true ↔ capacity < (event.text id).length := by
  unfold Event.frameBuf Event.text
  have none : (FrameBuf.new).buf.length = 0 := rfl
  constructor
  · intro exceeds
    by_contra fits
    rw [FrameBuf.write_fits (by omega)] at exceeds
    cases exceeds
  · intro exceeds
    exact FrameBuf.write_overflow (by omega) (by omega)

theorem Event.frameBuf_fits {event : Event} {id : Nat} (fits : (event.text id).length ≤ capacity) :
    event.frameBuf id = { buf := event.text id, overflow := false } := by
  have none : (FrameBuf.new).buf.length = 0 := rfl
  exact FrameBuf.write_fits (by rw [none, Nat.zero_add]; exact fits)

theorem Event.fits_iff (event : Event) (id : Nat) :
    (event.frameBuf id).overflow = false ↔ (event.text id).length ≤ capacity := by
  rw [← Bool.not_eq_true, event.overflow_iff, Nat.not_lt]

theorem idOf_lt (serial : Nat) : idOf serial < 2 ^ 64 := Nat.mod_lt _ (by decide)

private theorem ascii_length {chars : List Char} (ascii : ∀ c ∈ chars, c.utf8Size = 1) :
    (chars.flatMap String.utf8EncodeChar).length = chars.length := by
  induction chars with
  | nil => rfl
  | cons c rest ih =>
    rw [List.flatMap_cons, List.length_append, String.length_utf8EncodeChar, ascii c List.mem_cons_self,
      ih fun d member => ascii d (List.mem_cons_of_mem c member), List.length_cons, Nat.add_comm]

theorem digitChar_size : ∀ digit, digit < 16 → (Nat.digitChar digit).utf8Size = 1 := by decide

theorem mem_toDigits {base n : Nat} (valid : 1 < base) {c : Char} (member : c ∈ Nat.toDigits base n) :
    ∃ digit, digit < base ∧ c = Nat.digitChar digit := by
  induction n using Nat.strongRecOn with
  | ind n ih =>
    by_cases small : n < base
    · rw [Nat.toDigits_of_lt_base small, List.mem_singleton] at member
      exact ⟨n, small, member⟩
    · rw [Nat.toDigits_of_base_le valid (by omega), List.mem_append, List.mem_singleton] at member
      rcases member with earlier | last
      · exact ih (n / base) (Nat.div_lt_self (by omega) valid) earlier
      · exact ⟨n % base, Nat.mod_lt _ (by omega), last⟩

theorem decimal_length {n width : Nat} (positive : 0 < width) (small : n < 10 ^ width) : (decimal n).length ≤ width := by
  unfold decimal
  rw [ascii_length fun c member => ?_]
  · exact Nat.toDigits_length 10 n width positive small
  · obtain ⟨digit, inside, rfl⟩ := mem_toDigits (by decide) member
    exact digitChar_size digit (by omega)

theorem hex_length {n width : Nat} (positive : 0 < width) (small : n < 16 ^ width) : (hex n).length ≤ width := by
  unfold hex
  rw [ascii_length fun c member => ?_]
  · exact Nat.toDigits_length 16 n width positive small
  · obtain ⟨digit, inside, rfl⟩ := mem_toDigits (by decide) member
    exact digitChar_size digit inside

/-- Any 64-bit number takes at most twenty digits. -/
theorem decimal_word {n : Nat} (small : n < 2 ^ 64) : (decimal n).length ≤ 20 :=
  decimal_length (by decide) (Nat.lt_of_lt_of_le small (by decide))

theorem hex_word {n : Nat} (small : n < 2 ^ 64) : (hex n).length ≤ 16 := hex_length (by decide) small

theorem capsJson_length (caps : Nat) : (Text.capsJson caps).flatten.length ≤ 25 := by
  unfold Text.capsJson
  simp only [List.filter_cons, List.filter_nil]
  split <;> split <;> split <;> decide

theorem bool_length (value : Bool) : (Text.bool value).length ≤ 5 := by cases value <;> decide

theorem optional_length {value : Option Nat} (small : ∀ n, value = some n → n < 2 ^ 64) :
    (Text.optional value).length ≤ 20 := by
  cases value with
  | none => decide
  | some n => exact decimal_word (small n rfl)

theorem pid_length (pid : Pid) : (decimal pid.val).length ≤ 2 := by
  refine decimal_length (by decide) ?_
  have := pid.isLt
  omega

theorem image_name_length : ∀ image : ImageId, (utf8 (images.get image).name).length ≤ 12 := by decide

/-- The error in place of a response too large always fits. -/
theorem rpcTooLarge_fits (serial : Nat) : (Event.rpcTooLarge.frameBuf (idOf serial)).overflow = false := by
  rw [Event.fits_iff]
  simp only [Event.text, Event.pieces, List.flatten_cons, List.flatten_nil, List.length_append, List.length_nil]
  have := decimal_word (idOf_lt serial)
  have literals : (utf8 "\x7b\"id\":").length +
      (utf8 (",\"type\":\"rpc\",\"rpc\":\x7b\"jsonrpc\":\"2.0\",\"id\":null,\"error\":\x7b\"code\":-32001," ++
        "\"message\":\"response too large\"\x7d\x7d\x7d")).length ≤ 200 := by decide
  have room : capacity = 2048 := rfl
  omega

/-- A start event always fits. -/
theorem start_fits (pid : Pid) {name : String} (short : (utf8 name).length ≤ 12) {entry : Nat} (small : entry < 2 ^ 64)
    (restored : Bool) {causedBy : Option Nat} (cause : ∀ n, causedBy = some n → n < 2 ^ 64) (caps serial : Nat) :
    ((Event.start pid name entry restored causedBy caps).frameBuf (idOf serial)).overflow = false := by
  rw [Event.fits_iff]
  simp only [Event.text, Event.pieces, List.cons_append, List.nil_append, List.flatten_cons, List.flatten_append,
    List.flatten_nil, List.length_append, List.length_nil]
  have := decimal_word (idOf_lt serial)
  have := pid_length pid
  have := hex_word small
  have := bool_length restored
  have := optional_length cause
  have := capsJson_length caps
  have literals : (utf8 "\x7b\"id\":").length + (utf8 ",\"type\":\"payload_start\",\"pid\":").length +
      (utf8 ",\"name\":\"").length + (utf8 "\",\"entry\":\"0x").length + (utf8 "\",\"restored\":").length +
      (utf8 ",\"caused_by\":").length + (utf8 ",\"caps\":").length + (utf8 "\x7d").length ≤ 200 := by decide
  have room : capacity = 2048 := rfl
  omega

end Kernai
