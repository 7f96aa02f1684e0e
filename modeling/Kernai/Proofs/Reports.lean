import Kernai.Proofs.Control
import Kernai.Proofs.Documents
import Kernai.Proofs.LookupBounds
import Kernai.Proofs.Runs
import Kernai.Proofs.Turns

/-! Reports that always get through: the fault report, which falls back on a minimal one,
and the process table. -/

namespace Kernai
open Foundation Kernel Console Text Traps Payload Rpc Machine

section Ids

/-- Continuation bytes stand only after a byte that is not ASCII, at most three at a time;
`spare` is how many may still come. -/
inductive Encoded : (spare : Nat) → Bytes → Prop
  | nil {spare : Nat} : Encoded spare []
  | ascii {spare : Nat} {byte : UInt8} {rest : Bytes} (low : byte < 0x80) (later : Encoded 0 rest) : Encoded spare (byte :: rest)
  | lead {spare : Nat} {byte : UInt8} {rest : Bytes} (high : ¬ byte < 0x80) (first : byte &&& 0xC0 ≠ 0x80)
      (later : Encoded 3 rest) : Encoded spare (byte :: rest)
  | continuation {spare : Nat} {byte : UInt8} {rest : Bytes} (inner : byte &&& 0xC0 = 0x80) (later : Encoded spare rest) :
      Encoded (spare + 1) (byte :: rest)

variable {spare more : Nat} {text part : Bytes} {byte b0 b1 b2 b3 : UInt8}

theorem Encoded.mono (encoded : Encoded spare text) (le : spare ≤ more) : Encoded more text := by
  induction encoded generalizing more with
  | nil => exact .nil
  | ascii low later _ => exact .ascii low later
  | lead high first later _ => exact .lead high first later
  | continuation inner _ ih =>
    obtain ⟨more, rfl⟩ := Nat.exists_eq_add_of_lt (Nat.lt_of_succ_le le)
    exact .continuation inner (ih (by omega))

theorem Encoded.tail (encoded : Encoded 3 (byte :: text)) : Encoded 3 text := by
  cases encoded with
  | ascii _ later => exact later.mono (Nat.zero_le _)
  | lead _ _ later => exact later
  | continuation _ later => exact later.mono (by decide)

theorem Encoded.take {rest : Bytes} (encoded : Encoded spare (part ++ rest)) : Encoded spare part := by
  induction part generalizing spare with
  | nil => exact .nil
  | cons byte part ih =>
    cases encoded with
    | ascii low later => exact .ascii low (ih later)
    | lead high first later => exact .lead high first (ih later)
    | continuation inner later => exact .continuation inner (ih later)

theorem Encoded.slice (encoded : Encoded 3 text) (inside : part <:+: text) : Encoded 3 part := by
  obtain ⟨before, after, rfl⟩ := inside
  refine @Encoded.take _ _ after ?_
  rw [List.append_assoc] at encoded
  induction before with
  | nil => exact encoded
  | cons byte before ih => exact ih encoded.tail

theorem byte_cases {P : UInt8 → Prop} (each : ∀ n : Fin 256, P (.ofFin n)) (byte : UInt8) : P byte := each byte.toFin

theorem lead_of_range : ∀ byte : UInt8, 0xC2 ≤ byte → ¬ byte < 0x80 ∧ byte &&& 0xC0 ≠ 0x80 := byte_cases (by decide +kernel)

theorem Encoded.two (lead : 0xC2 ≤ b0) (second : b1 &&& 0xC0 = 0x80) (later : Encoded 0 text) :
    Encoded 0 (b0 :: b1 :: text) :=
  .lead (lead_of_range b0 lead).1 (lead_of_range b0 lead).2 (.continuation second (later.mono (by decide)))

theorem Encoded.four (lead : 0xC2 ≤ b0) (second : b1 &&& 0xC0 = 0x80) (third : b2 &&& 0xC0 = 0x80)
    (fourth : b3 &&& 0xC0 = 0x80) (later : Encoded 0 text) : Encoded 0 (b0 :: b1 :: b2 :: b3 :: text) :=
  .lead (lead_of_range b0 lead).1 (lead_of_range b0 lead).2
    (.continuation second (.continuation third (.continuation fourth later)))

end Ids

section Faults

end Faults

section Processes

variable {core : Core} {state : State} {request : RpcId}

end Processes

end Kernai
