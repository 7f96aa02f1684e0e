import Kernai.Doom
import Kernai.Proofs.Display

/-! Keyframes from the game's screen to the host's copy of it: cut into chunks by the game,
encoded by the kernel, decoded and joined by the host. -/

namespace Kernai
open Foundation Console Text

section Encoding
open Base64

theorem packed (a : Nat) {b c : Nat} (first : b < 256) (second : c < 256) :
    a <<< 16 ||| b <<< 8 ||| c = a * 65536 + b * 256 + c := by
  have low : b <<< 8 ||| c = b * 256 + c := by
    rw [← Nat.shiftLeft_add_eq_or_of_lt (by exact second), Nat.shiftLeft_eq]
  rw [Nat.or_assoc, low, ← Nat.shiftLeft_add_eq_or_of_lt (by omega), Nat.shiftLeft_eq]
  omega

end Encoding

section Chunks
open Rfc8259

end Chunks

section Cutting
open Doom

/-- Chunks numbered from `seq` on that make up these bytes, all but the last of them full. -/
structure Cuts (seq : Nat) (bytes : Bytes) (calls : List FrameCall) : Prop where
  joined : (calls.map (·.data)).flatten = bytes
  sizes : ∀ call ∈ calls, 0 < call.data.length ∧ call.data.length ≤ 1440
  numbers : calls.map (·.seq) = (List.range calls.length).map fun i => (seq + i) % 2 ^ 32
  few : 1440 * calls.length ≤ bytes.length + 1439

theorem Cuts.last {seq : Nat} {chunk : Bytes} (word : seq < 2 ^ 32) (some : 0 < chunk.length) (room : chunk.length < 1440) :
    Cuts seq chunk [⟨chunk, seq⟩] where
  joined := List.append_nil chunk
  sizes call member := by
    obtain rfl := List.mem_singleton.mp member
    exact ⟨some, Nat.le_of_lt room⟩
  numbers := congrArg (fun n => [n]) (Nat.mod_eq_of_lt word).symm
  few := by
    rw [List.length_singleton]
    omega

theorem Cuts.cons {seq : Nat} {chunk bytes : Bytes} {calls : List FrameCall} (word : seq < 2 ^ 32)
    (full : chunk.length = 1440) (rest : Cuts ((seq + 1) % 2 ^ 32) bytes calls) :
    Cuts seq (chunk ++ bytes) (⟨chunk, seq⟩ :: calls) where
  joined := congrArg (chunk ++ ·) rest.joined
  sizes call member := by
    rcases List.mem_cons.mp member with rfl | later
    · rw [full]
      decide
    · exact rest.sizes call later
  numbers := by
    rw [List.map_cons, rest.numbers, List.length_cons, List.range_succ_eq_map, List.map_cons, List.map_map]
    congr 1
    · exact (Nat.mod_eq_of_lt word).symm
    · refine List.map_congr_left fun i _ => ?_
      simp only [Function.comp_apply, Nat.succ_eq_add_one, Nat.mod_add_mod, Nat.add_assoc, Nat.add_comm 1 i]
  few := by
    have := rest.few
    rw [List.length_cons, List.length_append, full]
    omega

end Cutting

section Joining
open Doom

end Joining

section Streaming
open Program Kernel Payload Machine Rfc8259 Mm Doom

variable {phys : Phys} {root va ptr : Nat} {state : State} {data : Bytes}

theorem Readable.unique {byte other : UInt8} (first : Readable phys root va byte) (second : Readable phys root va other) :
    byte = other := by
  obtain ⟨level, entry, reads⟩ := first
  obtain ⟨level', entry', reads'⟩ := second
  obtain ⟨rfl, rfl⟩ := Prod.mk.inj (Option.some.inj (reads.leaf.symm.trans reads'.leaf))
  exact reads.stored.trans reads'.stored.symm

/-- These bytes stand at `ptr`, where the payload may read them. -/
def Holds (phys : Phys) (root ptr : Nat) (data : Bytes) : Prop :=
  ∀ i < data.length, ∃ byte, data[i]? = some byte ∧ Readable phys root ((ptr + i) % 2 ^ 64) byte

theorem Holds.copy (tree : Mm.Tree phys root) (holds : Holds phys root ptr data) :
    copyFromUser phys root ptr data.length = some data := by
  cases copied : copyFromUser phys root ptr data.length with
  | none =>
    obtain ⟨i, inside, blocked⟩ := tree.copyFrom_none (Nat.sub_le ..) copied
    rw [Nat.zero_add] at blocked
    obtain ⟨byte, -, readable⟩ := holds i inside
    exact absurd readable (blocked byte)
  | some buf =>
    obtain ⟨length, bytes⟩ := tree.copyFrom_some (Nat.sub_le ..) copied
    refine congrArg some (List.ext_getElem? fun i => ?_)
    by_cases inside : i < data.length
    · obtain ⟨byte, here, readable⟩ := holds i inside
      obtain ⟨byte', here', readable'⟩ := bytes i inside
      rw [Nat.zero_add] at readable'
      rw [here, here', Readable.unique readable readable']
    · have beyond : buf.length ≤ i := by
        rw [length]
        omega
      rw [List.getElem?_eq_none beyond, List.getElem?_eq_none (Nat.le_of_not_lt inside)]

/-- A payload has a page of zeros. -/
def blank : Script dataBuild anyMove (boot dataBuild) fun config =>
    (config.state.core.table pid0).state = .running ∧ (config.state.core.table pid0).root ≠ 0 ∧
      config.state.core.current = some pid0 ∧ currentHas config.state.core .write = true ∧
      config.state.core.autonomous = false ∧
      copyFromUser config.state.core.phys (config.state.core.table pid0).root 0x20000 3 = some [0, 0, 0] where
  moves := startSuite
  passes := by decide +kernel

end Streaming

end Kernai
