import Kernai.Proofs.Chronicle
import Kernai.Proofs.EventStream
import Kernai.Proofs.Framing
import Kernai.Proofs.Keyframes
import Kernai.Proofs.Objects

/-! What the kernel says, as the host reads it: each report is a JSON object under its own id
and type, and the decoder finds all of them on the wire. -/

namespace Kernai
open Foundation Utf8 Rfc8259 Console Text Machine

/-- What a report calls itself. -/
def Event.kind : Event → String
  | .hello => "hello"
  | .tick .. => "tick"
  | .fault _ | .faultMinimal _ => "fault"
  | .denied .. => "syscall_denied"
  | .output .. => "payload_output"
  | .frame .. => "frame"
  | .fbchunk .. => "fbchunk"
  | .preempt .. => "sched"
  | .killed .. | .killedOperator .. => "payload_killed"
  | .start .. => "payload_start"
  | .snapshot .. => "snapshot"
  | .exit .. => "payload_exit"
  | .loadFault .. => "payload_load_fault"
  | .yield _ => "payload_yield"
  | .spawn .. => "payload_spawn"
  | .suiteDone .. => "suite_done"
  | .ringDump .. => "trap_ring"
  | .rpc .. | .rpcTooLarge => "rpc"

section Faults

end Faults

section Events

end Events

section Wire

variable {build : Build} {config : Config} {log : List Entry}

theorem hello_fits : (Event.hello.frameBuf (idOf 0)).overflow = false := by decide

/-- Every frame in the log fits and every line is ASCII. -/
theorem Machine.Reachable.proper (reached : Machine.Reachable build anyStep config) :
    ∀ entry ∈ config.state.env.log, entry.what.Proper := by
  obtain ⟨traps, history⟩ := reachable_iff_history.mp reached
  clear reached
  have spoken : Spoken [] config.state.env.log := by
    induction history with
    | boot =>
      rw [boot_eq]
      exact ⟨_, rfl, by simp [stamp, Emission.Proper, Event.Worded, hello_fits]⟩
    | trap history takes ih => exact ih.trans takes.reported.spoken
    | quiet history moves ih => exact ih.trans (moves.deed history.recorded.1).spoken
  obtain ⟨more, rfl, proper⟩ := spoken
  exact proper

open Framing

theorem emitted_frame {serial : Nat} {event : Event} (fits : (event.frameBuf (idOf serial)).overflow = false) :
    (event.frameBuf (idOf serial)).emitted = (Piece.frame (event.text (idOf serial))).bytes ∧
      (event.text (idOf serial)).length ≤ maxFrameLen := by
  have room : (event.text (idOf serial)).length ≤ Encoder.kernel.limit := (event.fits_iff _).mp fits
  have written : FrameBuf.new.write [event.text (idOf serial)] = event.frameBuf (idOf serial) := by
    rw [Event.frameBuf_fits room, FrameBuf.write_fits (by simpa [FrameBuf.new, Encoder.limit] using room)]
    simp [FrameBuf.new]
  have encoded := Encoder.encode_eq room
  rw [Encoder.encode, written] at encoded
  exact ⟨Except.ok.inj encoded, room.trans (by decide)⟩

end Wire

end Kernai
