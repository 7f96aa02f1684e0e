import Kernai.Proofs.Deputy
import Kernai.Proofs.Documents

/-! The display as an event: what `sys_blit` and `sys_frame` read from a payload's memory,
what they report of it, and what the host makes of the report. -/

namespace Kernai
open Foundation Program Kernel Console Text Payload Machine Rfc8259 Mm

variable {phys : Phys} {root ptr w h : Nat} {rows : List Bytes} {state : State} {pid : Pid}

section Blit

theorem pid_word (pid : Option Pid) : (Text.pid pid).length ≤ 20 := by
  unfold Text.pid
  cases pid with
  | none => exact decimal_word (by decide)
  | some pid => exact decimal_word (Nat.lt_trans pid.isLt (by decide))

/-- A payload shows six bytes of its data. -/
def shown : Script dataBuild anyMove (boot dataBuild) fun config =>
    (config.state.core.table pid0).state = .running ∧ (config.state.core.table pid0).root ≠ 0 ∧
      config.state.core.current = some pid0 ∧ ((onBlit 0x20000 3 2).run config.state).1 = 0 where
  moves := startSuite
  passes := by decide +kernel

end Blit

end Kernai
