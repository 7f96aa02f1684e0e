import Kernai.Foundation.Base64
import Kernai.Events

/-! The keyframe stream outside the kernel: the game's platform layer
(`doomgeneric_kernai.c`), which cuts the screen into chunks, and the host's reader
(`doom_fork.py`), which joins them. -/

namespace Kernai.Doom
open Foundation

def fbChunk : Nat := 1440

/-- A call of `kernai_frame(buf, len, seq)`, with what `buf` holds. -/
structure FrameCall where
  data : Bytes
  seq : Nat
deriving DecidableEq, Repr

/-- A `dict` from sequence numbers to chunks. -/
abbrev Dict := List (Nat × Bytes)

def Dict.set (dict : Dict) (key : Nat) (value : Bytes) : Dict :=
  if key ∈ dict.map Prod.fst then dict.map fun item => if item.1 = key then (key, value) else item
  else dict ++ [(key, value)]

structure Frames where
  cur : Dict
  last : Option Bytes
deriving DecidableEq, Repr

namespace Frames

def new : Frames := { cur := [], last := none }

/-- `chunk`: none where `b64decode` raises. -/
def chunk (frames : Frames) (seq : Nat) (data : Bytes) : Option Frames :=
  (Base64.decode data).map fun bytes => { frames with cur := frames.cur.set seq bytes }

def chunks (frames : Frames) : List (Nat × Bytes) → Option Frames
  | [] => some frames
  | (seq, data) :: rest => (frames.chunk seq data).bind fun frames => frames.chunks rest

end Frames
end Kernai.Doom
