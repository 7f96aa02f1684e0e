import Kernai.Console

/-! The host's end of the wire (`harness/framing.py`): the encoder and the
incremental decoder that finds frames in a stream with noise between them. -/

namespace Kernai.Framing

def magic : Bytes := [0xAA, 0x99]
def lenBytes : Nat := 4
def maxFrameLen : Nat := 2 ^ 20

/-- `int.to_bytes(width, "little")` of a number that fits. -/
def toBytes : Nat → Nat → Bytes
  | 0, _ => []
  | width + 1, n => .ofNat n :: toBytes width (n / 256)

/-- `int.from_bytes(bytes, "little")`. -/
def fromBytes : Bytes → Nat
  | [] => 0
  | byte :: bytes => byte.toNat + 256 * fromBytes bytes

inductive EncodeError where
  | payloadTooLarge (length : Nat)
deriving DecidableEq, Repr

def encodeFrame (payload : Bytes) : Except EncodeError Bytes :=
  if payload.length > maxFrameLen then .error (.payloadTooLarge payload.length)
  else .ok (magic ++ toBytes lenBytes payload.length ++ payload)

/-- `bytearray.find(MAGIC)`. -/
def find : Bytes → Option Nat
  | [] => none
  | byte :: rest => if magic.isPrefixOf (byte :: rest) then some 0 else (find rest).map (· + 1)

structure FrameDecoder where
  buf : Bytes
  noise : Bytes
deriving DecidableEq, Repr

/-- How a turn of the loop in `feed` ends. -/
inductive Exit where
  | returned
  | skipped
  | found (payload : Bytes)
deriving DecidableEq, Repr

namespace FrameDecoder

def new : FrameDecoder := { buf := [], noise := [] }

/-- The first `count` bytes of the buffer become noise. -/
def discard (decoder : FrameDecoder) (count : Nat) : FrameDecoder :=
  { buf := decoder.buf.drop count, noise := decoder.noise ++ decoder.buf.take count }

/-- The rest of a turn, once the buffer starts with the magic. -/
def frame (decoder : FrameDecoder) : Exit × FrameDecoder :=
  let headerEnd := magic.length + lenBytes
  if decoder.buf.length < headerEnd then (.returned, decoder)
  else
    let length := fromBytes ((decoder.buf.take headerEnd).drop magic.length)
    if length > maxFrameLen then (.skipped, decoder.discard 1)
    else if decoder.buf.length < headerEnd + length then (.returned, decoder)
    else (.found ((decoder.buf.take (headerEnd + length)).drop headerEnd),
      { decoder with buf := decoder.buf.drop (headerEnd + length) })

def turn (decoder : FrameDecoder) : Exit × FrameDecoder :=
  match find decoder.buf with
  | none =>
    let keep := if decoder.buf.getLast? = magic.head? then 1 else 0
    (.returned, if decoder.buf.length > keep then decoder.discard (decoder.buf.length - keep) else decoder)
  | some start => (if start > 0 then decoder.discard start else decoder).frame

/-- The `while True` of `feed`. A turn that does not return takes a byte off the
buffer at least, so one more turn than there are bytes is always enough. -/
def loop : Nat → FrameDecoder → List Bytes × FrameDecoder
  | 0, decoder => ([], decoder)
  | fuel + 1, decoder =>
    match decoder.turn with
    | (.returned, decoder) => ([], decoder)
    | (.skipped, decoder) => loop fuel decoder
    | (.found payload, decoder) =>
      let (frames, decoder) := loop fuel decoder
      (payload :: frames, decoder)

def feed (decoder : FrameDecoder) (data : Bytes) : List Bytes × FrameDecoder :=
  loop (decoder.buf.length + data.length + 1) { decoder with buf := decoder.buf ++ data }

/-- A series of chunks, with the payloads of all the calls in order. -/
def feedAll (decoder : FrameDecoder) : List Bytes → List Bytes × FrameDecoder
  | [] => ([], decoder)
  | chunk :: chunks =>
    let (frames, decoder) := decoder.feed chunk
    let (more, decoder) := decoder.feedAll chunks
    (frames ++ more, decoder)

end FrameDecoder

end Kernai.Framing
