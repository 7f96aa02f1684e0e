import Kernai.Hal

/-! Frame emission: the fixed-capacity payload buffer, the text helpers behind
`write!`, and the wire envelope. -/

namespace Kernai.Console

def utf8 (text : String) : Bytes := text.toList.flatMap String.utf8EncodeChar
def decimal (n : Nat) : Bytes := (Nat.toDigits 10 n).flatMap String.utf8EncodeChar
def hex (n : Nat) : Bytes := (Nat.toDigits 16 n).flatMap String.utf8EncodeChar
def signedDecimal (n : Int) : Bytes := if n < 0 then utf8 "-" ++ decimal n.natAbs else decimal n.natAbs

/-- `{:04x}`. -/
def hex4 (n : Nat) : Bytes := List.replicate (4 - (hex n).length) 0x30 ++ hex n

def capacity : Nat := 2048
def magic : Bytes := [0xAA, 0x99]

structure FrameBuf where
  buf : Bytes
  overflow : Bool
deriving DecidableEq, Repr

namespace FrameBuf

def new : FrameBuf := { buf := [], overflow := false }

/-- `write_str`: all of the bytes or none, the latter poisoning the frame. -/
def writeStr (frame : FrameBuf) (bytes : Bytes) : Bool × FrameBuf :=
  if frame.buf.length + bytes.length > capacity then (false, { frame with overflow := true })
  else (true, { frame with buf := frame.buf ++ bytes })

/-- A series of writes whose errors the caller ignores. Stopping at the first
error instead would make no difference to `overflowed` or `emit`. -/
def write (frame : FrameBuf) (pieces : List Bytes) : FrameBuf :=
  pieces.foldl (fun frame piece => (frame.writeStr piece).2) frame

/-- `write_char`, as `core::fmt::Write` provides it. -/
def writeChar (frame : FrameBuf) (c : Char) : Bool × FrameBuf := frame.writeStr (String.utf8EncodeChar c)

/-- Writes joined by `?`, as `core::fmt` and the escapers make them: the first that fails is
the last. -/
def attempt (frame : FrameBuf) : List Bytes → Bool × FrameBuf
  | [] => (true, frame)
  | piece :: pieces =>
    match frame.writeStr piece with
    | (false, frame) => (false, frame)
    | (true, frame) => frame.attempt pieces

def le32 (n : Nat) : Bytes := (List.range 4).map (fun index => .ofNat (n / 256 ^ index))

/-- The bytes `emit` puts on the wire; a poisoned frame puts none. -/
def emitted (frame : FrameBuf) : Bytes :=
  if frame.overflow then [] else magic ++ le32 frame.buf.length ++ frame.buf

end FrameBuf

/-- The writes behind `write!(self, "\\u{:04x}", n)`: the padding goes out character by character. -/
def writeHex4 (n : Nat) : List Bytes :=
  utf8 "\\u" :: (List.replicate (4 - (hex n).length) [0x30] ++ [hex n])

/-- What `write_json_escaped` writes for one character. -/
def escapeChar (c : Char) : List Bytes :=
  if c = '"' then [utf8 "\\\""]
  else if c = '\\' then [utf8 "\\\\"]
  else if c = '\n' then [utf8 "\\n"]
  else if c = '\r' then [utf8 "\\r"]
  else if c = '\t' then [utf8 "\\t"]
  else if c.toNat < 0x20 then writeHex4 c.toNat
  else [String.utf8EncodeChar c]

/-- What `write_json_escaped_bytes` writes for one byte. -/
def escapeByte (byte : UInt8) : List Bytes :=
  if byte = 0x22 then [utf8 "\\\""]
  else if byte = 0x5c then [utf8 "\\\\"]
  else if 0x20 ≤ byte ∧ byte ≤ 0x7e then [[byte]]
  else writeHex4 byte.toNat

def FrameBuf.writeJsonEscaped (frame : FrameBuf) (text : String) : Bool × FrameBuf :=
  frame.attempt (text.toList.flatMap escapeChar)

def FrameBuf.writeJsonEscapedBytes (frame : FrameBuf) (bytes : Bytes) : Bool × FrameBuf :=
  frame.attempt (bytes.flatMap escapeByte)

/-- `write_json_escaped` on the bytes of a string. Only ASCII bytes are ever
escaped, so multi-byte characters pass through whole. -/
def jsonEscaped (text : Bytes) : List Bytes := text.map fun byte =>
  if byte = 0x22 then utf8 "\\\""
  else if byte = 0x5c then utf8 "\\\\"
  else if byte = 0x0a then utf8 "\\n"
  else if byte = 0x0d then utf8 "\\r"
  else if byte = 0x09 then utf8 "\\t"
  else if byte < 0x20 then utf8 "\\u" ++ hex4 byte.toNat
  else [byte]

/-- `write_json_escaped_bytes`. -/
def jsonEscapedBytes (bytes : Bytes) : List Bytes := bytes.map fun byte =>
  if byte = 0x22 then utf8 "\\\""
  else if byte = 0x5c then utf8 "\\\\"
  else if 0x20 ≤ byte ∧ byte ≤ 0x7e then [byte]
  else utf8 "\\u" ++ hex4 byte.toNat

/-- A use of a frame before it is sent. -/
inductive Call where
  | str (text : String)
  | char (c : Char)
  | fmt (pieces : List String)
  | escaped (text : String)
  | escapedBytes (bytes : Bytes)
deriving DecidableEq, Repr

def Call.run : Call → FrameBuf → Bool × FrameBuf
  | .str text, frame => frame.writeStr (utf8 text)
  | .char c, frame => frame.writeChar c
  | .fmt pieces, frame => frame.attempt (pieces.map utf8)
  | .escaped text, frame => frame.writeJsonEscaped text
  | .escapedBytes bytes, frame => frame.writeJsonEscapedBytes bytes

/-- A fresh frame after these calls, whatever they answered. -/
def perform (calls : List Call) : FrameBuf := calls.foldl (fun frame call => (call.run frame).2) .new

end Kernai.Console
