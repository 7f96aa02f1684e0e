import Kernai.Types

/-! Everything the kernel reports, and the text of each report. `Event.pieces`
lists the writes of the matching `emit_*` function in order. -/

namespace Kernai
open Console

inductive Result where
  | serverInfo
  | toolsList
  | resourcesList
  | accepted (suite : Bytes)
  | duplicate (op : Bytes)
  | crashing
  | killed (pid elapsed : Nat)
  | budgetSet (pid deadline : Nat)
  | ring (count : Nat) (entries : List RingSlot)
  | surface (classic : Bool)
  | autonomy (autonomous : Bool)
  | processes (rows : List (Pid × Image × ProcState × Int × Nat))
  | spec (doom : Bool)
  | memory (allocated capacity : Nat)
  | digest (budget : Nat) (autonomous : Bool) (ticks ecalls faults total : Nat) (items : List RingSlot)

inductive Reply where
  | result (result : Result)
  | error (code : Int) (message : String)

/-- The client's request id as `write_id` echoes it. -/
inductive RpcId where
  | text (inner : Bytes)
  | integer (raw : Bytes)
  | null

structure FaultReport where
  pid : Option Pid
  causedBy : Option Nat
  scause : Nat
  stval : Nat
  frame : TrapFrame
  pagewalk : Option (List (Nat × Nat))
  ring : List RingSlot

inductive Event where
  | hello
  | tick (seq time : Nat)
  | fault (report : FaultReport)
  | faultMinimal (report : FaultReport)
  | denied (pid : Option Pid) (syscall cap : String)
  | output (pid : Option Pid) (causedBy : Nat) (data : Bytes)
  | frame (pid : Option Pid) (w h : Nat) (rows : List Bytes)
  | fbchunk (pid : Option Pid) (seq : Nat) (data : Bytes)
  | preempt (pid : Pid) (causedBy : Nat)
  | killed (pid : Pid) (elapsed deadline causedBy : Nat)
  | killedOperator (pid : Pid) (elapsed causedBy : Nat)
  | start (pid : Pid) (name : String) (entry : Nat) (restored : Bool) (causedBy : Option Nat) (caps : Nat)
  | snapshot (pid : Pid) (id : Nat)
  | exit (pid : Pid) (code : Int) (causedBy : Nat)
  | loadFault (pid : Pid) (name reason : String)
  | yield (pid : Pid)
  | spawn (parent child : Pid) (name : String) (parentCaps requested granted : Nat)
  | suiteDone (exited faulted killed : Nat)
  | ringDump (count : Nat) (entries : List RingSlot)
  | rpc (request : RpcId) (reply : Reply)
  | rpcTooLarge

namespace Text

def causeSTimer : Nat := 2 ^ 63 + 5
def causeUEcall : Nat := 8
def causeIllegalInstruction : Nat := 2

def causeName (scause : Nat) : String :=
  match scause with
  | 0 => "instruction_address_misaligned"
  | 1 => "instruction_access_fault"
  | 2 => "illegal_instruction"
  | 3 => "breakpoint"
  | 4 => "load_address_misaligned"
  | 5 => "load_access_fault"
  | 6 => "store_address_misaligned"
  | 7 => "store_access_fault"
  | 8 | 9 | 10 | 11 => "ecall"
  | 12 => "instruction_page_fault"
  | 13 => "load_page_fault"
  | 15 => "store_page_fault"
  | scause => if scause = causeSTimer then "timer" else if 2 ^ 63 ≤ scause then "unexpected_interrupt" else "unknown"

def severityOf (scause : Nat) : String :=
  if scause = causeSTimer then "trace"
  else if scause = causeUEcall then "info"
  else if 2 ^ 63 ≤ scause then "warn"
  else "error"

def separated (items : List (List Bytes)) : List Bytes := (items.intersperse [utf8 ","]).flatten

def capsJson (caps : Nat) : List Bytes :=
  let names := [("write", capWrite), ("yield", capYield), ("spawn", capSpawn)]
  [utf8 "["] ++ separated ((names.filter fun item => caps &&& item.2 ≠ 0).map fun item =>
    [utf8 "\"", utf8 item.1, utf8 "\""]) ++ [utf8 "]"]

def stateName : ProcState → String
  | .empty => "empty"
  | .pending => "pending"
  | .running => "running"
  | .exited => "exited"
  | .faulted => "faulted"
  | .killed => "killed"

def bool (value : Bool) : Bytes := utf8 (if value then "true" else "false")
def pid (pid : Option Pid) : Bytes := decimal (pid.elim noPid (·.val))
def optional (value : Option Nat) : Bytes := value.elim (utf8 "null") decimal

def writeRing (entries : List RingSlot) : List Bytes :=
  [utf8 "["] ++ separated (entries.map fun slot =>
    [utf8 "\x7b\"id\":", decimal slot.id, utf8 ",\"cause\":\"", utf8 (causeName slot.scause), utf8 "\",\"sepc\":\"0x",
      hex slot.sepc, utf8 "\"\x7d"]) ++ [utf8 "]"]

def regNames : List String :=
  ["ra", "sp", "gp", "tp", "t0", "t1", "t2", "s0", "s1", "a0", "a1", "a2", "a3", "a4", "a5", "a6", "a7", "s2", "s3", "s4",
    "s5", "s6", "s7", "s8", "s9", "s10", "s11", "t3", "t4", "t5", "t6"]

def writeRegs (frame : TrapFrame) : List Bytes :=
  [utf8 "\x7b"] ++ separated ((List.finRange 31).map fun i =>
    [utf8 "\"", utf8 (regNames.getD i.val ""), utf8 "\":\"0x", hex (frame.regs i).toNat, utf8 "\""]) ++ [utf8 "\x7d"]

def writePagewalk (chain : List (Nat × Nat)) : List Bytes :=
  [utf8 "["] ++ separated (chain.map fun (level, pte) =>
    [utf8 "\x7b\"level\":", decimal level, utf8 ",\"pte\":\"0x", hex pte, utf8 "\",\"v\":", decimal (pte &&& 1),
      utf8 ",\"r\":", decimal (pte >>> 1 &&& 1), utf8 ",\"w\":", decimal (pte >>> 2 &&& 1), utf8 ",\"x\":",
      decimal (pte >>> 3 &&& 1), utf8 ",\"u\":", decimal (pte >>> 4 &&& 1), utf8 "\x7d"]) ++ [utf8 "]"]

def writeInsn (scause stval : Nat) : List Bytes :=
  if scause = causeIllegalInstruction ∧ stval ≠ 0 then
    [utf8 "\x7b\"bits\":\"0x", hex stval, utf8 "\",\"opcode\":\"0x", hex (stval &&& 0x7f), utf8 "\",\"rd\":",
      decimal (stval >>> 7 &&& 0x1f), utf8 ",\"funct3\":", decimal (stval >>> 12 &&& 0x7), utf8 ",\"rs1\":",
      decimal (stval >>> 15 &&& 0x1f), utf8 ",\"rs2\":", decimal (stval >>> 20 &&& 0x1f), utf8 ",\"funct7\":\"0x",
      hex (stval >>> 25 &&& 0x7f), utf8 "\""] ++
    (if stval &&& 0x7f = 0x73 then [utf8 ",\"csr\":\"0x", hex (stval >>> 20 &&& 0xfff), utf8 "\""] else []) ++
    [utf8 "\x7d"]
  else [utf8 "null"]

def faultOrigin (id : Nat) (report : FaultReport) : List Bytes :=
  [utf8 "\x7b\"id\":", decimal id, utf8 ",\"type\":\"fault\",\"origin\":\""] ++
  match report.pid with
  | some pid => [utf8 "payload\",\"pid\":", decimal pid.val, utf8 ","]
  | none => [utf8 "kernel\","]

/-- The glyphs of `RAMP`, darkest first. -/
def ramp : List String := [" ", ".", ":", "-", "=", "+", "*", "#", "%", "@"]

def rampGlyph (value : UInt8) : Bytes := utf8 (ramp.getD (value.toNat * 9 / 255) "")

def fnvStep (hash : Nat) (byte : UInt8) : Nat := (hash ^^^ byte.toNat) * 0x00000100000001b3 % 2 ^ 64
def fnv (bytes : Bytes) : Nat := bytes.foldl fnvStep 0xcbf29ce484222325

def base64Alphabet : Bytes := utf8 "ABCDEFGHIJKLMNOPQRSTUVWXYZabcdefghijklmnopqrstuvwxyz0123456789+/"
def base64Digit (i : Nat) : UInt8 := base64Alphabet.getD (i &&& 63) 0

def writeBase64 : Bytes → List Bytes
  | b0 :: b1 :: b2 :: rest =>
    let n := b0.toNat <<< 16 ||| b1.toNat <<< 8 ||| b2.toNat
    [base64Digit (n >>> 18), base64Digit (n >>> 12), base64Digit (n >>> 6), base64Digit n] :: writeBase64 rest
  | [b0, b1] =>
    let n := b0.toNat <<< 16 ||| b1.toNat <<< 8
    [[base64Digit (n >>> 18), base64Digit (n >>> 12), base64Digit (n >>> 6), 0x3d]]
  | [b0] =>
    let n := b0.toNat <<< 16
    [[base64Digit (n >>> 18), base64Digit (n >>> 12), 0x3d, 0x3d]]
  | [] => []

/-- `char_indices().nth(n)`: how many bytes the first `n` characters take. -/
def clampChars : (n : Nat) → Bytes → Bytes
  | _, [] => []
  | 0, byte :: rest => if byte &&& 0xC0 = 0x80 then byte :: clampChars 0 rest else []
  | n + 1, byte :: rest =>
    if byte &&& 0xC0 = 0x80 then byte :: clampChars (n + 1) rest else byte :: clampChars n rest

def quote : Bytes := utf8 "\""

def tool (name desc : String) (prop : Option String) : List Bytes :=
  [utf8 "\x7b\"name\":\"", utf8 name, utf8 "\",\"description\":\"", utf8 desc,
    utf8 "\",\"inputSchema\":\x7b\"type\":\"object\""] ++
  (match prop with
    | some prop => [utf8 ",\"properties\":\x7b\"", utf8 prop, utf8 "\":\x7b\"type\":\"string\"\x7d\x7d,\"required\":[\"",
        utf8 prop, utf8 "\"]"]
    | none => []) ++ [utf8 "\x7d\x7d"]

def tools : List (List Bytes) :=
  [tool "run_suite" "Run a payload suite (p|m|i|f|d|e|e2; feature builds add craycast/doom)." (some "suite"),
    tool "crash" "Trigger a deliberate kernel fault → shutdown." none,
    tool "kill" "Kill a live payload by pid — servable mid-run (M13/E2 remediation)." (some "pid"),
    tool "set_budget"
      "Set a live payload's instruction budget (deadline, timebase units; 0=none) — P1 policy, servable mid-run."
      (some "pid"),
    tool "ring_read" "Read the trap ring buffer." none,
    tool "set_surface" "Select the diagnostic surface: classic|agentic (P6/E1)." (some "mode"),
    tool "set_autonomy" "Set the autonomy dial: reactive|autonomous (P1/P3)." (some "mode")]

def resource (uri desc : String) : List Bytes :=
  [utf8 "\x7b\"uri\":\"", utf8 uri, utf8 "\",\"name\":\"", utf8 uri, utf8 "\",\"description\":\"", utf8 desc,
    utf8 "\",\"mimeType\":\"application/json\"\x7d"]

def resources : List (List Bytes) :=
  [resource "trap_ring" "The trap ring buffer (last N traps).",
    resource "processes" "The process table.",
    resource "spec" "Self-describing surface: syscalls, caps, memory map (P5).",
    resource "surface" "The active diagnostic surface (classic|agentic).",
    resource "autonomy" "The active autonomy dial (reactive|autonomous).",
    resource "memory" "Frame-allocator state: allocated/capacity (P11).",
    resource "digest" "Budgeted, coalesced activity summary; takes a `budget` param (P3)."]

def writeProcessTable (rows : List (Pid × Image × ProcState × Int × Nat)) : List Bytes :=
  [utf8 "\x7b\"processes\":["] ++ separated (rows.map fun (pid, image, state, exitCode, caps) =>
    [utf8 "\x7b\"pid\":", decimal pid.val, utf8 ",\"name\":\"", utf8 image.name, utf8 "\",\"state\":\"",
      utf8 (stateName state), utf8 "\",\"exit_code\":", signedDecimal exitCode, utf8 ",\"caps\":"] ++ capsJson caps ++
      [utf8 "\x7d"]) ++ [utf8 "]\x7d"]

def syscallRow (num : Nat) (name : String) : List Bytes :=
  [utf8 "\x7b\"num\":", decimal num, utf8 ",\"name\":\"", utf8 name, utf8 "\"\x7d"]

def writeSpec (doom : Bool) : List Bytes :=
  [utf8 "\x7b\"proto\":0,\"arch\":\"riscv64\",\"syscalls\":["] ++
  separated ([syscallRow 0 "exit", syscallRow 1 "write", syscallRow 2 "yield", syscallRow 3 "spawn",
    syscallRow 4 "snapshot", syscallRow 5 "blit"] ++ if doom then [syscallRow 6 "frame", syscallRow 7 "getkey"] else []) ++
  [utf8 "],\"caps\":["] ++
  separated ([("write", capWrite), ("yield", capYield), ("spawn", capSpawn)].map fun (name, bit) =>
    [utf8 "\x7b\"name\":\"", utf8 name, utf8 "\",\"bit\":", decimal bit, utf8 "\x7d"]) ++
  [utf8 "],\"memory\":\x7b\"kernel_base\":\"0x80200000\",\"pool_base\":\"0x", hex Hal.poolBase, utf8 "\",\"pool_end\":\"0x",
    hex Hal.poolEnd, utf8 "\"\x7d"] ++
  (if doom then [utf8 ",\"windows\":[\x7b\"name\":\"iwad\",\"image\":\"doom\",\"va\":\"0x", hex 0x50000000, utf8 "\",\"len\":",
    decimal (32 <<< 20), utf8 ",\"perms\":\"r\"\x7d]"] else []) ++ [utf8 "\x7d"]

def autonomyName (autonomous : Bool) : String := if autonomous then "autonomous" else "reactive"
def surfaceName (classic : Bool) : String := if classic then "classic" else "agentic"

def writeDigest (budget : Nat) (autonomous : Bool) (ticks ecalls faults total : Nat) (items : List RingSlot) :
    List Bytes :=
  [utf8 "\x7b\"budget\":", decimal budget, utf8 ",\"autonomy\":\"", utf8 (autonomyName autonomous),
    utf8 "\",\"totals\":\x7b\"traps\":", decimal total, utf8 ",\"timer\":", decimal ticks, utf8 ",\"ecall\":", decimal ecalls,
    utf8 ",\"fault\":", decimal faults, utf8 "\x7d,\"by_severity\":\x7b\"error\":", decimal faults, utf8 ",\"info\":",
    decimal ecalls, utf8 ",\"trace\":", decimal ticks, utf8 "\x7d,\"items\":["] ++
  separated (items.map fun slot =>
    [utf8 "\x7b\"id\":", decimal slot.id, utf8 ",\"severity\":\"", utf8 (severityOf slot.scause), utf8 "\",\"cause\":\"",
      utf8 (causeName slot.scause), utf8 "\",\"sepc\":\"0x", hex slot.sepc, utf8 "\"\x7d"]) ++
  [utf8 "],\"elided\":", decimal (total - items.length), utf8 "\x7d"]

end Text

open Text

def Result.pieces : Result → List Bytes
  | .serverInfo =>
    [utf8 "\x7b\"protocolVersion\":\"2024-11-05\",", utf8 "\"serverInfo\":\x7b\"name\":\"kernai\",\"version\":\"0\"\x7d,",
      utf8 "\"capabilities\":\x7b\"tools\":\x7b\x7d,\"resources\":\x7b\x7d\x7d\x7d"]
  | .toolsList => [utf8 "\x7b\"tools\":["] ++ separated tools ++ [utf8 "]\x7d"]
  | .resourcesList => [utf8 "\x7b\"resources\":["] ++ separated resources ++ [utf8 "]\x7d"]
  | .accepted suite => [utf8 "\x7b\"status\":\"accepted\",\"suite\":\""] ++ jsonEscaped suite ++ [utf8 "\"\x7d"]
  | .duplicate op => [utf8 "\x7b\"status\":\"duplicate\",\"opId\":\""] ++ jsonEscaped op ++ [utf8 "\"\x7d"]
  | .crashing => [utf8 "\x7b\"status\":\"crashing\"\x7d"]
  | .killed pid elapsed =>
    [utf8 "\x7b\"status\":\"killed\",\"pid\":", decimal pid, utf8 ",\"elapsed\":", decimal elapsed, utf8 "\x7d"]
  | .budgetSet pid deadline =>
    [utf8 "\x7b\"status\":\"budget_set\",\"pid\":", decimal pid, utf8 ",\"deadline\":", decimal deadline, utf8 "\x7d"]
  | .ring count entries =>
    [utf8 "\x7b\"count\":", decimal count, utf8 ",\"entries\":"] ++ writeRing entries ++ [utf8 "\x7d"]
  | .surface classic => [utf8 "\x7b\"surface\":\"", utf8 (surfaceName classic), utf8 "\"\x7d"]
  | .autonomy autonomous => [utf8 "\x7b\"autonomy\":\"", utf8 (autonomyName autonomous), utf8 "\"\x7d"]
  | .processes rows => writeProcessTable rows
  | .spec doom => writeSpec doom
  | .memory allocated capacity =>
    [utf8 "\x7b\"allocated\":", decimal allocated, utf8 ",\"capacity\":", decimal capacity, utf8 "\x7d"]
  | .digest budget autonomous ticks ecalls faults total items =>
    writeDigest budget autonomous ticks ecalls faults total items

/-- Longest client id echoed back, in characters. -/
def maxId : Nat := 64

def RpcId.pieces : RpcId → List Bytes
  | .text inner => [quote] ++ jsonEscaped (clampChars maxId inner) ++ [quote]
  | .integer raw => [raw]
  | .null => [utf8 "null"]

def Reply.pieces (request : RpcId) : Reply → List Bytes
  | .result value =>
    [utf8 "\x7b\"jsonrpc\":\"2.0\",\"id\":"] ++ request.pieces ++ [utf8 ",\"result\":"] ++ value.pieces ++ [utf8 "\x7d"]
  | .error code message =>
    [utf8 "\x7b\"jsonrpc\":\"2.0\",\"id\":"] ++ request.pieces ++ [utf8 ",\"error\":\x7b\"code\":", signedDecimal code,
      utf8 ",\"message\":\""] ++ jsonEscaped (utf8 message) ++ [utf8 "\"\x7d\x7d"]

def FaultReport.pieces (report : FaultReport) (id : Nat) : List Bytes :=
  faultOrigin id report ++
  [utf8 "\"caused_by\":", optional report.causedBy, utf8 ",\"cause\":\"0x", hex report.scause, utf8 "\",\"cause_name\":\"",
    utf8 (causeName report.scause), utf8 "\",\"sepc\":\"0x", hex report.frame.sepc.toNat, utf8 "\",\"stval\":\"0x",
    hex report.stval, utf8 "\",\"ra\":\"0x", hex (report.frame.regs TrapFrame.xRa).toNat, utf8 "\",\"sp\":\"0x",
    hex (report.frame.regs TrapFrame.xSp).toNat, utf8 "\",\"regs\":"] ++ writeRegs report.frame ++ [utf8 ",\"insn\":"] ++
  writeInsn report.scause report.stval ++ [utf8 ",\"pagewalk\":"] ++
  report.pagewalk.elim [utf8 "null"] writePagewalk ++ [utf8 ",\"ring\":"] ++ writeRing report.ring ++ [utf8 "\x7d"]

/-- The writes behind an event frame under stream id `id`. -/
def Event.pieces (id : Nat) : Event → List Bytes
  | .hello => [utf8 "\x7b\"id\":", decimal id, utf8 ",\"type\":\"hello\",\"name\":\"kernai\",\"proto\":0\x7d"]
  | .tick seq time =>
    [utf8 "\x7b\"id\":", decimal id, utf8 ",\"type\":\"tick\",\"seq\":", decimal seq, utf8 ",\"time\":", decimal time,
      utf8 "\x7d"]
  | .fault report => report.pieces id
  | .faultMinimal report =>
    faultOrigin id report ++ [utf8 "\"overflow\":true,\"cause_name\":\"", utf8 (causeName report.scause),
      utf8 "\",\"sepc\":\"0x", hex report.frame.sepc.toNat, utf8 "\",\"stval\":\"0x", hex report.stval, utf8 "\"\x7d"]
  | .denied pid syscall cap =>
    [utf8 "\x7b\"id\":", decimal id, utf8 ",\"type\":\"syscall_denied\",\"pid\":", Text.pid pid, utf8 ",\"syscall\":\"",
      utf8 syscall, utf8 "\",\"reason\":\"missing_cap\",\"cap\":\"", utf8 cap, utf8 "\"\x7d"]
  | .output pid causedBy data =>
    [utf8 "\x7b\"id\":", decimal id, utf8 ",\"type\":\"payload_output\",\"pid\":", Text.pid pid,
      utf8 ",\"untrusted\":true,\"caused_by\":", decimal causedBy, utf8 ",\"len\":", decimal data.length,
      utf8 ",\"data\":\""] ++ jsonEscapedBytes data ++ [utf8 "\"\x7d"]
  | .frame pid w h rows =>
    [utf8 "\x7b\"id\":", decimal id, utf8 ",\"type\":\"frame\",\"pid\":", Text.pid pid, utf8 ",\"untrusted\":true,\"w\":",
      decimal w, utf8 ",\"h\":", decimal h, utf8 ",\"rows\":["] ++
    separated (rows.map fun row => [quote] ++ row.map rampGlyph ++ [quote]) ++
    [utf8 "],\"checksum\":\"0x", hex (fnv rows.flatten), utf8 "\"\x7d"]
  | .fbchunk pid seq data =>
    [utf8 "\x7b\"id\":", decimal id, utf8 ",\"type\":\"fbchunk\",\"pid\":", Text.pid pid, utf8 ",\"untrusted\":true,\"seq\":",
      decimal seq, utf8 ",\"n\":", decimal data.length, utf8 ",\"data\":\""] ++ writeBase64 data ++ [utf8 "\"\x7d"]
  | .preempt pid causedBy =>
    [utf8 "\x7b\"id\":", decimal id, utf8 ",\"type\":\"sched\",\"action\":\"preempt\",\"pid\":", decimal pid.val,
      utf8 ",\"reason\":\"pending_input\",\"caused_by\":", decimal causedBy, utf8 "\x7d"]
  | .killed pid elapsed deadline causedBy =>
    [utf8 "\x7b\"id\":", decimal id, utf8 ",\"type\":\"payload_killed\",\"pid\":", decimal pid.val,
      utf8 ",\"reason\":\"deadline\",\"elapsed\":", decimal elapsed, utf8 ",\"deadline\":", decimal deadline,
      utf8 ",\"caused_by\":", decimal causedBy, utf8 "\x7d"]
  | .killedOperator pid elapsed causedBy =>
    [utf8 "\x7b\"id\":", decimal id, utf8 ",\"type\":\"payload_killed\",\"pid\":", decimal pid.val,
      utf8 ",\"reason\":\"operator\",\"elapsed\":", decimal elapsed, utf8 ",\"caused_by\":",
      if causedBy = 0 then utf8 "null" else decimal causedBy, utf8 "\x7d"]
  | .start pid name entry restored causedBy caps =>
    [utf8 "\x7b\"id\":", decimal id, utf8 ",\"type\":\"payload_start\",\"pid\":", decimal pid.val, utf8 ",\"name\":\"",
      utf8 name, utf8 "\",\"entry\":\"0x", hex entry, utf8 "\",\"restored\":", bool restored, utf8 ",\"caused_by\":",
      optional causedBy, utf8 ",\"caps\":"] ++ capsJson caps ++ [utf8 "\x7d"]
  | .snapshot pid number =>
    [utf8 "\x7b\"id\":", decimal id, utf8 ",\"type\":\"snapshot\",\"pid\":", decimal pid.val, utf8 ",\"snapshot\":",
      decimal number, utf8 "\x7d"]
  | .exit pid code causedBy =>
    [utf8 "\x7b\"id\":", decimal id, utf8 ",\"type\":\"payload_exit\",\"pid\":", decimal pid.val, utf8 ",\"code\":",
      signedDecimal code, utf8 ",\"caused_by\":", decimal causedBy, utf8 "\x7d"]
  | .loadFault pid name reason =>
    [utf8 "\x7b\"id\":", decimal id, utf8 ",\"type\":\"payload_load_fault\",\"pid\":", decimal pid.val, utf8 ",\"name\":\"",
      utf8 name, utf8 "\",\"reason\":\"", utf8 reason, utf8 "\"\x7d"]
  | .yield pid =>
    [utf8 "\x7b\"id\":", decimal id, utf8 ",\"type\":\"payload_yield\",\"pid\":", decimal pid.val, utf8 "\x7d"]
  | .spawn parent child name parentCaps requested granted =>
    [utf8 "\x7b\"id\":", decimal id, utf8 ",\"type\":\"payload_spawn\",\"parent\":", decimal parent.val,
      utf8 ",\"child\":", decimal child.val, utf8 ",\"name\":\"", utf8 name, utf8 "\",\"parent_caps\":"] ++
    capsJson parentCaps ++ [utf8 ",\"requested\":"] ++ capsJson requested ++ [utf8 ",\"granted\":"] ++ capsJson granted ++
    [utf8 ",\"attenuated\":", bool (requested ≠ granted), utf8 "\x7d"]
  | .suiteDone exits faults kills =>
    [utf8 "\x7b\"id\":", decimal id, utf8 ",\"type\":\"suite_done\",\"exited\":", decimal exits, utf8 ",\"faulted\":",
      decimal faults, utf8 ",\"killed\":", decimal kills, utf8 "\x7d"]
  | .ringDump count entries =>
    [utf8 "\x7b\"id\":", decimal id, utf8 ",\"type\":\"trap_ring\",\"count\":", decimal count, utf8 ",\"entries\":"] ++
    writeRing entries ++ [utf8 "\x7d"]
  | .rpc request reply =>
    [utf8 "\x7b\"id\":", decimal id, utf8 ",\"type\":\"rpc\",\"rpc\":"] ++ reply.pieces request ++ [utf8 "\x7d"]
  | .rpcTooLarge =>
    [utf8 "\x7b\"id\":", decimal id,
      utf8 (",\"type\":\"rpc\",\"rpc\":\x7b\"jsonrpc\":\"2.0\",\"id\":null,\"error\":\x7b\"code\":-32001," ++
        "\"message\":\"response too large\"\x7d\x7d\x7d")]

/-- The buffer `emit` sends. -/
def Event.frameBuf (id : Nat) (event : Event) : FrameBuf := FrameBuf.new.write (event.pieces id)

/-- The one-line report of `emit_fault_classic`. -/
def classicLine (frame : TrapFrame) (scause stval : Nat) (pid : Option Pid) : Bytes :=
  utf8 "[FAULT] " ++ utf8 (if pid.isSome then "payload" else "kernel") ++ utf8 " " ++ utf8 (causeName scause) ++
  utf8 " pc=0x" ++ hex frame.sepc.toNat ++ utf8 " stval=0x" ++ hex stval ++ utf8 " ra=0x" ++ hex (frame.regs TrapFrame.xRa).toNat ++
  utf8 " sp=0x" ++ hex (frame.regs TrapFrame.xSp).toNat ++ utf8 "\n"

end Kernai
