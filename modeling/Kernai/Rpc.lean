import Kernai.Json
import Kernai.Traps

/-! The MCP control plane: the inbound frame reader, JSON-RPC dispatch and the
responders. A handler answers `none` when it returns to its caller, and where it
went when it does not. -/

namespace Kernai.Rpc
open Foundation Kernel Console Json Payload Traps

variable (build : Build)

def maxReq : Nat := 512
def maxStallWaits : Nat := 16

/-- `getc_stall` with this many idle waits left. -/
def getcFrom : (waits : Nat) → Kernel (Option UInt8)
  | 0 => consoleGetchar
  | waits + 1 => do
    match ← consoleGetchar with
    | some byte => return some byte
    | none => getcFrom waits

def getcStall : Kernel (Option UInt8) := do
  match ← getcFrom maxStallWaits with
  | some byte =>
    note (.used .request .framed byte)
    return some byte
  | none =>
    note .stalled
    return none

/-- Read this many bytes, or none if the line stalls first. -/
def readExactly : (count : Nat) → Kernel (Option Bytes)
  | 0 => return some []
  | count + 1 => do
    match ← getcStall with
    | none => return none
    | some byte =>
      match ← readExactly count with
      | none => return none
      | some rest => return some (byte :: rest)

def emitRpc (request : RpcId) (reply : State → Reply) : Kernel Unit :=
  withoutInterrupts do
    let serial ← nextId
    let reply ← Program.read reply
    if ((Event.rpc request reply).frameBuf (idOf serial)).overflow then send serial .rpcTooLarge
    else send serial (.rpc request reply)

def respondResult (request : RpcId) (result : State → Result) : Kernel (Option Next) := do
  emitRpc request fun state => .result (result state)
  return none

def respondError (request : RpcId) (code : Int) (message : String) : Kernel (Option Next) := do
  emitRpc request fun _ => .error code message
  return none

/-- `write_id`: a JSON string, a strict JSON integer, or null. -/
def requestId (raw : Bytes) : RpcId :=
  let raw := trim raw
  match asString raw with
  | some inner => .text inner
  | none =>
    let digits := if raw.head? = some 0x2d then raw.tail else raw
    if digits ≠ [] ∧ digits.all isDigit then .integer raw else .null

def opSlots : Nat := 8
def fnv1a (op : Bytes) : Nat := Text.fnv op ||| 1

def opRecord (hash : Nat) (core : Core) : Core :=
  { core with opIds := core.opIds.set (core.opHead % opSlots) hash, opHead := core.opHead + 1 }

/-- The idempotency check of the mutating tools: true for a replayed `opId`,
else the id is remembered. -/
def opSeen (op : Option Bytes) (core : Core) : Bool × Core :=
  match op with
  | none => (false, core)
  | some op => if core.opIds.contains (fnv1a op) then (true, core)
    else (false, opRecord (fnv1a op) (core.note (.recorded op)))

def respondDuplicate (request : RpcId) (op : Option Bytes) : Kernel (Option Next) := do
  note (.answered op .duplicate)
  respondResult request fun _ => .duplicate (op.getD [])

def suiteNamed (name : Bytes) : Option Suite :=
  if name = utf8 "p" ∨ name = utf8 "m3" then some seedSuiteM3
  else if name = utf8 "m" ∨ name = utf8 "m4" then some seedSuiteM4
  else if name = utf8 "i" ∨ name = utf8 "m5" then some seedSuiteM5
  else if name = utf8 "f" ∨ name = utf8 "m6" then some seedSuiteM6
  else if name = utf8 "d" ∨ name = utf8 "m10" then some seedSuiteM10
  else if name = utf8 "e" ∨ name = utf8 "eval" then some seedSuiteEval
  else if name = utf8 "l" ∨ name = utf8 "e2" then some seedSuiteE2
  else if name = utf8 "e7" then some seedSuiteE7
  else if name = utf8 "e5" then some seedSuiteE5
  else if build.cpayloads ∧ (name = utf8 "c" ∨ name = utf8 "craycast") then some seedSuiteCraycast
  else if build.doom ∧ (name = utf8 "D" ∨ name = utf8 "doom") then some seedSuiteDoom
  else if build.doom ∧ name = utf8 "doomfork" then some seedSuiteDoomFork
  else none

def member (obj : Bytes) (key : String) : Option Bytes := objectGet obj (utf8 key)

def argumentsOf (params : Bytes) : Bytes := (member params "arguments").getD [0x7b, 0x7d]

def busy (request : RpcId) : Kernel (Option Next) := respondError request (-32002) "busy: payloads active"

def runSuite (request : RpcId) (op : Option Bytes) (params : Bytes) : Kernel (Option Next) := do
  let name := ((member (argumentsOf params) "suite").bind asString).getD []
  match suiteNamed build name with
  | none => respondError request (-32602) "unknown suite"
  | some suite =>
    if ← readCore anyAlive then busy request
    else if ← onCore (opSeen op) then respondDuplicate request op
    else
      note (.answered op .done)
      let _ ← respondResult request fun _ => .accepted name
      return some (.seed suite)

def crash (request : RpcId) (op : Option Bytes) : Kernel (Option Next) := do
  if ← readCore anyAlive then busy request
  else if ← onCore (opSeen op) then respondDuplicate request op
  else
    note (.answered op .done)
    let _ ← respondResult request fun _ => .crashing
    return some .crash

def kill (request : RpcId) (op : Option Bytes) (params : Bytes) : Kernel (Option Next) := do
  match (member (argumentsOf params) "pid").bind parseU32 with
  | none => respondError request (-32602) "missing pid"
  | some pid =>
    if ← onCore (opSeen op) then respondDuplicate request op
    else
      match ← killPid build pid with
      | .ok elapsed =>
        note (.answered op .done)
        respondResult request fun _ => .killed pid elapsed
      | .error reason =>
        note (.answered op .refused)
        respondError request (-32602) reason

def setBudget (request : RpcId) (op : Option Bytes) (params : Bytes) : Kernel (Option Next) := do
  match (member (argumentsOf params) "pid").bind parseU32 with
  | none => respondError request (-32602) "missing pid"
  | some pid =>
    match (member (argumentsOf params) "deadline").bind parseU32 with
    | none => respondError request (-32602) "missing deadline"
    | some deadline =>
      if ← onCore (opSeen op) then respondDuplicate request op
      else
        match ← onCore (setDeadline pid deadline) with
        | .ok () =>
          note (.answered op .done)
          respondResult request fun _ => .budgetSet pid deadline
        | .error reason =>
          note (.answered op .refused)
          respondError request (-32602) reason

/-- The mode argument of `set_surface` and `set_autonomy`. -/
def modeOf (params : Bytes) : Option Bytes := (member (argumentsOf params) "mode").bind asString

def setSurface (request : RpcId) (params : Bytes) : Kernel (Option Next) := do
  let mode := modeOf params
  if mode = some (utf8 "classic") then
    modifyCore fun core => { core with classicSurface := true }
    respondResult request fun _ => .surface true
  else if mode = some (utf8 "agentic") then
    modifyCore fun core => { core with classicSurface := false }
    respondResult request fun _ => .surface false
  else respondError request (-32602) "mode must be classic|agentic"

def setAutonomy (request : RpcId) (params : Bytes) : Kernel (Option Next) := do
  let mode := modeOf params
  if mode = some (utf8 "autonomous") then
    modifyCore fun core => { core with autonomous := true }
    respondResult request fun _ => .autonomy true
  else if mode = some (utf8 "reactive") then
    modifyCore fun core => { core with autonomous := false }
    respondResult request fun _ => .autonomy false
  else respondError request (-32602) "mode must be reactive|autonomous"

def respondRing (request : RpcId) : Kernel (Option Next) :=
  respondResult request fun state => .ring state.env.ringCount (ringEntries state.env)

def paramsOf (json : Bytes) : Bytes := (member json "params").getD [0x7b, 0x7d]

def handleToolsCall (request : RpcId) (json : Bytes) : Kernel (Option Next) :=
  let params := paramsOf json
  let op := (member params "opId").bind asString
  match (member params "name").bind asString with
  | none => respondError request (-32602) "missing tool name"
  | some name =>
    if name = utf8 "run_suite" then runSuite build request op params
    else if name = utf8 "crash" then crash request op
    else if name = utf8 "kill" then kill build request op params
    else if name = utf8 "set_budget" then setBudget request op params
    else if name = utf8 "ring_read" then respondRing request
    else if name = utf8 "set_surface" then setSurface request params
    else if name = utf8 "set_autonomy" then setAutonomy request params
    else respondError request (-32602) "unknown tool"

def digestOf (budget : Nat) (state : State) : Result :=
  .digest budget state.core.autonomous state.env.ticks state.env.ecallTraps state.env.faultTraps state.env.ringCount
    (digestItems state.env budget)

def handleResourcesRead (request : RpcId) (json : Bytes) : Kernel (Option Next) :=
  let params := paramsOf json
  match (member params "uri").bind asString with
  | none => respondError request (-32602) "missing uri"
  | some uri =>
    if uri = utf8 "trap_ring" then respondRing request
    else if uri = utf8 "processes" then respondResult request fun state => .processes (processRows state.core)
    else if uri = utf8 "spec" then respondResult request fun _ => .spec build.doom
    else if uri = utf8 "surface" then respondResult request fun state => .surface state.core.classicSurface
    else if uri = utf8 "autonomy" then respondResult request fun state => .autonomy state.core.autonomous
    else if uri = utf8 "memory" then respondResult request fun state =>
      .memory (Frames.stats state.core.phys).1 (Frames.stats state.core.phys).2
    else if uri = utf8 "digest" then
      respondResult request (digestOf (min (((member params "budget").bind parseU32).getD 4) 64))
    else respondError request (-32602) "unknown resource"

def dispatch (json : Bytes) : Kernel (Option Next) :=
  let request := requestId ((member json "id").getD (utf8 "null"))
  match (member json "method").bind asString with
  | none => respondError request (-32600) "missing method"
  | some method =>
    if method = utf8 "initialize" then respondResult request fun _ => .serverInfo
    else if method = utf8 "tools/list" then respondResult request fun _ => .toolsList
    else if method = utf8 "tools/call" then handleToolsCall build request json
    else if method = utf8 "resources/list" then respondResult request fun _ => .resourcesList
    else if method = utf8 "resources/read" then handleResourcesRead build request json
    else respondError request (-32601) "method not found"

/-- `read_request` up to its call of `dispatch`. -/
def readBody : Kernel (Option Bytes) := do
  if (← getcStall) = some 0x99 then
    match ← readExactly 4 with
    | none => return none
    | some lenb =>
      let len := Memory.littleEndian (fun i => lenb.getD i 0) 4
      if len = 0 ∨ len > maxReq then return none
      else
        match ← readExactly len with
        | none => return none
        | some json => return if validUtf8 json ∧ (trimStart json).head? = some 0x7b then some json else none
  else return none

/-- Hand the request over, if there is one. -/
def dispatchBody (body : Option Bytes) : Kernel (Option Next) :=
  match body with
  | none => return none
  | some json => do
    note (.dispatched json)
    dispatch build json

def readRequest : Kernel (Option Next) := do
  modifyCore (·.call .request)
  let next ← dispatchBody build (← readBody)
  modifyCore fun core => if next.isNone then core.return else core
  return next

end Kernai.Rpc
