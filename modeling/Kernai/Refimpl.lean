import Mathlib.Data.List.Basic

/-! The degraded reference implementation (`refimpl/daemon.py`): a host process that speaks
the kernel's surface, with subprocesses for payloads. -/

namespace Kernai.Refimpl

/-- The `state` of a process entry. -/
inductive ProcState where
  | running
  | exited
  | faulted
  | killed
deriving DecidableEq, Repr

/-- An entry of `_procs`. -/
structure Proc where
  pid : Nat
  name : String
  state : ProcState
  exitCode : Int
deriving DecidableEq, Repr

/-- A workload: its name and its shell command. -/
structure Work where
  name : String
  sh : String
deriving DecidableEq, Repr

/-- The host: what the `call`-th call of `os.system` returns, the names in
`signal.Signals`, which raises where there is none, and `os.uname().machine`. -/
structure Host where
  system : (call : Nat) → (sh : String) → Int
  signals : Nat → Option String
  machine : String

inductive Answer where
  | initialized
  | tools
  | resources
  | spec (arch : String)
  | processes (procs : List Proc)
  | accepted (suite : String)
  | killed (pid : Int)
  | error (code : Int) (message : String)
deriving DecidableEq, Repr

/-- What `_emit` is given, but for the id that it adds. -/
inductive Event (Id : Type) where
  | hello
  | rpc (rid : Id) (answer : Answer)
  | payloadStart (pid : Nat) (name : String)
  | fault (pid : Nat) (causeName : String)
  | payloadExit (pid : Nat) (code : Int)
  | payloadKilled (pid : Int)
  | suiteDone (exited faulted killed : Nat)
deriving DecidableEq, Repr

/-- `run_suite` names a suite; `pid` is what `int` makes of the argument of `kill`, if
anything. -/
inductive ToolCall where
  | runSuite (suite : String)
  | kill (pid : Option Int)
  | unknown
deriving DecidableEq, Repr

inductive Method where
  | init
  | toolsList
  | resourcesList
  | resourcesRead (uri : Option String)
  | toolsCall (call : ToolCall)
  | unknown
deriving DecidableEq, Repr

structure Request (Id : Type) where
  rid : Id
  method : Method
deriving DecidableEq, Repr

/-- `raised` is set where an exception ends the daemon. `ran` is history: the workloads run so
far, each with what `os.system` returned. -/
structure Daemon (Id : Type) where
  id : Nat
  procs : List Proc
  out : List (Nat × Event Id)
  raised : Bool
  ran : List (Work × Int)
deriving DecidableEq, Repr

namespace Daemon

variable {Id : Type}

def emit (event : Event Id) (daemon : Daemon Id) : Daemon Id :=
  { daemon with id := daemon.id + 1, out := daemon.out ++ [(daemon.id, event)] }

def rpc (rid : Id) (answer : Answer) (daemon : Daemon Id) : Daemon Id := daemon.emit (.rpc rid answer)

/-- The daemon at the top of its loop. -/
def start : Daemon Id := emit .hello { id := 0, procs := [], out := [], raised := false, ran := [] }

def readResource (host : Host) (rid : Id) (uri : Option String) (daemon : Daemon Id) : Daemon Id :=
  if uri = some "spec" then daemon.rpc rid (.spec host.machine)
  else if uri = some "processes" then daemon.rpc rid (.processes daemon.procs)
  else daemon.rpc rid (.error (-32602) "unknown resource")

def hello : Work := ⟨"hello", "exit 0"⟩
def crasher : Work := ⟨"crasher", "kill -ILL $$"⟩

def workOf (suite : String) : List Work :=
  if suite = "e" then [hello, crasher] else if suite = "p" then [hello] else [hello]

def signalOf (code : Int) : Nat := (code % 128).toNat

/-- `self._procs[pid].update(state=…, exit_code=…)`. -/
def update (pid : Nat) (state : ProcState) (exitCode : Int) (daemon : Daemon Id) : Daemon Id :=
  { daemon with procs := daemon.procs.modify pid fun proc => { proc with state, exitCode } }

/-- The entry of a workload and its start. -/
def launch (pid : Nat) (work : Work) (daemon : Daemon Id) : Daemon Id :=
  emit (.payloadStart pid work.name)
    { daemon with procs := daemon.procs ++ [{ pid, name := work.name, state := .running, exitCode := 0 }] }

/-- The loop of `_run_suite` from a workload on. -/
def runWork (host : Host) : (pid : Nat) → List Work → (exited faulted : Nat) → Daemon Id → Daemon Id
  | _, [], exited, faulted, daemon => daemon.emit (.suiteDone exited faulted 0)
  | pid, work :: rest, exited, faulted, daemon =>
    let daemon := daemon.launch pid work
    let code := host.system daemon.ran.length work.sh
    let daemon := { daemon with ran := daemon.ran ++ [(work, code)] }
    let sig := signalOf code
    if sig ≠ 0 then
      let daemon := daemon.update pid .faulted (-(sig : Int))
      match host.signals sig with
      | none => { daemon with raised := true }
      | some causeName => runWork host (pid + 1) rest exited (faulted + 1) (daemon.emit (.fault pid causeName))
    else
      let daemon := daemon.update pid .exited (code / 256 % 256)
      let exitCode := (daemon.procs[pid]?.map (·.exitCode)).getD (0 : Int)
      runWork host (pid + 1) rest (exited + 1) faulted (daemon.emit (.payloadExit pid exitCode))

def runSuite (host : Host) (suite : String) (daemon : Daemon Id) : Daemon Id :=
  daemon.runWork host 0 (workOf suite) 0 0

/-- The first entry under this pid that says it runs. -/
def alive (pid : Int) (proc : Proc) : Bool := proc.pid = pid && proc.state = .running

def kill (rid : Id) (pid : Int) (daemon : Daemon Id) : Daemon Id :=
  match daemon.procs.findIdx? (alive pid) with
  | none => daemon.rpc rid (.error (-32602) "payload not alive")
  | some slot =>
    let daemon := { daemon with procs := daemon.procs.modify slot fun proc => { proc with state := .killed } }
    (daemon.emit (.payloadKilled pid)).rpc rid (.killed pid)

def toolsCall (host : Host) (rid : Id) (daemon : Daemon Id) : ToolCall → Daemon Id
  | .runSuite suite => (daemon.rpc rid (.accepted suite)).runSuite host suite
  | .kill none => { daemon with raised := true }
  | .kill (some pid) => daemon.kill rid pid
  | .unknown => daemon.rpc rid (.error (-32602) "unknown tool")

def dispatch (host : Host) (daemon : Daemon Id) (request : Request Id) : Daemon Id :=
  match request.method with
  | .init => daemon.rpc request.rid .initialized
  | .toolsList => daemon.rpc request.rid .tools
  | .resourcesList => daemon.rpc request.rid .resources
  | .resourcesRead uri => daemon.readResource host request.rid uri
  | .toolsCall call => daemon.toolsCall host request.rid call
  | .unknown => daemon.rpc request.rid (.error (-32601) "method not found")

/-- A turn of the loop in `run`; after an exception there is none. -/
def serve (host : Host) (daemon : Daemon Id) (request : Request Id) : Daemon Id :=
  if daemon.raised then daemon else daemon.dispatch host request

end Daemon
end Kernai.Refimpl
