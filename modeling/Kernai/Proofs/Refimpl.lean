import Mathlib.Data.List.Forall2
import Kernai.Refimpl

/-! What the reference daemon's process table says of the workloads it has run. Entries are
appended to a table that is never cleared, but a suite updates them by its own numbering. -/

namespace Kernai.Refimpl
open Daemon

variable {Id : Type} {host : Host} {daemon : Daemon Id}

/-- The state and the exit code that a result of `os.system` stands for. -/
def outcome (code : Int) : ProcState × Int :=
  if signalOf code ≠ 0 then (.faulted, -(signalOf code : Int)) else (.exited, code / 256 % 256)

theorem outcome_terminal (code : Int) : (outcome code).1 ≠ .running := by
  unfold outcome
  split <;> nofun

/-- The entry is of this workload and tells its outcome. -/
def Proc.Tells (proc : Proc) (run : Work × Int) : Prop :=
  proc.name = run.1.name ∧ (proc.state, proc.exitCode) = outcome run.2

/-- Nothing has been killed, and entry by entry the table tells what became of the
workloads run so far. -/
structure Truthful (daemon : Daemon Id) : Prop where
  entries : List.Forall₂ Proc.Tells daemon.procs daemon.ran
  spared : ∀ sent ∈ daemon.out, ∀ pid, sent.2 ≠ .payloadKilled pid

theorem Truthful.terminal (truthful : Truthful daemon) : ∀ proc ∈ daemon.procs, proc.state ≠ .running := by
  have each := truthful.entries
  generalize daemon.procs = procs, daemon.ran = ran at each
  induction each with
  | nil => nofun
  | @cons proc run procs ran told _ ih =>
    have ended : proc.state ≠ .running := by
      rw [show proc.state = (outcome run.2).1 from congrArg Prod.fst told.2]
      exact outcome_terminal run.2
    exact List.forall_mem_cons.mpr ⟨ended, ih⟩

theorem Truthful.emit (truthful : Truthful daemon) {event : Event Id} (other : ∀ pid, event ≠ .payloadKilled pid) :
    Truthful (daemon.emit event) := by
  refine ⟨truthful.entries, fun sent member => ?_⟩
  rcases List.mem_append.mp member with old | new
  · exact truthful.spared sent old
  · obtain rfl := List.mem_singleton.mp new
    exact other

theorem Truthful.rpc (truthful : Truthful daemon) (rid : Id) (answer : Answer) : Truthful (daemon.rpc rid answer) :=
  truthful.emit nofun

/-- The new entry is the one at the end. -/
theorem modify_last (procs : List Proc) (proc : Proc) (change : Proc → Proc) :
    (procs ++ [proc]).modify procs.length change = procs ++ [change proc] := by
  induction procs with
  | nil => rfl
  | cons first rest ih => exact congrArg (first :: ·) ih

/-- The daemon once a workload has been run and its result written to the table. -/
def settled (pid : Nat) (work : Work) (code : Int) (daemon : Daemon Id) : Daemon Id :=
  update pid (outcome code).1 (outcome code).2 { daemon.launch pid work with ran := daemon.ran ++ [(work, code)] }

/-- A turn of the loop of `_run_suite`. -/
theorem runWork_cons (host : Host) (pid : Nat) (work : Work) (rest : List Work) (exited faulted : Nat) (daemon : Daemon Id) :
    let done := settled pid work (host.system daemon.ran.length work.sh) daemon
    daemon.runWork host pid (work :: rest) exited faulted = { done with raised := true } ∨
      ∃ event exited' faulted', (∀ other, event ≠ .payloadKilled other) ∧
        daemon.runWork host pid (work :: rest) exited faulted =
          (done.emit event).runWork host (pid + 1) rest exited' faulted' := by
  intro done
  have isDone : done = settled pid work (host.system daemon.ran.length work.sh) daemon := rfl
  clear_value done
  have same : (daemon.launch pid work).ran.length = daemon.ran.length := rfl
  rw [runWork]
  dsimp only
  rw [same]
  split
  · next fault =>
    rw [settled, outcome, if_pos fault] at isDone
    split
    · exact .inl (congrArg (fun daemon : Daemon Id => { daemon with raised := true }) isDone.symm)
    · next causeName _ => exact .inr ⟨.fault pid causeName, exited, faulted + 1, nofun, by rw [isDone]; rfl⟩
  · next clean =>
    rw [settled, outcome, if_neg clean] at isDone
    exact .inr ⟨.payloadExit pid _, exited + 1, faulted, nofun, by rw [isDone]; rfl⟩

/-- A workload whose number in its suite is its place in the table. -/
theorem Truthful.settled (truthful : Truthful daemon) (work : Work) (code : Int) :
    Truthful (settled daemon.procs.length work code daemon) := by
  have started : Truthful (Daemon.emit (.payloadStart daemon.procs.length work.name) daemon) := truthful.emit nofun
  refine ⟨?_, started.spared⟩
  dsimp only [Refimpl.settled, update, launch, Daemon.emit]
  rw [modify_last]
  exact List.rel_append truthful.entries (.cons ⟨rfl, rfl⟩ .nil)

theorem settled_length (pid : Nat) (work : Work) (code : Int) (daemon : Daemon Id) :
    (settled pid work code daemon).procs.length = daemon.procs.length + 1 := by
  simp [settled, update, launch, emit]

theorem Truthful.runWork (work : List Work) : ∀ (pid exited faulted : Nat) (daemon : Daemon Id), Truthful daemon →
    daemon.procs.length = pid → Truthful (daemon.runWork host pid work exited faulted) := by
  induction work with
  | nil => exact fun _ _ _ _ truthful _ => truthful.emit nofun
  | cons work rest ih =>
    intro pid exited faulted daemon truthful aligned
    subst aligned
    have done := truthful.settled work (host.system daemon.ran.length work.sh)
    rcases runWork_cons host daemon.procs.length work rest exited faulted daemon with raises | ⟨event, _, _, other, goesOn⟩
    · rw [raises]
      exact ⟨done.entries, done.spared⟩
    · rw [goesOn]
      exact ih _ _ _ _ (done.emit other) (settled_length ..)

/-- With a table that tells the truth there is nothing to kill. -/
theorem Truthful.kill (truthful : Truthful daemon) (rid : Id) (pid : Int) :
    daemon.kill rid pid = daemon.rpc rid (.error (-32602) "payload not alive") := by
  have none : daemon.procs.findIdx? (alive pid) = none := by
    refine List.findIdx?_eq_none_iff.mpr fun proc member => ?_
    simp [alive, truthful.terminal proc member]
  rw [Daemon.kill, none]

/-- The suite asked for, if any, is the first. -/
def FirstSuite (daemon : Daemon Id) (request : Request Id) : Prop :=
  ∀ suite, request.method = .toolsCall (.runSuite suite) → daemon.ran = []

theorem Truthful.dispatch (truthful : Truthful daemon) {request : Request Id} (first : FirstSuite daemon request) :
    Truthful (daemon.dispatch host request) := by
  obtain ⟨rid, method⟩ := request
  cases method with
  | resourcesRead uri =>
    dsimp only [Daemon.dispatch, readResource]
    split
    · exact truthful.rpc ..
    split <;> exact truthful.rpc ..
  | toolsCall call =>
    cases call with
    | runSuite suite =>
      have none : daemon.procs = [] := by
        have entries := truthful.entries
        rw [first suite rfl] at entries
        exact List.forall₂_nil_right_iff.mp entries
      exact Truthful.runWork _ _ _ _ _ (truthful.rpc ..) (congrArg List.length none)
    | kill pid =>
      cases pid with
      | none => exact ⟨truthful.entries, truthful.spared⟩
      | some pid =>
        dsimp only [Daemon.dispatch, toolsCall]
        rw [truthful.kill]
        exact truthful.rpc ..
    | unknown => exact truthful.rpc ..
  | _ => exact truthful.rpc ..

/-- The daemon after requests that all meet the condition. -/
inductive Serves (host : Host) (meets : Daemon Id → Request Id → Prop) : Daemon Id → Prop where
  | start : Serves host meets .start
  | serve {daemon : Daemon Id} {request : Request Id} (before : Serves host meets daemon) (met : meets daemon request) :
      Serves host meets (daemon.serve host request)

theorem Serves.truthful (serves : Serves host FirstSuite daemon) : Truthful daemon := by
  induction serves with
  | start =>
    refine Truthful.emit ⟨.nil, ?_⟩ nofun
    nofun
  | serve _ met truthful =>
    unfold Daemon.serve
    split
    · exact truthful
    · exact truthful.dispatch met

/-- At most one suite a boot: whatever is asked, no entry says that it runs, the entries tell
the outcomes of the workloads run, and every kill is refused without a report. -/
theorem process_table_truthful (serves : Serves host FirstSuite daemon) :
    (∀ proc ∈ daemon.procs, proc.state ≠ .running) ∧
    List.Forall₂ Proc.Tells daemon.procs daemon.ran ∧
    (∀ rid pid, daemon.raised = false → daemon.serve host ⟨rid, .toolsCall (.kill (some pid))⟩ =
      daemon.rpc rid (.error (-32602) "payload not alive")) ∧
    ∀ sent ∈ daemon.out, ∀ pid, sent.2 ≠ .payloadKilled pid := by
  have truthful := serves.truthful
  refine ⟨truthful.terminal, truthful.entries, fun rid pid goesOn => ?_, truthful.spared⟩
  rw [Daemon.serve, goesOn]
  exact truthful.kill rid pid

/-- A suite that is not the first leaves its last entry running: the entry was appended behind
the one it updates. -/
theorem runWork_stale (work : List Work) : ∀ (pid exited faulted : Nat) (daemon : Daemon Id), work ≠ [] →
    pid < daemon.procs.length →
    ∃ proc ∈ (daemon.runWork host pid work exited faulted).procs.getLast?, proc.state = .running := by
  induction work with
  | nil => nofun
  | cons work rest ih =>
    intro pid exited faulted daemon _ behind
    have length := settled_length pid work (host.system daemon.ran.length work.sh) daemon
    have last : ∃ proc ∈ (settled pid work (host.system daemon.ran.length work.sh) daemon).procs.getLast?,
        proc.state = .running := by
      refine ⟨⟨pid, work.name, .running, 0⟩, ?_, rfl⟩
      simp [settled, update, launch, emit, List.getLast?_eq_getElem?, Nat.ne_of_lt behind]
    rcases runWork_cons host pid work rest exited faulted daemon with raises | ⟨event, _, _, -, goesOn⟩
    · rw [raises]
      exact last
    · rw [goesOn]
      cases rest with
      | nil => exact last
      | cons next rest => exact ih _ _ _ _ nofun (by rw [emit, length]; omega)

theorem later_suite_stale (used : daemon.procs ≠ []) (suite : String) :
    ¬ ∀ proc ∈ (daemon.runSuite host suite).procs, proc.state ≠ .running := by
  have some : workOf suite ≠ [] := by
    unfold workOf
    split
    · nofun
    split <;> nofun
  obtain ⟨proc, isLast, running⟩ := runWork_stale (workOf suite) 0 0 0 daemon some (List.length_pos_iff.mpr used)
  exact fun ended => ended proc (List.mem_of_getLast? isLast) running

/-- A host on which the commands do what they say, and the second one run exits with 1. -/
def sampleHost : Host where
  system := fun call sh => if sh = crasher.sh then 4 else if call = 1 then 256 else 0
  signals := fun sig => if sig = 4 then some "SIGILL" else none
  machine := "x86_64"

def runs (suite : String) : Request Nat := ⟨0, .toolsCall (.runSuite suite)⟩

/-- The table after a crash. -/
theorem process_table_truthful_crash :
    ⟨1, "crasher", .faulted, -4⟩ ∈ (Daemon.start.serve sampleHost (runs "e")).procs ∧
      ¬ ∃ proc ∈ (Daemon.start.serve sampleHost (runs "e")).procs, proc.state = .running := by
  have serves : Serves sampleHost FirstSuite (Daemon.start.serve sampleHost (runs "e")) := .serve .start fun _ _ => rfl
  obtain ⟨ended, -⟩ := process_table_truthful serves
  exact ⟨by decide +kernel, fun ⟨proc, member, running⟩ => ended proc member running⟩

/-- Two suites in one boot: the second suite's result is written to the first one's entry, its
own entry runs for ever, and a kill finds it there. -/
theorem second_suite_untruthful :
    let daemon := (Daemon.start.serve sampleHost (runs "p")).serve sampleHost (runs "p")
    (8, .suiteDone 1 0 0) ∈ daemon.out ∧
    daemon.procs = [⟨0, "hello", .exited, 1⟩, ⟨0, "hello", .running, 0⟩] ∧ daemon.ran = [(hello, 0), (hello, 256)] ∧
    (daemon.serve sampleHost ⟨0, .toolsCall (.kill (some 0))⟩).out =
      daemon.out ++ [(9, .payloadKilled 0), (10, .rpc 0 (.killed 0))] := by
  decide +kernel

end Kernai.Refimpl
