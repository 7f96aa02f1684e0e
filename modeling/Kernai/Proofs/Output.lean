import Kernai.Proofs.Stream

/-! `write`: what a payload says reaches the host as data, whole and under its own name. -/

namespace Kernai
open Foundation Rfc8259 Program Kernel Payload Console Machine Traps Mm

variable {build : Build} {state after : State} {config : Config} {context : TrapFrame} {pid : Pid} {root ptr len : Nat} {data : Bytes}

section Syscalls

/-- The state in which the handler comes to serve a system call. -/
def calledFrom (context : TrapFrame) (state : State) : State :=
  noted context Text.causeUEcall 0 (setSie (noteUser state context) false)

/-- The trap itself changes nothing that a system call looks at. -/
theorem calledFrom_same (context : TrapFrame) (state : State) :
    (calledFrom context state).core.phys = state.core.phys ∧ (calledFrom context state).core.current = state.core.current ∧
      (∀ pid, ((calledFrom context state).core.table pid).root = (state.core.table pid).root ∧
        ((calledFrom context state).core.table pid).caps = (state.core.table pid).caps ∧
        ((calledFrom context state).core.table pid).startEvent = (state.core.table pid).startEvent) ∧
      (calledFrom context state).env.log = state.env.log := by
  have quiet := (noted_emits context Text.causeUEcall 0 (setSie (noteUser state context) false)).1
  have log : (calledFrom context state).env.log = (noteUser state context).env.log := by
    have logs := quiet.logs.log
    rwa [List.append_nil] at logs
  have core : (calledFrom context state).core = (noteUser state context).core := quiet.core
  rw [log, core]
  unfold noteUser
  split
  · refine ⟨rfl, rfl, fun pid => ?_, rfl⟩
    simp only [setSlot]
    split <;> exact ⟨rfl, rfl, rfl⟩
  · exact ⟨rfl, rfl, fun _ => ⟨rfl, rfl, rfl⟩, rfl⟩

/-- A system call that returns: the payload goes on behind the `ecall` with the value in `a0`. -/
theorem userTrap_resumes (user : UserContext context) {value : Int}
    (serves : (Syscall.dispatch build context.advancePastEcall).run (calledFrom context config.state) = (.resume value, after)) :
    userTrap build config context Text.causeUEcall 0 =
      { config with hart := .user (context.advancePastEcall.setA0 (.ofInt value)), state := setSie after true } := by
  have handled : (handle build context Text.causeUEcall 0).run (setSie (noteUser config.state context) false) =
      (some (context.advancePastEcall.setA0 (.ofInt value)), after) := by
    rw [handle_run, if_neg (by decide), if_pos rfl, Program.run_map]
    change (some ((handleEcall build context).run (calledFrom context config.state)).1,
      ((handleEcall build context).run (calledFrom context config.state)).2) = _
    unfold handleEcall
    simp only [run_bind, serves, run_pure]
  have status : (context.advancePastEcall.setA0 (.ofInt value)).sstatus = context.sstatus := rfl
  have isUser : (context.advancePastEcall.setA0 (.ofInt value)).isFromUser = true := user.isFromUser
  unfold userTrap trap
  dsimp only
  rw [handled]
  unfold trapReturn
  simp only [isUser, if_true, status, user.enabled, user.status]
  rfl

end Syscalls

section Texts

/-- The members of a `payload_output` event. -/
def outputFields (id : Nat) (pid : Option Pid) (causedBy : Nat) (data : Bytes) : List Field :=
  payloadFields id (utf8 "payload_output") pid ++
    [⟨utf8 "caused_by", decimal causedBy, .number (decimal causedBy), plain_of_all (by decide)⟩,
    ⟨utf8 "len", decimal data.length, .number (decimal data.length), plain_of_all (by decide)⟩,
    dataField (jsonEscapedBytes data).flatten (ascii data)]

theorem output_text (id : Nat) (pid : Option Pid) (causedBy : Nat) (data : Bytes) : (Event.output pid causedBy data).text id =
    0x7b :: (commas ((outputFields id pid causedBy data).map Field.spell) ++ [0x7d]) := by
  have opening : utf8 "\x7b\"id\":" = 0x7b :: (quoted (utf8 "id") ++ [0x3a]) := by decide
  have kind : utf8 ",\"type\":\"payload_output\",\"pid\":" =
      0x2c :: (quoted (utf8 "type") ++ 0x3a :: (quoted (utf8 "payload_output") ++ 0x2c :: (quoted (utf8 "pid") ++ [0x3a]))) := by
    decide
  have mark : utf8 ",\"untrusted\":true,\"caused_by\":" =
      0x2c :: (quoted (utf8 "untrusted") ++ 0x3a :: (utf8 "true" ++ 0x2c :: (quoted (utf8 "caused_by") ++ [0x3a]))) := by decide
  have count : utf8 ",\"len\":" = 0x2c :: (quoted (utf8 "len") ++ [0x3a]) := by decide
  have body : utf8 ",\"data\":\"" = 0x2c :: (quoted (utf8 "data") ++ [0x3a, 0x22]) := by decide
  have closing : utf8 "\"\x7d" = [0x22, 0x7d] := by decide
  simp only [Event.text, Event.pieces, List.flatten_append, opening, kind, mark, count, body, closing]
  simp [outputFields, payloadFields, dataField, Field.spell, commas, quoted]

theorem reads_output (id : Nat) (pid : Option Pid) (causedBy : Nat) (data : Bytes) :
    Reads ((Event.output pid causedBy data).text id)
      (.object ((outputFields id pid causedBy data).map fun field => (ascii field.key, field.value))) := by
  rw [output_text]
  refine reads_fields _ fun field member => ?_
  simp only [outputFields, List.mem_append, List.mem_cons, List.not_mem_nil, or_false] at member
  rcases member with heading | rfl | rfl | rfl
  · exact reads_payloadFields id (plain_of_all (by decide)) pid field heading
  · exact reads_decimal causedBy
  · exact reads_decimal _
  · exact .string (chars_jsonEscapedBytes data)

theorem jsonEscapedBytes_length (data : Bytes) : (jsonEscapedBytes data).flatten.length ≤ 6 * data.length := by
  induction data with
  | nil => exact Nat.le_refl _
  | cons byte data ih =>
    have split : (jsonEscapedBytes (byte :: data)).flatten =
        (jsonEscapedBytes [byte]).flatten ++ (jsonEscapedBytes data).flatten := by simp [jsonEscapedBytes]
    have one : (jsonEscapedBytes [byte]).flatten.length ≤ 6 := by
      have each : ∀ n : Fin 256, (jsonEscapedBytes [UInt8.ofNat n]).flatten.length ≤ 6 := by decide +kernel
      simpa using each byte.toFin
    rw [split, List.length_append, List.length_cons]
    omega

/-- The longest output fits, whatever its bytes are. -/
theorem output_fits {id causedBy : Nat} (small : id < 2 ^ 64) (word : causedBy < 2 ^ 64) (pid : Option Pid)
    (short : data.length ≤ writeQuota) : ((Event.output pid causedBy data).text id).length ≤ capacity := by
  have isId := decimal_word small
  have isCause := decimal_word word
  have isPid := pid_word pid
  have quota : data.length ≤ 256 := short
  have isCount : (decimal data.length).length ≤ 3 := decimal_length (by decide) (by omega)
  have body := jsonEscapedBytes_length data
  have literals : (utf8 "\x7b\"id\":").length + (utf8 ",\"type\":\"payload_output\",\"pid\":").length +
      (utf8 ",\"untrusted\":true,\"caused_by\":").length + (utf8 ",\"len\":").length + (utf8 ",\"data\":\"").length +
      (utf8 "\"\x7d").length ≤ 100 := by decide
  have room : capacity = 2048 := rfl
  simp only [Event.text, Event.pieces, List.flatten_append, List.flatten_cons, List.flatten_nil, List.length_append,
    List.length_nil]
  omega

end Texts

section Write

def Emission.isOutput : Emission → Prop
  | .frame _ (.output ..) => True
  | _ => False

theorem sysWrite_done (permitted : currentHas state.core .write = true) (space : currentSpace state.core = some root)
    (copied : copyFromUser state.core.phys root ptr (min len writeQuota) = some data) (size : data.length = min len writeQuota)
    (current : state.core.current = some pid) : (Syscall.sysWrite ptr len).run state =
      (↑(min len writeQuota), reported (.output (some pid) (state.core.table pid).startEvent.toNat data) state) := by
  have event : Event.output (numbered state).core.current ((currentCause (numbered state).core).getD 0) data =
      .output (some pid) (state.core.table pid).startEvent.toNat data := by
    have same : (numbered state).core = state.core := rfl
    simp [same, currentCause, current]
  have fits : ((Event.output (numbered state).core.current ((currentCause (numbered state).core).getD 0) data).frameBuf
      (idOf state.env.serial)).overflow = false := by
    rw [event]
    refine (Event.fits_iff _ _).mpr (output_fits (idOf_lt _) (UInt64.toNat_lt _) _ ?_)
    rw [size]
    exact Nat.min_le_right ..
  have emitted : (emit fun state => .output state.core.current ((currentCause state.core).getD 0) data).run state =
      ((), reported (.output (some pid) (state.core.table pid).startEvent.toNat data) state) := by
    rw [← event]
    exact emitted_run (fun _ state => .output state.core.current ((currentCause state.core).getD 0) data) fits
  have quota : min (min len writeQuota) writeQuota = min len writeQuota := by omega
  unfold Syscall.sysWrite emitOutput
  simp only [run_bind, run_pure, readCore_run, permitted, if_true, space, Option.bind_some, quota, copied, emitted]

theorem sysWrite_unreadable (permitted : currentHas state.core .write = true) (space : currentSpace state.core = some root)
    (refused : copyFromUser state.core.phys root ptr (min len writeQuota) = none) :
    (Syscall.sysWrite ptr len).run state = (efault, state) := by
  unfold Syscall.sysWrite emitOutput
  simp [run_bind, permitted, space, refused]

theorem sysWrite_denied (refused : currentHas state.core .write = false) (ptr len : Nat) :
    ((Syscall.sysWrite ptr len).run state).1 = enocap ∧ ∃ more, Emits state ((Syscall.sysWrite ptr len).run state).2 more ∧
      ∀ entry ∈ more, ¬ entry.what.isOutput := by
  unfold Syscall.sysWrite emitDenied
  simp only [run_bind, readCore_run, refused, Bool.false_eq_true, if_false, run_pure]
  obtain ⟨more, emits, -, only⟩ := emit_emits (fun state => .denied state.core.current "write" "write") state
  refine ⟨trivial, more, emits, fun entry member => ?_⟩
  obtain ⟨serial, seen, -, rfl⟩ := only entry member
  exact id

/-- A `write` is accepted from a payload that may write and can read what it passes. -/
theorem sysWrite_cases (current : state.core.current = some pid) (hasRoot : (state.core.table pid).root ≠ 0)
    (tree : Tree state.core.phys (state.core.table pid).root) (ptr len : Nat) :
    ((state.core.table pid).has .write ∧ ∃ data, data.length = min len writeQuota ∧
      Holds state.core.phys (state.core.table pid).root ptr data ∧ (Syscall.sysWrite ptr len).run state =
        (↑(min len writeQuota), reported (.output (some pid) (state.core.table pid).startEvent.toNat data) state)) ∨
    ((¬ (state.core.table pid).has .write ∨ ∃ i < min len writeQuota, ∀ byte,
        ¬ Readable state.core.phys (state.core.table pid).root ((ptr + i) % 2 ^ 64) byte) ∧
      ((Syscall.sysWrite ptr len).run state).1 < 0 ∧
      ∃ more, Emits state ((Syscall.sysWrite ptr len).run state).2 more ∧ ∀ entry ∈ more, ¬ entry.what.isOutput) := by
  have space : currentSpace state.core = some (state.core.table pid).root := by simp [currentSpace, current, hasRoot]
  cases permitted : currentHas state.core .write with
  | true =>
    cases copied : copyFromUser state.core.phys (state.core.table pid).root ptr (min len writeQuota) with
    | some data =>
      obtain ⟨size, bytes⟩ := tree.copyFrom_some (Nat.sub_le ..) copied
      refine .inl ⟨currentHas_some current permitted, data, size, fun i inside => ?_,
        sysWrite_done permitted space copied size current⟩
      simpa using bytes i (size ▸ inside)
    | none =>
      obtain ⟨i, inside, blocked⟩ := tree.copyFrom_none (Nat.sub_le ..) copied
      rw [sysWrite_unreadable permitted space copied]
      exact .inr ⟨.inr ⟨i, inside, by simpa using blocked⟩, (by decide : efault < 0), [], .refl state, List.forall_mem_nil _⟩
  | false =>
    obtain ⟨isValue, silent⟩ := sysWrite_denied permitted ptr len
    refine .inr ⟨.inl ?_, by rw [isValue]; decide, silent⟩
    simpa [currentHas, current, Slot.has] using permitted

theorem dispatch_write (build : Build) (isWrite : context.a7 = 1) (state : State) :
    (Syscall.dispatch build context.advancePastEcall).run state =
      (.resume ((Syscall.sysWrite context.a0.toNat context.a1.toNat).run state).1,
        ((Syscall.sysWrite context.a0.toNat context.a1.toNat).run state).2) := by
  have number : context.advancePastEcall.a7.toNat = 1 := by
    change context.a7.toNat = 1
    rw [isWrite]
    rfl
  unfold Syscall.dispatch
  dsimp only
  rw [number]
  exact run_map ..

/-- Whoever is on the CPU has an address space. -/
theorem Machine.Reachable.userSpace (reached : Reachable build anyStep config) (running : config.hart = .user context) :
    ∃ pid, config.state.core.current = some pid ∧ (config.state.core.table pid).state = .running ∧ UserContext context ∧
      (config.state.core.table pid).root ≠ 0 ∧ Tree config.state.core.phys (config.state.core.table pid).root := by
  have stands : Stands build False _ config.hart config.state := reached.systemInv
  rw [running] at stands
  obtain ⟨pid, there⟩ := stands
  have table := reached.coreInv.table
  have used : (config.state.core.table pid).state ≠ .empty := by
    rw [there.running]
    decide
  have hasRoot := (table.paired pid used).mpr (table.loaded pid (by simp [Slot.engaged, there.running]))
  have isRoot : (estate config.state.core).root (.slot pid) = some (config.state.core.table pid).root := if_pos ⟨used, hasRoot⟩
  exact ⟨pid, there.current, there.running, there.user, hasRoot, reached.spaceTree isRoot⟩

/-- What the host makes of one frame. -/
theorem feedAll_frame {serial : Nat} {event : Event} (fits : (event.text (idOf serial)).length ≤ capacity) {chunks : List Bytes}
    (cut : chunks.flatten = (Emission.frame serial event).bytes) :
    Framing.FrameDecoder.new.feedAll chunks = ([event.text (idOf serial)], .new) := by
  obtain ⟨bytes, small⟩ := emitted_frame ((Event.fits_iff _ _).mpr fits)
  have starts := Framing.starts_frame small []
  rw [List.append_nil, ← bytes] at starts
  have scanned : Framing.scanner.Scans chunks.flatten [.frame (event.text (idOf serial))] [] := by
    rw [cut]
    exact starts.item (.stop rfl)
  exact Framing.FrameDecoder.feedAll_new scanned

/-- The report of what a payload wrote. -/
def outputValue (id : Nat) (pid : Pid) (causedBy : Nat) (data : Bytes) : Value := .object
  [(ascii (utf8 "id"), .number (decimal id)), (ascii (utf8 "type"), .string (ascii (utf8 "payload_output"))),
    (ascii (utf8 "pid"), .number (decimal pid.val)), (ascii (utf8 "untrusted"), .bool true),
    (ascii (utf8 "caused_by"), .number (decimal causedBy)), (ascii (utf8 "len"), .number (decimal data.length)),
    (ascii (utf8 "data"), .string (ascii data))]

/-- A `write` of `n` bytes has gone through: the payload may write, and the host gets one frame
more and finds in it one object, in which the bytes at `ptr` are the code points of a string. -/
structure Written (config next : Config) (pid : Pid) (ptr n : Nat) : Prop where
  permitted : (config.state.core.table pid).has .write
  told : ∃ serial data entry causedBy, data.length = n ∧
    Holds config.state.core.phys (config.state.core.table pid).root ptr data ∧
    causedBy = (config.state.core.table pid).startEvent.toNat ∧
    entry.what = .frame serial (.output (some pid) causedBy data) ∧
    next.state.env.log = config.state.env.log ++ [entry] ∧
    (∀ chunks, chunks.flatten = entry.what.bytes → Framing.FrameDecoder.new.feedAll chunks =
      ([(Event.output (some pid) causedBy data).text (idOf serial)], .new)) ∧
    Reads ((Event.output (some pid) causedBy data).text (idOf serial)) (outputValue (idOf serial) pid causedBy data)

/-- A `write` has been refused, and the host has been told nothing in the payload's name. -/
structure Unwritten (config next : Config) (pid : Pid) (ptr n : Nat) : Prop where
  reason : ¬ (config.state.core.table pid).has .write ∨
    ∃ i < n, ∀ byte, ¬ Readable config.state.core.phys (config.state.core.table pid).root ((ptr + i) % 2 ^ 64) byte
  silent : ∃ more, next.state.env.log = config.state.env.log ++ more ∧ ∀ entry ∈ more, ¬ entry.what.isOutput

/-- Every `write` in every run is one or the other, and the payload learns which. -/
theorem write_provenance (reached : Reachable build anyStep config) (running : config.hart = .user context)
    (isWrite : context.a7 = 1) : ∃ pid value, config.state.core.current = some pid ∧
      (userTrap build config context Text.causeUEcall 0).hart = .user (context.advancePastEcall.setA0 (.ofInt value)) ∧
      (value = ↑(min context.a1.toNat 256) ∧
          Written config (userTrap build config context Text.causeUEcall 0) pid context.a0.toNat (min context.a1.toNat 256) ∨
        value < 0 ∧
          Unwritten config (userTrap build config context Text.causeUEcall 0) pid context.a0.toNat (min context.a1.toNat 256)) := by
  obtain ⟨pid, current, -, user, hasRoot, tree⟩ := reached.userSpace running
  obtain ⟨phys, isCurrent, slots, log⟩ := calledFrom_same context config.state
  obtain ⟨root, caps, startEvent⟩ := slots pid
  have rights : ((calledFrom context config.state).core.table pid).has .write ↔ (config.state.core.table pid).has .write := by
    rw [Slot.has, Slot.has, caps]
  have found := sysWrite_cases (isCurrent.trans current) (root ▸ hasRoot) (by rw [phys, root]; exact tree) context.a0.toNat
    context.a1.toNat
  rw [phys, root, startEvent, rights] at found
  rw [userTrap_resumes user (dispatch_write build isWrite _)]
  refine ⟨pid, _, current, rfl, ?_⟩
  rcases found with ⟨permitted, data, size, holds, ran⟩ | ⟨reason, negative, more, emits, silent⟩
  · rw [ran]
    refine .inl ⟨rfl, permitted, (calledFrom context config.state).env.serial, data,
      stamp (calledFrom context config.state).core (.frame _ (.output (some pid) _ data)), _, size, holds, rfl, rfl, ?_,
      fun chunks cut => ?_, ?_⟩
    · change (calledFrom context config.state).env.log ++ _ = _
      rw [log]
    · exact feedAll_frame (output_fits (idOf_lt _) (UInt64.toNat_lt _) _ (size ▸ Nat.min_le_right ..)) cut
    · exact reads_output _ (some pid) _ data
  · refine .inr ⟨negative, reason, more, ?_, silent⟩
    have logged := emits.logs.log
    rw [log] at logged
    exact logged

/-- Three bytes of data, written by a payload that may. -/
def said : Script dataBuild anyMove (boot dataBuild) fun config =>
    ∃ context ∈ contextOf config.hart, context.a7 = 1 ∧ context.a0 = 0x20000 ∧ context.a1 = 3 where
  moves := startSuite ++ [.compute (fun i => if i = TrapFrame.xA7 then 1 else if i = TrapFrame.xA0 then 0x20000
    else if i = TrapFrame.xA1 then 3 else 0) 0x80000000]
  passes := by decide +kernel

theorem write_provenance_said : ∃ context pid, ∃ value : Int, contextOf said.config.hart = some context ∧
    (value = 3 ∧ Written said.config (userTrap dataBuild said.config context Text.causeUEcall 0) pid 0x20000 3 ∨
      value < 0 ∧ Unwritten said.config (userTrap dataBuild said.config context Text.causeUEcall 0) pid 0x20000 3) := by
  obtain ⟨context, isContext, isWrite, isPtr, isLen⟩ := said.tested
  obtain ⟨pid, value, -, -, outcome⟩ :=
    write_provenance (said.reachable anyMove_sound) (contextOf_user isContext) isWrite
  rw [isPtr, isLen] at outcome
  exact ⟨context, pid, value, isContext, outcome⟩

end Write

end Kernai
