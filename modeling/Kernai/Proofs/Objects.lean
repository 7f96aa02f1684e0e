import Kernai.Foundation.Template
import Kernai.Proofs.Texts
import Kernai.Proofs.Turns

/-! Every report and every response as a JSON object. The forms below say what stands
around the variable parts of each; reading a form once shows that it is JSON whatever
those parts are. -/

namespace Kernai
open Foundation Utf8 Rfc8259 Console Text

variable {text raw : Bytes}

section Gaps

theorem decimal_readable (n : Nat) : Readable (decimal n) := ⟨_, reads_decimal n⟩

theorem signedDecimal_readable (n : Int) : Readable (signedDecimal n) := by
  have minus : utf8 "-" = [0x2d] := by decide
  unfold signedDecimal
  split
  · refine ⟨_, .number ⟨[0x2d], decimal n.natAbs, [], [], .inr rfl, (decimal_isInt _).1, .inl rfl, .inl rfl, ?_⟩⟩
    rw [minus, List.append_nil, List.append_nil]
  · exact decimal_readable _

theorem plain_legible (plain : ∀ byte ∈ raw, Plain byte) : Legible raw := ⟨_, chars_ascii plain⟩

theorem hex_legible (n : Nat) : Legible (hex n) := plain_legible (hex_plain n)

/-- A text is legible once it is escaped. -/
theorem escaped_legible (isText : IsText text) : Legible (jsonEscaped text).flatten := by
  obtain ⟨characters, rfl⟩ := isText
  exact ⟨_, chars_jsonEscaped characters⟩

theorem utf8_isText (text : String) : IsText (utf8 text) := ⟨text.toList, rfl⟩

theorem array_readable {items : List (List Bytes)} (each : ∀ item ∈ items, Readable item.flatten) :
    Readable ([utf8 "["] ++ separated items ++ [utf8 "]"]).flatten := by
  have opening : utf8 "[" = [0x5b] := by decide
  have closing : utf8 "]" = [0x5d] := by decide
  have list := @list_readable (items.map List.flatten) fun text member => by
    obtain ⟨item, listed, rfl⟩ := List.mem_map.mp member
    exact each item listed
  simpa [opening, closing, separated_flatten] using list

end Gaps

section Rows

/-- A piece of fixed text. -/
def lit (text : String) : Part := .fixed (utf8 text)

@[simp] theorem lit_spell (filling : Filling) (text : String) : (lit text).spell filling = utf8 text := rfl

theorem causeName_legible (scause : Nat) : Legible (utf8 (causeName scause)) := plain_legible (causeName_isName scause)

theorem severityOf_legible (scause : Nat) : Legible (utf8 (severityOf scause)) := by
  refine plain_legible ?_
  unfold severityOf
  repeat' split
  all_goals exact plain_of_all (by decide)

def ringForm : Form where
  parts := [lit "\x7b\"id\":", .value 0, lit ",\"cause\":\"", .chars 0, lit "\",\"sepc\":\"0x", .chars 1, lit "\"\x7d"]
  whole := by decide +kernel

theorem ring_readable (entries : List RingSlot) : Readable (writeRing entries).flatten := by
  refine array_readable fun item member => ?_
  obtain ⟨slot, -, rfl⟩ := List.mem_map.mp member
  exact ringForm.readable [(decimal_readable slot.id).filled]
    [(causeName_legible slot.scause).spelled, (hex_legible slot.sepc).spelled] rfl

def capForm : Form where
  parts := [lit "\"", .chars 0, lit "\""]
  whole := by decide +kernel

theorem caps_readable (caps : Nat) : Readable (capsJson caps).flatten := by
  refine array_readable fun item member => ?_
  obtain ⟨named, listed, rfl⟩ := List.mem_map.mp member
  have plain : ∀ named ∈ [("write", capWrite), ("yield", capYield), ("spawn", capSpawn)], ∀ byte ∈ utf8 named.1, Plain byte := by
    simp only [List.forall_mem_cons]
    exact ⟨plain_of_all (by decide), plain_of_all (by decide), plain_of_all (by decide), nofun⟩
  exact capForm.readable [] [(plain_legible (plain named (List.mem_filter.mp listed).1)).spelled] rfl

/-- Text without quotes, backslashes and control characters needs no escapes. -/
theorem visible_legible {text : String}
    (visible : (text.toList.all fun c => 0x20 ≤ c.toNat && c ≠ '"' && c ≠ '\\') = true) : Legible (utf8 text) := by
  unfold utf8
  rw [List.all_eq_true] at visible
  generalize text.toList = characters at visible
  induction characters with
  | nil => exact ⟨_, .nil⟩
  | cons c characters ih =>
    obtain ⟨units, chars⟩ := ih fun other member => visible other (List.mem_cons_of_mem _ member)
    have here := visible c List.mem_cons_self
    simp only [Bool.and_eq_true, decide_eq_true_eq] at here
    obtain ⟨⟨seen, noQuote⟩, noBackslash⟩ := here
    exact ⟨_, .plain c seen noQuote noBackslash chars⟩

/-- The entry of a tool, around its name and its description. -/
def toolForm (prop : Option String) : List Part :=
  [lit "\x7b\"name\":\"", .chars 0, lit "\",\"description\":\"", .chars 1, lit "\",\"inputSchema\":\x7b\"type\":\"object\""] ++
  (match prop with
    | some prop => [lit ",\"properties\":\x7b\"", lit prop, lit "\":\x7b\"type\":\"string\"\x7d\x7d,\"required\":[\"", lit prop, lit "\"]"]
    | none => []) ++ [lit "\x7d\x7d"]

theorem tool_readable {name desc : String} {prop : Option String} (named : Legible (utf8 name)) (told : Legible (utf8 desc))
    (whole : (read (toolForm prop)).isSome = true) : Readable (tool name desc prop).flatten := by
  refine Form.readable ⟨toolForm prop, whole⟩ [] [named.spelled, told.spelled] ?_
  cases prop <;> rfl

theorem tools_readable : ∀ item ∈ tools, Readable item.flatten := by
  have plain : (read (toolForm none)).isSome = true := by decide +kernel
  have suite : (read (toolForm (some "suite"))).isSome = true := by decide +kernel
  have pid : (read (toolForm (some "pid"))).isSome = true := by decide +kernel
  have mode : (read (toolForm (some "mode"))).isSome = true := by decide +kernel
  simp only [tools, List.forall_mem_cons]
  refine ⟨tool_readable ?_ ?_ suite, tool_readable ?_ ?_ plain, tool_readable ?_ ?_ pid, tool_readable ?_ ?_ pid,
    tool_readable ?_ ?_ plain, tool_readable ?_ ?_ mode, tool_readable ?_ ?_ mode, nofun⟩
  all_goals exact visible_legible (by decide +kernel)

def resourceForm : Form where
  parts := [lit "\x7b\"uri\":\"", .chars 0, lit "\",\"name\":\"", .chars 0, lit "\",\"description\":\"", .chars 1,
    lit "\",\"mimeType\":\"application/json\"\x7d"]
  whole := by decide +kernel

theorem resource_readable {uri desc : String} (named : Legible (utf8 uri)) (told : Legible (utf8 desc)) :
    Readable (resource uri desc).flatten := resourceForm.readable [] [named.spelled, told.spelled] rfl

theorem resources_readable : ∀ item ∈ resources, Readable item.flatten := by
  simp only [resources, List.forall_mem_cons]
  refine ⟨resource_readable ?_ ?_, resource_readable ?_ ?_, resource_readable ?_ ?_, resource_readable ?_ ?_,
    resource_readable ?_ ?_, resource_readable ?_ ?_, resource_readable ?_ ?_, nofun⟩
  all_goals exact visible_legible (by decide +kernel)

theorem stateName_plain (state : ProcState) : ∀ byte ∈ utf8 (stateName state), Plain byte := by
  cases state <;> exact plain_of_all (by decide)

/-- An array that is the last member of an object. -/
theorem listing_readable {opening : Bytes} {items : List (List Bytes)} (lead : String) (first : opening = utf8 lead ++ utf8 "[")
    (each : ∀ item ∈ items, Readable item.flatten) (whole : (read [lit lead, .value 0, lit "\x7d"]).isSome = true) :
    Readable ([opening] ++ separated items ++ [utf8 "]\x7d"]).flatten := by
  have last : utf8 "]\x7d" = utf8 "]" ++ utf8 "\x7d" := by decide
  refine Form.readable ⟨[lit lead, .value 0, lit "\x7d"], whole⟩ [(array_readable each).filled] [] ?_
  change _ = utf8 lead ++ (([utf8 "["] ++ separated items ++ [utf8 "]"]).flatten ++ (utf8 "\x7d" ++ []))
  simp only [first, last, List.flatten_append, List.flatten_cons, List.flatten_nil, List.append_nil, List.append_assoc]

end Rows

section Results

def processForm : Form where
  parts := [lit "\x7b\"pid\":", .value 0, lit ",\"name\":\"", .chars 0, lit "\",\"state\":\"", .chars 1,
    lit "\",\"exit_code\":", .value 1, lit ",\"caps\":", .value 2, lit "\x7d"]
  whole := by decide +kernel

theorem processes_readable {rows : List (Pid × Image × ProcState × Int × Nat)}
    (known : ∀ row ∈ rows, ∃ image : ImageId, row.2.1 = images.get image) : Readable (writeProcessTable rows).flatten := by
  refine listing_readable "\x7b\"processes\":" (by decide) (fun item member => ?_) (by decide +kernel)
  obtain ⟨⟨pid, image, state, exitCode, caps⟩, listed, rfl⟩ := List.mem_map.mp member
  obtain ⟨known, isImage⟩ := known _ listed
  dsimp only at isImage
  subst isImage
  exact processForm.readable
    [(decimal_readable pid.val).filled, (signedDecimal_readable exitCode).filled, (caps_readable caps).filled]
    [(plain_legible (imageName_isName known)).spelled, (plain_legible (stateName_plain state)).spelled] (by simp [processForm])

theorem surfaceName_plain (classic : Bool) : ∀ byte ∈ utf8 (surfaceName classic), Plain byte := by
  cases classic <;> exact plain_of_all (by decide)

theorem autonomyName_plain (autonomous : Bool) : ∀ byte ∈ utf8 (autonomyName autonomous), Plain byte := by
  cases autonomous <;> exact plain_of_all (by decide)

def digestItemForm : Form where
  parts := [lit "\x7b\"id\":", .value 0, lit ",\"severity\":\"", .chars 0, lit "\",\"cause\":\"", .chars 1,
    lit "\",\"sepc\":\"0x", .chars 2, lit "\"\x7d"]
  whole := by decide +kernel

def digestForm : Form where
  parts := [lit "\x7b\"budget\":", .value 0, lit ",\"autonomy\":\"", .chars 0, lit "\",\"totals\":\x7b\"traps\":",
    .value 1, lit ",\"timer\":", .value 2, lit ",\"ecall\":", .value 3, lit ",\"fault\":", .value 4,
    lit "\x7d,\"by_severity\":\x7b\"error\":", .value 4, lit ",\"info\":", .value 3, lit ",\"trace\":", .value 2,
    lit "\x7d,\"items\":", .value 5, lit ",\"elided\":", .value 6, lit "\x7d"]
  whole := by decide +kernel

theorem digest_readable (budget : Nat) (autonomous : Bool) (ticks ecalls faults total : Nat) (items : List RingSlot) :
    Readable (writeDigest budget autonomous ticks ecalls faults total items).flatten := by
  have each : ∀ item ∈ items.map fun slot =>
      [utf8 "\x7b\"id\":", decimal slot.id, utf8 ",\"severity\":\"", utf8 (severityOf slot.scause), utf8 "\",\"cause\":\"",
        utf8 (causeName slot.scause), utf8 "\",\"sepc\":\"0x", hex slot.sepc, utf8 "\"\x7d"], Readable item.flatten := by
    intro item member
    obtain ⟨slot, -, rfl⟩ := List.mem_map.mp member
    exact digestItemForm.readable [(decimal_readable slot.id).filled]
      [(severityOf_legible slot.scause).spelled, (causeName_legible slot.scause).spelled, (hex_legible slot.sepc).spelled] rfl
  have first : utf8 "\x7d,\"items\":[" = utf8 "\x7d,\"items\":" ++ utf8 "[" := by decide
  have last : utf8 "],\"elided\":" = utf8 "]" ++ utf8 ",\"elided\":" := by decide
  refine digestForm.readable
    [(decimal_readable budget).filled, (decimal_readable total).filled, (decimal_readable ticks).filled,
      (decimal_readable ecalls).filled, (decimal_readable faults).filled, (array_readable each).filled,
      (decimal_readable (total - items.length)).filled]
    [(plain_legible (autonomyName_plain autonomous)).spelled] ?_
  simp [writeDigest, digestForm, first, last]

def syscallForm : Form where
  parts := [lit "\x7b\"num\":", .value 0, lit ",\"name\":\"", .chars 0, lit "\"\x7d"]
  whole := by decide +kernel

theorem syscallRow_readable {name : String} (num : Nat) (named : Legible (utf8 name)) : Readable (syscallRow num name).flatten :=
  syscallForm.readable [(decimal_readable num).filled] [named.spelled] rfl

theorem syscalls_readable (doom : Bool) : ∀ item ∈ [syscallRow 0 "exit", syscallRow 1 "write", syscallRow 2 "yield",
    syscallRow 3 "spawn", syscallRow 4 "snapshot", syscallRow 5 "blit"] ++
      if doom then [syscallRow 6 "frame", syscallRow 7 "getkey"] else [], Readable item.flatten := by
  have both : ∀ item ∈ [syscallRow 0 "exit", syscallRow 1 "write", syscallRow 2 "yield", syscallRow 3 "spawn",
      syscallRow 4 "snapshot", syscallRow 5 "blit", syscallRow 6 "frame", syscallRow 7 "getkey"], Readable item.flatten := by
    simp only [List.forall_mem_cons]
    refine ⟨syscallRow_readable _ ?_, syscallRow_readable _ ?_, syscallRow_readable _ ?_, syscallRow_readable _ ?_,
      syscallRow_readable _ ?_, syscallRow_readable _ ?_, syscallRow_readable _ ?_, syscallRow_readable _ ?_, nofun⟩
    all_goals exact visible_legible (by decide +kernel)
  intro item member
  refine both item ?_
  cases doom with
  | true => exact member
  | false =>
    rw [if_neg (by decide), List.append_nil] at member
    exact List.mem_append_left [syscallRow 6 "frame", syscallRow 7 "getkey"] member

def capRowForm : Form where
  parts := [lit "\x7b\"name\":\"", .chars 0, lit "\",\"bit\":", .value 0, lit "\x7d"]
  whole := by decide +kernel

theorem capRows_readable : ∀ item ∈ [("write", capWrite), ("yield", capYield), ("spawn", capSpawn)].map fun (name, bit) =>
    [utf8 "\x7b\"name\":\"", utf8 name, utf8 "\",\"bit\":", decimal bit, utf8 "\x7d"], Readable item.flatten := by
  have row : ∀ {name : String} (bit : Nat), Legible (utf8 name) →
      Readable [utf8 "\x7b\"name\":\"", utf8 name, utf8 "\",\"bit\":", decimal bit, utf8 "\x7d"].flatten := fun bit named =>
    capRowForm.readable [(decimal_readable bit).filled] [named.spelled] rfl
  simp only [List.map_cons, List.map_nil, List.forall_mem_cons]
  refine ⟨row _ ?_, row _ ?_, row _ ?_, nofun⟩
  all_goals exact visible_legible (by decide +kernel)

def windowForm : Form where
  parts := [lit "[\x7b\"name\":\"iwad\",\"image\":\"doom\",\"va\":\"0x", .chars 0, lit "\",\"len\":", .value 0,
    lit ",\"perms\":\"r\"\x7d]"]
  whole := by decide +kernel

/-- The description of the system, without and with its windows. -/
def specForm : Form where
  parts := [lit "\x7b\"proto\":0,\"arch\":\"riscv64\",\"syscalls\":", .value 0, lit ",\"caps\":", .value 1,
    lit ",\"memory\":\x7b\"kernel_base\":\"0x80200000\",\"pool_base\":\"0x", .chars 0, lit "\",\"pool_end\":\"0x", .chars 1,
    lit "\"\x7d", lit "\x7d"]
  whole := by decide +kernel

def doomSpecForm : Form where
  parts := [lit "\x7b\"proto\":0,\"arch\":\"riscv64\",\"syscalls\":", .value 0, lit ",\"caps\":", .value 1,
    lit ",\"memory\":\x7b\"kernel_base\":\"0x80200000\",\"pool_base\":\"0x", .chars 0, lit "\",\"pool_end\":\"0x", .chars 1,
    lit "\"\x7d", lit ",\"windows\":", .value 2, lit "\x7d"]
  whole := by decide +kernel

theorem spec_readable (doom : Bool) : Readable (writeSpec doom).flatten := by
  have syscalls : utf8 "\x7b\"proto\":0,\"arch\":\"riscv64\",\"syscalls\":[" =
      utf8 "\x7b\"proto\":0,\"arch\":\"riscv64\",\"syscalls\":" ++ utf8 "[" := by decide
  have caps : utf8 "],\"caps\":[" = utf8 "]" ++ (utf8 ",\"caps\":" ++ utf8 "[") := by decide
  have memory : utf8 "],\"memory\":\x7b\"kernel_base\":\"0x80200000\",\"pool_base\":\"0x" =
      utf8 "]" ++ utf8 ",\"memory\":\x7b\"kernel_base\":\"0x80200000\",\"pool_base\":\"0x" := by decide
  have window : Readable (utf8 "[\x7b\"name\":\"iwad\",\"image\":\"doom\",\"va\":\"0x" ++ (hex 0x50000000 ++ (utf8 "\",\"len\":" ++
      (decimal (32 <<< 20) ++ utf8 ",\"perms\":\"r\"\x7d]")))) :=
    windowForm.readable [(decimal_readable (32 <<< 20)).filled] [(hex_legible 0x50000000).spelled] (by simp [windowForm])
  cases doom with
  | false =>
    refine specForm.readable [(array_readable (syscalls_readable false)).filled, (array_readable capRows_readable).filled]
      [(hex_legible Hal.poolBase).spelled, (hex_legible Hal.poolEnd).spelled] ?_
    simp [writeSpec, specForm, syscalls, caps, memory]
  | true =>
    have windows : utf8 ",\"windows\":[\x7b\"name\":\"iwad\",\"image\":\"doom\",\"va\":\"0x" =
        utf8 ",\"windows\":" ++ utf8 "[\x7b\"name\":\"iwad\",\"image\":\"doom\",\"va\":\"0x" := by decide
    refine doomSpecForm.readable
      [(array_readable (syscalls_readable true)).filled, (array_readable capRows_readable).filled, window.filled]
      [(hex_legible Hal.poolBase).spelled, (hex_legible Hal.poolEnd).spelled] ?_
    simp [writeSpec, doomSpecForm, syscalls, caps, memory, windows]

variable {body : Bytes}

theorem member_isText (isText : IsText body) (key : String) {value : Bytes} (found : Rpc.member body key = some value) :
    IsText value := objectGet_isText isText found

theorem paramsOf_isText (isText : IsText body) : IsText (Rpc.paramsOf body) := by
  unfold Rpc.paramsOf
  cases found : Rpc.member body "params" with
  | none => exact ⟨"\x7b\x7d".toList, by decide⟩
  | some params => exact member_isText isText "params" found

theorem argumentsOf_isText (isText : IsText body) : IsText (Rpc.argumentsOf body) := by
  unfold Rpc.argumentsOf
  cases found : Rpc.member body "arguments" with
  | none => exact ⟨"\x7b\x7d".toList, by decide⟩
  | some arguments => exact member_isText isText "arguments" found

/-- A string argument, or the empty text in its place. -/
theorem string_isText (isText : IsText body) (key : String) : IsText (((Rpc.member body key).bind Json.asString).getD []) := by
  cases found : (Rpc.member body key).bind Json.asString with
  | none => exact .nil
  | some value =>
    obtain ⟨raw, isRaw, isValue⟩ := Option.bind_eq_some_iff.mp found
    exact asString_isText (member_isText isText key isRaw) isValue

/-- Every result a request can get reads as JSON. -/
theorem result_readable (isText : IsText body) {result : Result} (apt : Apt body (.result result)) :
    Readable result.pieces.flatten := by
  cases result with
  | serverInfo =>
    exact Form.readable ⟨[lit "\x7b\"protocolVersion\":\"2024-11-05\",", lit "\"serverInfo\":\x7b\"name\":\"kernai\",\"version\":\"0\"\x7d,",
      lit "\"capabilities\":\x7b\"tools\":\x7b\x7d,\"resources\":\x7b\x7d\x7d\x7d"], by decide +kernel⟩ [] [] rfl
  | toolsList => exact listing_readable "\x7b\"tools\":" (by decide) tools_readable (by decide +kernel)
  | resourcesList => exact listing_readable "\x7b\"resources\":" (by decide) resources_readable (by decide +kernel)
  | accepted suite =>
    have said : IsText suite := by
      rw [show suite = _ from apt]
      exact string_isText (argumentsOf_isText (paramsOf_isText isText)) "suite"
    exact Form.readable ⟨[lit "\x7b\"status\":\"accepted\",\"suite\":\"", .chars 0, lit "\"\x7d"], by decide +kernel⟩ []
      [(escaped_legible said).spelled] (by simp [Result.pieces])
  | duplicate op =>
    have said : IsText op := by
      rw [show op = _ from apt]
      exact string_isText (paramsOf_isText isText) "opId"
    exact Form.readable ⟨[lit "\x7b\"status\":\"duplicate\",\"opId\":\"", .chars 0, lit "\"\x7d"], by decide +kernel⟩ []
      [(escaped_legible said).spelled] (by simp [Result.pieces])
  | crashing => exact Form.readable ⟨[lit "\x7b\"status\":\"crashing\"\x7d"], by decide +kernel⟩ [] [] rfl
  | killed pid elapsed =>
    exact Form.readable ⟨[lit "\x7b\"status\":\"killed\",\"pid\":", .value 0, lit ",\"elapsed\":", .value 1, lit "\x7d"], by decide +kernel⟩
      [(decimal_readable pid).filled, (decimal_readable elapsed).filled] [] rfl
  | budgetSet pid deadline =>
    exact Form.readable ⟨[lit "\x7b\"status\":\"budget_set\",\"pid\":", .value 0, lit ",\"deadline\":", .value 1, lit "\x7d"], by decide +kernel⟩
      [(decimal_readable pid).filled, (decimal_readable deadline).filled] [] rfl
  | ring count entries =>
    exact Form.readable ⟨[lit "\x7b\"count\":", .value 0, lit ",\"entries\":", .value 1, lit "\x7d"], by decide +kernel⟩
      [(decimal_readable count).filled, (ring_readable entries).filled] [] (by simp [Result.pieces])
  | surface classic =>
    exact Form.readable ⟨[lit "\x7b\"surface\":\"", .chars 0, lit "\"\x7d"], by decide +kernel⟩ []
      [(plain_legible (surfaceName_plain classic)).spelled] rfl
  | autonomy autonomous =>
    exact Form.readable ⟨[lit "\x7b\"autonomy\":\"", .chars 0, lit "\"\x7d"], by decide +kernel⟩ []
      [(plain_legible (autonomyName_plain autonomous)).spelled] rfl
  | processes rows => exact processes_readable apt
  | spec doom => exact spec_readable doom
  | memory allocated capacity =>
    exact Form.readable ⟨[lit "\x7b\"allocated\":", .value 0, lit ",\"capacity\":", .value 1, lit "\x7d"], by decide +kernel⟩
      [(decimal_readable allocated).filled, (decimal_readable capacity).filled] [] rfl
  | digest budget autonomous ticks ecalls faults total items => exact digest_readable budget autonomous ticks ecalls faults total items

end Results

section Responses

variable {body : Bytes} {request : RpcId} {id : Nat}

/-- An id that is echoed as a JSON value: of the integers, only those without a superfluous
leading zero are. -/
def RpcId.Tidy : RpcId → Prop
  | .integer raw => IsNumber raw
  | _ => True

/-- The value of the id a response carries: a text cut to its first characters, or the
number as it came. -/
inductive Echoes : RpcId → Value → Prop
  | text (characters : List Char) : Echoes (.text (encode characters)) (.string ((characters.take maxId).flatMap utf16))
  | integer {raw : Bytes} (isNumber : IsNumber raw) : Echoes (.integer raw) (.number raw)
  | null : Echoes .null .null

theorem Echoes.reads {request : RpcId} {value : Value} (echoes : Echoes request value) : Reads request.pieces.flatten value := by
  cases echoes with
  | text characters =>
    have pieces : (RpcId.text (encode characters)).pieces.flatten = quoted (jsonEscaped (encode (characters.take maxId))).flatten := by
      have mark : utf8 "\"" = [0x22] := rfl
      simp [RpcId.pieces, quote, mark, quoted, clampChars_encode]
    rw [pieces]
    exact .string (chars_jsonEscaped _)
  | integer isNumber => simpa [RpcId.pieces] using Reads.number isNumber
  | null => exact .null

theorem requestId_cases (raw : Bytes) :
    (∃ inner, Json.asString (Json.trim raw) = some inner ∧ Rpc.requestId raw = .text inner) ∨
      (∃ number, Rpc.requestId raw = .integer number) ∨ Rpc.requestId raw = .null := by
  unfold Rpc.requestId
  dsimp only
  split
  next inner found => exact .inl ⟨inner, found, rfl⟩
  next =>
    generalize (if (Json.trim raw).head? = some 0x2d then (Json.trim raw).tail else Json.trim raw) = digits
    split
    · exact .inr (.inl ⟨_, rfl⟩)
    · exact .inr (.inr rfl)

/-- Every id is echoed as some value, an integer with leading zeros apart. -/
theorem exists_echo (isText : IsText body) (tidy : (requestOf body).Tidy) : ∃ value, Echoes (requestOf body) value := by
  have given : IsText ((Rpc.member body "id").getD (utf8 "null")) := by
    cases found : Rpc.member body "id" with
    | none => exact utf8_isText "null"
    | some raw => exact member_isText isText "id" found
  unfold requestOf at tidy ⊢
  rcases requestId_cases ((Rpc.member body "id").getD (utf8 "null")) with ⟨inner, found, isText⟩ | ⟨number, isInteger⟩ | isNull
  · obtain ⟨characters, rfl⟩ := asString_isText (trim_isText given) found
    rw [isText]
    exact ⟨_, .text characters⟩
  · rw [isInteger] at tidy ⊢
    exact ⟨_, .integer tidy⟩
  · rw [isNull]
    exact ⟨_, .null⟩

/-- The value of a response: what `result` or `error` says stands under `outcome`. -/
def response (id : Nat) (request : Value) (outcome : String) (said : Value) : Value :=
  .object [(ascii (utf8 "id"), .number (decimal id)), (ascii (utf8 "type"), .string (ascii (utf8 "rpc"))),
    (ascii (utf8 "rpc"), .object [(ascii (utf8 "jsonrpc"), .string (ascii (utf8 "2.0"))), (ascii (utf8 "id"), request),
      (ascii (utf8 outcome), said)])]

/-- The pieces of a response, with gaps for the stream id, for the request's, unless it is
null, and for the result, unless it is an error. -/
def opensResponse (null : Bool) (outcome : String) : Option Doc → Bool
  | some (.object [first, second, third] [.gap 0, .string kind, .object [version, echo, last] [.string number, given, _]]) =>
    first = utf8 "id" && second = utf8 "type" && third = utf8 "rpc" && kind = (utf8 "rpc").map .byte &&
      version = utf8 "jsonrpc" && echo = utf8 "id" && last = utf8 outcome && number = (utf8 "2.0").map .byte &&
      match given with
      | .null => null
      | .gap 1 => !null
      | _ => false
  | _ => false

theorem units_fixed (filling : Filling) (bytes : Bytes) : (bytes.map Symbol.byte).flatMap (·.units filling) = ascii bytes := by
  induction bytes with
  | nil => rfl
  | cons byte bytes ih => exact congrArg (byte.toUInt16 :: ·) ih

theorem response_of_parts {text : Bytes} {null : Bool} {outcome : String} (parts : List Part) (echo : Filled)
    (values : List Filled) (strings : List Spelled) (opens : opensResponse null outcome (read parts) = true)
    (same : text = parts.flatMap (·.spell ⟨⟨_, _, reads_decimal id⟩ :: echo :: values, strings⟩)) :
    ∃ said, Reads text (response id (if null then .null else echo.value) outcome said) := by
  unfold opensResponse at opens
  split at opens
  next first second third kind version echoKey last number given doc found =>
    simp only [Bool.and_eq_true, decide_eq_true_eq] at opens
    obtain ⟨⟨⟨⟨⟨⟨⟨⟨rfl, rfl⟩, rfl⟩, rfl⟩, rfl⟩, rfl⟩, rfl⟩, rfl⟩, isGiven⟩ := opens
    have reads := @read_reads ⟨⟨_, _, reads_decimal id⟩ :: echo :: values, strings⟩ _ _ found
    rw [← same] at reads
    refine ⟨doc.value ⟨⟨_, _, reads_decimal id⟩ :: echo :: values, strings⟩, ?_⟩
    have request : given.value ⟨⟨_, _, reads_decimal id⟩ :: echo :: values, strings⟩ = if null then .null else echo.value := by
      split at isGiven
      · rw [if_pos isGiven]
        rfl
      · rw [if_neg (by simpa using isGiven)]
        rfl
      · cases isGiven
    simp only [Doc.value, Rfc8259.values, units_fixed, request] at reads
    exact reads
  next => cases opens

theorem rpc_reads (isText : IsText body) {request : Value} (echoes : Echoes (requestOf body) request) {reply : Reply}
    (apt : Apt body reply) (id : Nat) : ∃ outcome said, (outcome = "result" ∨ outcome = "error") ∧
      Reads ((Event.rpc (requestOf body) reply).text id) (response id request outcome said) := by
  cases reply with
  | result result =>
    obtain ⟨said, reads⟩ := @response_of_parts id ((Event.rpc (requestOf body) (.result result)).text id) false "result"
      [lit "\x7b\"id\":", .value 0, lit ",\"type\":\"rpc\",\"rpc\":", lit "\x7b\"jsonrpc\":\"2.0\",\"id\":", .value 1,
        lit ",\"result\":", .value 2, lit "\x7d", lit "\x7d"]
      ⟨_, _, echoes.reads⟩ [(result_readable isText apt).filled] [] (by decide +kernel)
      (by simp [Event.text, Event.pieces, Reply.pieces])
    exact ⟨"result", said, .inl rfl, reads⟩
  | error code message =>
    obtain ⟨said, reads⟩ := @response_of_parts id ((Event.rpc (requestOf body) (.error code message)).text id) false "error"
      [lit "\x7b\"id\":", .value 0, lit ",\"type\":\"rpc\",\"rpc\":", lit "\x7b\"jsonrpc\":\"2.0\",\"id\":", .value 1,
        lit ",\"error\":\x7b\"code\":", .value 2, lit ",\"message\":\"", .chars 0, lit "\"\x7d\x7d", lit "\x7d"]
      ⟨_, _, echoes.reads⟩ [(signedDecimal_readable code).filled] [(escaped_legible (utf8_isText message)).spelled]
      (by decide +kernel) (by simp [Event.text, Event.pieces, Reply.pieces])
    exact ⟨"error", said, .inr rfl, reads⟩

theorem rpcTooLarge_reads (id : Nat) : ∃ said, Reads (Event.rpcTooLarge.text id) (response id .null "error" said) :=
  @response_of_parts id (Event.rpcTooLarge.text id) true "error"
    [lit "\x7b\"id\":", .value 0,
      lit ",\"type\":\"rpc\",\"rpc\":\x7b\"jsonrpc\":\"2.0\",\"id\":null,\"error\":\x7b\"code\":-32001,\"message\":\"response too large\"\x7d\x7d\x7d"]
    ⟨_, _, Reads.null⟩ [] [] (by decide +kernel) (by simp [Event.text, Event.pieces])

end Responses

end Kernai
