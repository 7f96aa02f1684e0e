import Kernai.Foundation.Scanner
import Kernai.Framing

/-! The frame decoder against a scanner that takes one noise byte or one frame at a
time. The decoder's loop is that scanner run to its end, whatever pieces the stream
arrives in; and the scanner reads back what the two encoders write. -/

namespace Kernai.Framing
open Foundation Console

inductive Piece where
  | noise (byte : UInt8)
  | frame (payload : Bytes)
deriving DecidableEq, Repr

namespace Piece

def bytes : Piece → Bytes
  | noise byte => [byte]
  | frame payload => magic ++ toBytes lenBytes payload.length ++ payload

def stray : Piece → Bytes
  | noise byte => [byte]
  | frame _ => []

def payload? : Piece → Option Bytes
  | noise _ => none
  | frame payload => some payload

/-- The piece a stream begins with, once enough of the stream is there to tell. -/
def next : Bytes → Option (Piece × Bytes)
  | [] => none
  | first :: rest =>
    if first ≠ 0xAA then some (.noise first, rest)
    else match rest with
      | [] => none
      | second :: tail =>
        if second ≠ 0x99 then some (.noise first, rest)
        else match tail with
          | a :: b :: c :: d :: body =>
            let length := fromBytes [a, b, c, d]
            if length > maxFrameLen then some (.noise first, rest)
            else if body.length < length then none
            else some (.frame (body.take length), body.drop length)
          | _ => none

end Piece

theorem fromBytes_toBytes {width n : Nat} (fits : n < 256 ^ width) : fromBytes (toBytes width n) = n := by
  induction width generalizing n with
  | zero =>
    have zero : n = 0 := by simpa using fits
    rw [zero]
    rfl
  | succ width ih =>
    have smaller : n / 256 < 256 ^ width := Nat.div_lt_of_lt_mul (by rw [← Nat.pow_succ']; exact fits)
    rw [toBytes, fromBytes, ih smaller, UInt8.toNat_ofNat']
    exact Nat.mod_add_div n 256

theorem toBytes_fromBytes (bytes : Bytes) : toBytes bytes.length (fromBytes bytes) = bytes := by
  induction bytes with
  | nil => rfl
  | cons byte bytes ih =>
    have small := byte.toNat_lt
    have head : UInt8.ofNat (byte.toNat + 256 * fromBytes bytes) = byte := by
      apply UInt8.toNat_inj.mp
      rw [UInt8.toNat_ofNat', Nat.add_mul_mod_self_left, Nat.mod_eq_of_lt small]
    have tail : (byte.toNat + 256 * fromBytes bytes) / 256 = fromBytes bytes := by omega
    rw [fromBytes, List.length_cons, toBytes, head, tail, ih]

namespace Piece

variable {stream rest : Bytes} {piece : Piece}

/-- Everything `next` can do. -/
inductive Starts : Bytes → Piece → Bytes → Prop
  | other (first : UInt8) (rest : Bytes) (notMagic : first ≠ 0xAA) : Starts (first :: rest) (.noise first) rest
  | half (second : UInt8) (tail : Bytes) (notMagic : second ≠ 0x99) :
      Starts (0xAA :: second :: tail) (.noise 0xAA) (second :: tail)
  | bogus (a b c d : UInt8) (body : Bytes) (large : fromBytes [a, b, c, d] > maxFrameLen) :
      Starts (0xAA :: 0x99 :: a :: b :: c :: d :: body) (.noise 0xAA) (0x99 :: a :: b :: c :: d :: body)
  | frame (a b c d : UInt8) (payload rest : Bytes) (small : fromBytes [a, b, c, d] ≤ maxFrameLen)
      (complete : payload.length = fromBytes [a, b, c, d]) :
      Starts (0xAA :: 0x99 :: a :: b :: c :: d :: (payload ++ rest)) (.frame payload) rest

theorem next_some (found : next stream = some (piece, rest)) : Starts stream piece rest := by
  rcases stream with _ | ⟨first, tail⟩
  · cases found
  by_cases isFirst : first = 0xAA
  case neg =>
    simp only [next, ne_eq, isFirst, not_false_eq_true, if_true] at found
    cases found
    exact .other first rest isFirst
  subst isFirst
  rcases tail with _ | ⟨second, tail⟩
  · cases found
  by_cases isSecond : second = 0x99
  case neg =>
    simp only [next, ne_eq, not_true_eq_false, if_false, isSecond, not_false_eq_true, if_true] at found
    cases found
    exact .half second tail isSecond
  subst isSecond
  rcases tail with _ | ⟨a, _ | ⟨b, _ | ⟨c, _ | ⟨d, body⟩⟩⟩⟩
  iterate 4 cases found
  simp only [next, ne_eq, not_true_eq_false, if_false] at found
  split at found
  · next large =>
    cases found
    exact .bogus a b c d body large
  · next small =>
    split at found
    · cases found
    · next complete =>
      cases found
      have starts := Starts.frame a b c d (body.take (fromBytes [a, b, c, d]))
        (body.drop (fromBytes [a, b, c, d])) (Nat.le_of_not_lt small)
        (by rw [List.length_take]; exact Nat.min_eq_left (Nat.le_of_not_lt complete))
      rwa [List.take_append_drop] at starts

theorem Starts.next_eq (starts : Starts stream piece rest) : next stream = some (piece, rest) := by
  cases starts with
  | other first rest notMagic => simp [next, notMagic]
  | half second tail notMagic => simp [next, notMagic]
  | bogus a b c d body large => simp [next, large]
  | frame a b c d payload rest small complete =>
    simp only [next, ne_eq, not_true_eq_false, if_false, if_neg (Nat.not_lt.mpr small), List.length_append,
      if_neg (show ¬ payload.length + rest.length < fromBytes [a, b, c, d] by omega)]
    rw [← complete, List.take_left, List.drop_left]

theorem Starts.append (starts : Starts stream piece rest) (more : Bytes) :
    Starts (stream ++ more) piece (rest ++ more) := by
  cases starts with
  | other first rest notMagic => exact .other first (rest ++ more) notMagic
  | half second tail notMagic => exact .half second (tail ++ more) notMagic
  | bogus a b c d body large => exact .bogus a b c d (body ++ more) large
  | frame a b c d payload rest small complete =>
    simp only [List.cons_append, List.append_assoc]
    exact .frame a b c d payload (rest ++ more) small complete

theorem Starts.spelled (starts : Starts stream piece rest) : stream = piece.bytes ++ rest := by
  cases starts with
  | other first rest notMagic => rfl
  | half second tail notMagic => rfl
  | bogus a b c d body large => rfl
  | frame a b c d payload rest small complete =>
    have header : toBytes lenBytes payload.length = [a, b, c, d] := by
      rw [complete]
      exact toBytes_fromBytes [a, b, c, d]
    rw [bytes, header]
    simp [magic]

theorem Starts.shrinks (starts : Starts stream piece rest) : rest.length < stream.length := by
  cases starts <;> simp only [List.length_cons, List.length_append] <;> omega

end Piece

def scanner : Scanner UInt8 Piece where
  next := Piece.next
  spell := Piece.bytes
  exact found := (Piece.next_some found).spelled
  shrinks found := (Piece.next_some found).shrinks
  stable found more := ((Piece.next_some found).append more).next_eq

theorem Piece.Starts.item {stream rest left : Bytes} {piece : Piece} {pieces : List Piece}
    (starts : Piece.Starts stream piece rest) (scanned : scanner.Scans rest pieces left) :
    scanner.Scans stream (piece :: pieces) left :=
  .item starts.next_eq scanned

/-- A byte that does not open the magic together with its successor is noise. -/
theorem starts_noise {first second : UInt8} {rest : Bytes} (noMagic : magic.isPrefixOf (first :: second :: rest) = false) :
    Piece.Starts (first :: second :: rest) (.noise first) (second :: rest) := by
  by_cases isFirst : first = 0xAA
  · subst isFirst
    refine .half second rest ?_
    rintro rfl
    simp [magic] at noMagic
  · exact .other first _ isFirst

theorem scans_find {stream left : Bytes} {start : Nat} {pieces : List Piece} (found : find stream = some start)
    (scanned : scanner.Scans (stream.drop start) pieces left) :
    scanner.Scans stream ((stream.take start).map .noise ++ pieces) left := by
  induction stream generalizing start with
  | nil => cases found
  | cons first rest ih =>
    unfold find at found
    split at found
    · cases found
      exact scanned
    · next noMagic =>
      obtain ⟨start, later, rfl⟩ := Option.map_eq_some_iff.mp found
      cases rest with
      | nil => cases later
      | cons second rest => exact (starts_noise (Bool.not_eq_true _ ▸ noMagic)).item (ih later scanned)

/-- Without the magic the whole stream is noise, a last byte that may open it apart. -/
theorem scans_noise {stream : Bytes} (missing : find stream = none) :
    ∃ noise keep, stream = noise ++ keep ∧ keep.length = (if stream.getLast? = some 0xAA then 1 else 0) ∧
      scanner.Scans stream (noise.map .noise) keep := by
  induction stream with
  | nil => exact ⟨[], [], rfl, rfl, .stop rfl⟩
  | cons first rest ih =>
    unfold find at missing
    split at missing
    · cases missing
    · next noMagic =>
      have later := Option.map_eq_none_iff.mp missing
      cases rest with
      | nil =>
        by_cases isFirst : first = 0xAA
        · subst isFirst
          exact ⟨[], [0xAA], rfl, rfl, .stop rfl⟩
        · refine ⟨[first], [], rfl, by simp [isFirst], (Piece.Starts.other first [] isFirst).item (.stop rfl)⟩
      | cons second rest =>
        obtain ⟨noise, keep, split, size, scanned⟩ := ih later
        refine ⟨first :: noise, keep, by rw [split, List.cons_append], ?_, ?_⟩
        · rw [size, List.getLast?_cons_cons]
        · exact (starts_noise (Bool.not_eq_true _ ▸ noMagic)).item scanned

@[simp] theorem filterMap_noise (bytes : Bytes) : (bytes.map Piece.noise).filterMap Piece.payload? = [] := by
  simp [List.filterMap_eq_nil_iff, Piece.payload?]

@[simp] theorem flatMap_noise (bytes : Bytes) : (bytes.map Piece.noise).flatMap Piece.stray = bytes := by
  induction bytes with
  | nil => rfl
  | cons byte bytes ih => rw [List.map_cons, List.flatMap_cons, ih]; rfl

namespace FrameDecoder

variable {decoder after : FrameDecoder}

/-- What a decoder has made of the stream behind its buffer. -/
structure Decodes (decoder : FrameDecoder) (frames : List Bytes) (after : FrameDecoder) (pieces : List Piece) : Prop where
  scanned : scanner.Scans decoder.buf pieces after.buf
  frames : frames = pieces.filterMap Piece.payload?
  noise : after.noise = decoder.noise ++ pieces.flatMap Piece.stray

/-- How a turn that takes this piece ends. -/
def exitOf : Piece → Exit
  | .noise _ => .skipped
  | .frame payload => .found payload

/-- What a turn does to a buffer that starts with the magic. -/
inductive Turned (decoder : FrameDecoder) : Exit × FrameDecoder → Prop
  | waits (waiting : Piece.next decoder.buf = none) : Turned decoder (.returned, decoder)
  | takes {piece : Piece} {rest : Bytes} (starts : Piece.Starts decoder.buf piece rest) :
      Turned decoder (exitOf piece, { buf := rest, noise := decoder.noise ++ piece.stray })

theorem frame_turned (decoder : FrameDecoder) (opens : magic.isPrefixOf decoder.buf = true) :
    Turned decoder decoder.frame := by
  obtain ⟨tail, isBuf⟩ := List.isPrefixOf_iff_prefix.mp opens
  obtain ⟨buf, noise⟩ := decoder
  change magic ++ tail = buf at isBuf
  subst isBuf
  rcases tail with _ | ⟨a, _ | ⟨b, _ | ⟨c, _ | ⟨d, body⟩⟩⟩⟩
  · exact .waits rfl
  · exact .waits rfl
  · exact .waits rfl
  · exact .waits rfl
  · by_cases large : fromBytes [a, b, c, d] > maxFrameLen
    · have isFrame : frame ⟨magic ++ a :: b :: c :: d :: body, noise⟩ =
          (.skipped, ⟨0x99 :: a :: b :: c :: d :: body, noise ++ [0xAA]⟩) := by
        simp [frame, magic, lenBytes, large, discard]
      rw [isFrame]
      have turned : Turned ⟨magic ++ a :: b :: c :: d :: body, noise⟩ _ := .takes (.bogus a b c d body large)
      exact turned
    · by_cases short : body.length < fromBytes [a, b, c, d]
      · have isFrame : frame ⟨magic ++ a :: b :: c :: d :: body, noise⟩ =
            (.returned, ⟨magic ++ a :: b :: c :: d :: body, noise⟩) := by
          simp [frame, magic, lenBytes, large, short, Nat.add_comm 6]
        rw [isFrame]
        refine .waits ?_
        simp [magic, Piece.next, large, short]
      · have isFrame : frame ⟨magic ++ a :: b :: c :: d :: body, noise⟩ =
            (.found (body.take (fromBytes [a, b, c, d])), ⟨body.drop (fromBytes [a, b, c, d]), noise⟩) := by
          simp [frame, magic, lenBytes, large, short, Nat.add_comm 6]
        rw [isFrame]
        have starts := Piece.Starts.frame a b c d (body.take (fromBytes [a, b, c, d]))
          (body.drop (fromBytes [a, b, c, d])) (Nat.le_of_not_lt large)
          (by rw [List.length_take]; exact Nat.min_eq_left (Nat.le_of_not_lt short))
        rw [List.take_append_drop] at starts
        have turned : Turned ⟨magic ++ a :: b :: c :: d :: body, noise⟩ _ := .takes starts
        simpa [exitOf, Piece.stray] using turned

theorem Decodes.discarded {start : Nat} {frames : List Bytes} {pieces : List Piece} (found : find decoder.buf = some start)
    (decodes : Decodes (decoder.discard start) frames after pieces) :
    Decodes decoder frames after ((decoder.buf.take start).map .noise ++ pieces) where
  scanned := scans_find found decodes.scanned
  frames := by rw [List.filterMap_append, filterMap_noise, List.nil_append, decodes.frames]
  noise := by rw [List.flatMap_append, flatMap_noise, ← List.append_assoc, decodes.noise]; rfl

theorem Decodes.after_piece {piece : Piece} {rest : Bytes} {frames : List Bytes} {pieces : List Piece}
    (starts : Piece.Starts decoder.buf piece rest)
    (decodes : Decodes ⟨rest, decoder.noise ++ piece.stray⟩ frames after pieces) :
    Decodes decoder (piece.payload?.toList ++ frames) after (piece :: pieces) where
  scanned := starts.item decodes.scanned
  frames := by cases piece <;> simp [List.filterMap_cons, Piece.payload?, decodes.frames]
  noise := by rw [decodes.noise, List.flatMap_cons, List.append_assoc]

theorem find_opens {stream : Bytes} {start : Nat} (found : find stream = some start) :
    magic.isPrefixOf (stream.drop start) = true := by
  induction stream generalizing start with
  | nil => cases found
  | cons first rest ih =>
    unfold find at found
    split at found
    · next opens =>
      cases found
      exact opens
    · obtain ⟨start, later, rfl⟩ := Option.map_eq_some_iff.mp found
      exact ih later

theorem turn_of_find {start : Nat} (found : find decoder.buf = some start) :
    decoder.turn = (decoder.discard start).frame := by
  simp only [turn, found]
  split
  · rfl
  · next zero =>
    obtain rfl : start = 0 := by omega
    simp [discard]

theorem turn_of_missing (missing : find decoder.buf = none) :
    ∃ after pieces, decoder.turn = (.returned, after) ∧ Decodes decoder [] after pieces := by
  obtain ⟨noise, keep, split, size, scanned⟩ := scans_noise missing
  obtain ⟨buf, old⟩ := decoder
  dsimp only at split scanned size missing
  refine ⟨⟨keep, old ++ noise⟩, noise.map .noise, ?_, scanned, (filterMap_noise noise).symm, ?_⟩
  · simp only [turn, missing, show magic.head? = some 0xAA from rfl, ← size]
    subst split
    rw [List.length_append, Nat.add_sub_cancel]
    split
    · simp [discard]
    · next empty =>
      obtain rfl : noise = [] := by
        apply List.eq_nil_of_length_eq_zero
        omega
      simp
  · rw [flatMap_noise]

/-- The loop is the scanner run to its end, given a turn for each byte and one more. -/
theorem loop_decodes {fuel : Nat} (enough : decoder.buf.length < fuel) :
    ∃ pieces, Decodes decoder (loop fuel decoder).1 (loop fuel decoder).2 pieces := by
  induction fuel generalizing decoder with
  | zero => cases enough
  | succ fuel ih =>
    unfold loop
    cases found : find decoder.buf with
    | none =>
      obtain ⟨after, pieces, isTurn, decodes⟩ := turn_of_missing found
      rw [isTurn]
      exact ⟨pieces, decodes⟩
    | some start =>
      have turned := frame_turned (decoder.discard start) (find_opens found)
      rw [turn_of_find found]
      have shorter : (decoder.discard start).buf.length ≤ decoder.buf.length := by simp [discard]
      generalize (decoder.discard start).frame = result at turned
      cases turned with
      | waits waiting => exact ⟨_, Decodes.discarded found ⟨.stop waiting, rfl, by simp⟩⟩
      | @takes piece rest starts =>
        have fewer := starts.shrinks
        obtain ⟨pieces, decodes⟩ := @ih ⟨rest, (decoder.discard start).noise ++ piece.stray⟩
          (show rest.length < fuel by omega)
        cases piece with
        | noise byte => exact ⟨_, Decodes.discarded found (.after_piece starts decodes)⟩
        | frame payload => exact ⟨_, Decodes.discarded found (.after_piece starts decodes)⟩

theorem feed_decodes (decoder : FrameDecoder) (data : Bytes) :
    ∃ pieces, Decodes ⟨decoder.buf ++ data, decoder.noise⟩ (decoder.feed data).1 (decoder.feed data).2 pieces :=
  loop_decodes (by simp)

theorem feedAll_decodes (decoder : FrameDecoder) (chunks : List Bytes) :
    ∃ pieces, scanner.Fed decoder.buf chunks pieces (decoder.feedAll chunks).2.buf ∧
      (decoder.feedAll chunks).1 = pieces.filterMap Piece.payload? ∧
      (decoder.feedAll chunks).2.noise = decoder.noise ++ pieces.flatMap Piece.stray := by
  induction chunks generalizing decoder with
  | nil => exact ⟨[], .done _, rfl, by simp [feedAll]⟩
  | cons chunk chunks ih =>
    obtain ⟨pieces, decodes⟩ := feed_decodes decoder chunk
    obtain ⟨more, fed, frames, noise⟩ := ih (decoder.feed chunk).2
    refine ⟨pieces ++ more, .chunk decodes.scanned fed, ?_, ?_⟩
    · rw [List.filterMap_append, ← decodes.frames, ← frames]
      rfl
    · rw [List.flatMap_append, ← List.append_assoc, ← decodes.noise, ← noise]
      rfl

/-- A fresh decoder's outcome is the scan of the stream. -/
theorem feedAll_new {chunks : List Bytes} {pieces : List Piece} {left : Bytes}
    (scanned : scanner.Scans chunks.flatten pieces left) :
    new.feedAll chunks = (pieces.filterMap Piece.payload?, ⟨left, pieces.flatMap Piece.stray⟩) := by
  obtain ⟨found, fed, frames, noise⟩ := feedAll_decodes new chunks
  obtain ⟨rfl, isLeft⟩ := scanned.unique (fed.scans rfl)
  generalize new.feedAll chunks = outcome at *
  obtain ⟨frames', buf, noise'⟩ := outcome
  simp_all [new]

end FrameDecoder

/-- However a stream is cut into chunks, a fresh decoder finds the same payloads and
the same noise and keeps the same bytes back; and noise bytes, frames and the bytes
kept back make up the stream in order. -/
theorem feed_chunking (chunks chunks' : List Bytes) (same : chunks.flatten = chunks'.flatten) :
    FrameDecoder.new.feedAll chunks = FrameDecoder.new.feedAll chunks' ∧
      ∃ pieces : List Piece,
        chunks.flatten = pieces.flatMap Piece.bytes ++ (FrameDecoder.new.feedAll chunks).2.buf ∧
        (FrameDecoder.new.feedAll chunks).1 = pieces.filterMap Piece.payload? ∧
        (FrameDecoder.new.feedAll chunks).2.noise = pieces.flatMap Piece.stray := by
  obtain ⟨pieces, left, scanned⟩ := scanner.scans_exists chunks.flatten
  have first := FrameDecoder.feedAll_new scanned
  have second := FrameDecoder.feedAll_new (same ▸ scanned)
  refine ⟨first.trans second.symm, pieces, ?_, ?_, ?_⟩
  · rw [first]
    exact scanned.spelled
  · rw [first]
  · rw [first]

theorem feed_chunking_split_header : FrameDecoder.new.feedAll [[0x41, 0xAA], [], [0x99, 1, 0, 0], [0, 0x7A, 0xAA]] =
    FrameDecoder.new.feedAll [[0x41, 0xAA, 0x99, 1, 0, 0, 0, 0x7A, 0xAA]] :=
  (feed_chunking [[0x41, 0xAA], [], [0x99, 1, 0, 0], [0, 0x7A, 0xAA]]
    [[0x41, 0xAA, 0x99, 1, 0, 0, 0, 0x7A, 0xAA]] rfl).1

/-- The two ways a frame comes to be on the wire. -/
inductive Encoder where
  | harness
  | kernel
deriving DecidableEq, Repr

/-- The payloads an encoder has room for. -/
def Encoder.limit : Encoder → Nat
  | harness => maxFrameLen
  | kernel => capacity

def Encoder.encode : Encoder → Bytes → Except EncodeError Bytes
  | harness, payload => encodeFrame payload
  | kernel, payload => .ok (FrameBuf.new.write [payload]).emitted

theorem Encoder.encode_eq {encoder : Encoder} {payload : Bytes} (fits : payload.length ≤ encoder.limit) :
    encoder.encode payload = .ok (Piece.frame payload).bytes := by
  cases encoder with
  | harness =>
    have room : ¬ payload.length > maxFrameLen := Nat.not_lt.mpr fits
    rw [encode, encodeFrame, if_neg room]
    rfl
  | kernel =>
    have room : ¬ FrameBuf.new.buf.length + payload.length > capacity := by
      simpa [FrameBuf.new, Encoder.limit] using fits
    have isBuf : FrameBuf.new.write [payload] = { buf := payload, overflow := false } := by
      simp only [FrameBuf.write, List.foldl_cons, List.foldl_nil, FrameBuf.writeStr, if_neg room]
      rfl
    rw [encode, isBuf]
    simp [FrameBuf.emitted, FrameBuf.le32, Piece.bytes, magic, Console.magic, lenBytes, toBytes, List.range,
      List.range.loop, Nat.div_div_eq_div_mul]

theorem starts_frame {payload : Bytes} (fits : payload.length ≤ maxFrameLen) (rest : Bytes) :
    Piece.Starts ((Piece.frame payload).bytes ++ rest) (.frame payload) rest := by
  have header : ∃ a b c d, toBytes lenBytes payload.length = [a, b, c, d] := ⟨_, _, _, _, rfl⟩
  obtain ⟨a, b, c, d, isHeader⟩ := header
  have length : fromBytes [a, b, c, d] = payload.length := by
    rw [← isHeader]
    exact fromBytes_toBytes (Nat.lt_of_le_of_lt fits (by decide))
  simp only [Piece.bytes, isHeader, magic, List.cons_append, List.nil_append]
  exact .frame a b c d payload rest (length ▸ fits) length.symm

/-- Noise without the magic stays noise in front of a frame. -/
theorem scans_before_frame {noise rest left : Bytes} {pieces : List Piece} (noMagic : ¬ magic <:+: noise)
    (scanned : scanner.Scans (0xAA :: rest) pieces left) :
    scanner.Scans (noise ++ 0xAA :: rest) (noise.map .noise ++ pieces) left := by
  induction noise with
  | nil => exact scanned
  | cons first noise ih =>
    have later := ih fun inside => noMagic (inside.trans (List.suffix_cons first noise).isInfix)
    cases noise with
    | nil => exact (starts_noise (by simp [magic, List.isPrefixOf])).item later
    | cons second noise =>
      refine (starts_noise ?_).item later
      rw [Bool.eq_false_iff]
      intro opens
      refine noMagic (List.IsPrefix.isInfix ?_)
      simpa [magic] using opens

structure Part where
  noise : Bytes
  encoder : Encoder
  payload : Bytes

/-- The stream that carries the parts in order. -/
def wire : List Part → Except EncodeError Bytes
  | [] => .ok []
  | part :: parts => do
    let frame ← part.encoder.encode part.payload
    let rest ← wire parts
    return part.noise ++ frame ++ rest

/-- Frames come back through noise: in order, with the noise set aside and nothing
kept back, however the stream is cut. -/
theorem wire_round_trip (parts : List Part)
    (fits : ∀ part ∈ parts, ¬ magic <:+: part.noise ∧ part.payload.length ≤ part.encoder.limit) :
    ∃ stream, wire parts = .ok stream ∧ ∀ chunks : List Bytes, chunks.flatten = stream →
      FrameDecoder.new.feedAll chunks = (parts.map Part.payload, { buf := [], noise := parts.flatMap Part.noise }) := by
  have scanned : ∃ stream pieces, wire parts = .ok stream ∧ scanner.Scans stream pieces [] ∧
      pieces.filterMap Piece.payload? = parts.map Part.payload ∧ pieces.flatMap Piece.stray = parts.flatMap Part.noise := by
    induction parts with
    | nil => exact ⟨[], [], rfl, .stop rfl, rfl, rfl⟩
    | cons part parts ih =>
      obtain ⟨rest, pieces, carried, scanned, payloads, noise⟩ := ih fun other member => fits other (.tail part member)
      obtain ⟨noMagic, short⟩ := fits part (.head parts)
      have small : part.payload.length ≤ maxFrameLen := short.trans (by cases part.encoder <;> decide)
      refine ⟨part.noise ++ (Piece.frame part.payload).bytes ++ rest,
        part.noise.map .noise ++ .frame part.payload :: pieces, ?_, ?_, ?_, ?_⟩
      · rw [wire, Encoder.encode_eq short, carried]
        rfl
      · rw [List.append_assoc]
        exact scans_before_frame noMagic ((starts_frame small rest).item scanned)
      · simp [Piece.payload?, payloads]
      · simp [Piece.stray, noise]
  obtain ⟨stream, pieces, carried, scanned, payloads, noise⟩ := scanned
  refine ⟨stream, carried, ?_⟩
  rintro chunks rfl
  rw [FrameDecoder.feedAll_new scanned, payloads, noise]

/-- Half a magic in front of a frame whose payload looks like a header, then an empty
frame from the kernel after a stray second half. -/
theorem wire_round_trip_awkward : ∃ stream,
    wire [⟨[0xAA], .harness, [0xAA, 0x99]⟩, ⟨[0x99], .kernel, []⟩] = .ok stream ∧
      ∀ chunks : List Bytes, chunks.flatten = stream →
        FrameDecoder.new.feedAll chunks = ([[0xAA, 0x99], []], { buf := [], noise := [0xAA, 0x99] }) := by
  refine wire_round_trip [⟨[0xAA], .harness, [0xAA, 0x99]⟩, ⟨[0x99], .kernel, []⟩] ?_
  decide

end Kernai.Framing
