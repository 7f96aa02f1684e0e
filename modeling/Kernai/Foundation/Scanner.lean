import Mathlib.Data.List.Basic

/-! Incremental readers. A scanner takes items off the front of a stream, never on
evidence that later input could overturn; so what it makes of a stream does not
depend on how the stream arrives. -/

namespace Kernai.Foundation

structure Scanner (α β : Type) where
  next : List α → Option (β × List α)
  spell : β → List α
  exact : ∀ {stream item rest}, next stream = some (item, rest) → stream = spell item ++ rest
  shrinks : ∀ {stream item rest}, next stream = some (item, rest) → rest.length < stream.length
  stable : ∀ {stream item rest}, next stream = some (item, rest) → ∀ more,
    next (stream ++ more) = some (item, rest ++ more)

variable {α β : Type} {scanner : Scanner α β}

/-- All the items a stream begins with, and what is left waiting for more. -/
inductive Scanner.Scans (scanner : Scanner α β) : List α → List β → List α → Prop
  | stop {stream : List α} (waits : scanner.next stream = none) : scanner.Scans stream [] stream
  | item {stream rest left : List α} {first : β} {items : List β} (found : scanner.next stream = some (first, rest))
      (scanned : scanner.Scans rest items left) : scanner.Scans stream (first :: items) left

theorem Scanner.scans_exists (scanner : Scanner α β) (stream : List α) : ∃ items left, scanner.Scans stream items left := by
  induction bound : stream.length using Nat.strongRecOn generalizing stream with
  | ind size ih =>
    cases found : scanner.next stream with
    | none => exact ⟨[], stream, .stop found⟩
    | some taken =>
      obtain ⟨items, left, scanned⟩ := ih taken.2.length (bound ▸ scanner.shrinks found) taken.2 rfl
      exact ⟨taken.1 :: items, left, .item found scanned⟩

namespace Scanner.Scans

theorem unique {stream left left' : List α} {items items' : List β} (first : scanner.Scans stream items left)
    (second : scanner.Scans stream items' left') : items = items' ∧ left = left' := by
  induction first generalizing items' with
  | stop waits =>
    cases second with
    | stop _ => exact ⟨rfl, rfl⟩
    | item found _ => simp [waits] at found
  | item found _ ih =>
    cases second with
    | stop waits => simp [waits] at found
    | item found' scanned' =>
      obtain ⟨rfl, rfl⟩ := Prod.mk.inj (Option.some.inj (found.symm.trans found'))
      obtain ⟨rfl, rfl⟩ := ih scanned'
      exact ⟨rfl, rfl⟩

/-- No element is lost, repeated or moved. -/
theorem spelled {stream left : List α} {items : List β} (scanned : scanner.Scans stream items left) :
    stream = items.flatMap scanner.spell ++ left := by
  induction scanned with
  | stop _ => rfl
  | item found _ ih => rw [scanner.exact found, ih, List.flatMap_cons, List.append_assoc]

theorem waits {stream left : List α} {items : List β} (scanned : scanner.Scans stream items left) :
    scanner.next left = none := by
  induction scanned with
  | stop waits => exact waits
  | item _ _ ih => exact ih

/-- Scanning goes on where it stopped when more of the stream arrives. -/
theorem append {stream left more left' : List α} {items items' : List β} (scanned : scanner.Scans stream items left)
    (again : scanner.Scans (left ++ more) items' left') : scanner.Scans (stream ++ more) (items ++ items') left' := by
  induction scanned with
  | stop _ => exact again
  | item found _ ih => exact .item (scanner.stable found more) (ih again)

end Scanner.Scans

/-- A stream that arrives in pieces, scanned after each. -/
inductive Scanner.Fed (scanner : Scanner α β) : List α → List (List α) → List β → List α → Prop
  | done (buffer : List α) : scanner.Fed buffer [] [] buffer
  | chunk {buffer chunk middle left : List α} {chunks : List (List α)} {items items' : List β}
      (scanned : scanner.Scans (buffer ++ chunk) items middle) (fed : scanner.Fed middle chunks items' left) :
      scanner.Fed buffer (chunk :: chunks) (items ++ items') left

/-- Feeding a stream in pieces is scanning it whole. -/
theorem Scanner.Fed.scans {buffer left : List α} {chunks : List (List α)} {items : List β}
    (fed : scanner.Fed buffer chunks items left) (waiting : scanner.next buffer = none) :
    scanner.Scans (buffer ++ chunks.flatten) items left := by
  induction fed with
  | done buffer =>
    rw [List.flatten_nil, List.append_nil]
    exact .stop waiting
  | chunk scanned _ ih =>
    rw [List.flatten_cons, ← List.append_assoc]
    exact scanned.append (ih scanned.waits)

end Kernai.Foundation
