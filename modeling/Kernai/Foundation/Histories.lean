import Mathlib.Data.List.Basic
import Mathlib.Data.List.Induction
import Mathlib.Data.List.Nodup

/-! Lists that grow at the end: what each entry owes to those before it, and a ring
that remembers the last few. -/

namespace Kernai.Foundation

variable {α : Type} {items : List α} {item : α}

theorem split_concat {before after : List α} {last : α} (split : items ++ [last] = before ++ item :: after) :
    (before = items ∧ item = last) ∨ ∃ rest, items = before ++ item :: rest := by
  rcases List.eq_nil_or_concat after with rfl | ⟨rest, other, rfl⟩
  · obtain ⟨same, isLast⟩ := List.append_inj' split rfl
    exact .inl ⟨same.symm, (List.singleton_inj.mp isLast).symm⟩
  · have regrouped : items ++ [last] = (before ++ item :: rest) ++ [other] := by
      rw [split, List.concat_eq_append, List.append_assoc, List.cons_append]
    exact .inr ⟨rest, (List.append_inj' regrouped rfl).1⟩

/-- An entry of a history written in parts stands in one of the parts. -/
theorem flatMap_split {β : Type} {parts : α → List β} {before after : List β} {entry : β}
    (split : items.flatMap parts = before ++ entry :: after) :
    ∃ earlier item later front back, items = earlier ++ item :: later ∧ parts item = front ++ entry :: back ∧
      before = earlier.flatMap parts ++ front := by
  induction items generalizing before with
  | nil => simp at split
  | cons first items ih =>
    rw [List.flatMap_cons] at split
    rcases List.append_eq_append_iff.mp split with ⟨rest, isBefore, isRest⟩ | ⟨rest, isFirst, isRest⟩
    · obtain ⟨earlier, item, later, front, back, rfl, inside, rfl⟩ := ih isRest
      exact ⟨first :: earlier, item, later, front, back, rfl, inside, by rw [isBefore, List.flatMap_cons, List.append_assoc]⟩
    · cases rest with
      | nil =>
        rw [List.append_nil] at isFirst
        obtain ⟨earlier, item, later, front, back, rfl, inside, nothing⟩ := @ih [] isRest.symm
        refine ⟨first :: earlier, item, later, front, back, rfl, inside, ?_⟩
        rw [List.flatMap_cons, List.append_assoc, ← nothing, List.append_nil, isFirst]
      | cons other rest =>
        obtain ⟨rfl, -⟩ := List.cons_eq_cons.mp isRest
        exact ⟨[], first, items, before, rest, rfl, isFirst, rfl⟩

/-- Past entries of which it is none, an entry stands in what follows them. -/
theorem append_split {lead rest before after : List α} (absent : item ∉ lead) (split : lead ++ rest = before ++ item :: after) :
    ∃ front, before = lead ++ front ∧ rest = front ++ item :: after := by
  rcases List.append_eq_append_iff.mp split with ⟨front, isBefore, isRest⟩ | ⟨front, isLead, isRest⟩
  · exact ⟨front, isBefore, isRest⟩
  · cases front with
    | nil => exact ⟨[], by rw [isLead, List.append_nil, List.append_nil], isRest.symm⟩
    | cons other front =>
      obtain ⟨rfl, -⟩ := List.cons_eq_cons.mp isRest
      exact absurd (by simp [isLead]) absent

/-- Every entry stands in this relation to the entries before it. -/
def EachFollows (relation : List α → α → Prop) (items : List α) : Prop :=
  ∀ before item after, items = before ++ item :: after → relation before item

theorem EachFollows.nil (relation : List α → α → Prop) : EachFollows relation [] := by
  intro before item after split
  simp at split

theorem EachFollows.concat {relation : List α → α → Prop} (follows : EachFollows relation items) (last : relation items item) :
    EachFollows relation (items ++ [item]) := by
  intro before other after split
  rcases split_concat split with ⟨rfl, rfl⟩ | ⟨rest, old⟩
  · exact last
  · exact follows before other rest old

/-- The last entries, as many as there are slots. -/
def recent (size : Nat) (items : List α) : List α := items.drop (items.length - size)

/-- The slots of a ring hold the last entries of the history; those not written yet
hold the initial value. -/
structure Remembers (initial : α) (items slots : List α) : Prop where
  last : ∀ index < items.length, items.length ≤ index + slots.length → slots[index % slots.length]? = items[index]?
  unused : ∀ index < slots.length, items.length ≤ index → slots[index]? = some initial

theorem Remembers.empty (initial : α) (size : Nat) : Remembers initial [] (List.replicate size initial) where
  last := nofun
  unused index inside _ := by
    rw [List.getElem?_replicate, if_pos (by simpa using inside)]

theorem Remembers.push {initial : α} {slots : List α} (remembers : Remembers initial items slots) (item : α) :
    Remembers initial (items ++ [item]) (slots.set (items.length % slots.length) item) := by
  refine ⟨fun index inside near => ?_, fun index inside later => ?_⟩
  · rw [List.length_append, List.length_singleton] at inside near
    rw [List.length_set] at near ⊢
    rcases Nat.lt_succ_iff_lt_or_eq.mp inside with old | rfl
    · have apart : items.length % slots.length ≠ index % slots.length := by
        intro same
        have distance : (items.length - index) % slots.length = 0 := Nat.sub_mod_eq_zero_of_mod_eq same
        rw [Nat.mod_eq_of_lt (by omega)] at distance
        omega
      rw [List.getElem?_set_ne apart, List.getElem?_append_left old]
      exact remembers.last index old (by omega)
    · have room : items.length % slots.length < slots.length := Nat.mod_lt _ (by omega)
      rw [List.getElem?_set_self room, List.getElem?_concat_length]
  · rw [List.length_append, List.length_singleton] at later
    rw [List.length_set] at inside
    have apart : items.length % slots.length ≠ index := by
      rw [Nat.mod_eq_of_lt (by omega)]
      omega
    rw [List.getElem?_set_ne apart]
    exact remembers.unused index inside (by omega)

/-- Among any `size` consecutive numbers below `stop`, one has the given remainder. -/
theorem exists_recent_index {slot size stop : Nat} (inside : slot < size) (used : slot < stop) :
    ∃ index < stop, stop ≤ index + size ∧ index % size = slot := by
  refine ⟨stop - 1 - (stop - 1 - slot) % size, by omega, ?_, ?_⟩
  · have := Nat.mod_lt (stop - 1 - slot) (Nat.lt_of_le_of_lt (Nat.zero_le slot) inside)
    omega
  · have split := Nat.mod_add_div (stop - 1 - slot) size
    have place : stop - 1 - (stop - 1 - slot) % size = slot + size * ((stop - 1 - slot) / size) := by omega
    rw [place, Nat.add_mul_mod_self_left, Nat.mod_eq_of_lt inside]

theorem mem_recent_iff (size : Nat) :
    item ∈ recent size items ↔ ∃ index < items.length, items.length ≤ index + size ∧ items[index]? = some item := by
  rw [recent, List.mem_iff_getElem?]
  constructor
  · rintro ⟨offset, found⟩
    rw [List.getElem?_drop] at found
    have inside := (List.getElem?_eq_some_iff.mp found).1
    exact ⟨_, inside, by omega, found⟩
  · rintro ⟨index, inside, near, found⟩
    refine ⟨index - (items.length - size), ?_⟩
    rw [List.getElem?_drop, show items.length - size + (index - (items.length - size)) = index by omega]
    exact found

theorem recent_concat_suffix (size : Nat) (items : List α) (item : α) : recent size (items ++ [item]) <:+ recent size items ++ [item] := by
  rw [recent, recent, ← List.drop_append_of_le_length (Nat.sub_le _ _), List.length_append, List.length_singleton]
  exact List.drop_suffix_drop_left _ (by omega)

theorem recent_map {β : Type} (key : α → β) (size : Nat) (items : List α) :
    recent size (items.map key) = (recent size items).map key := by
  rw [recent, recent, List.length_map, List.map_drop]

theorem EachFollows.left {relation : List α → α → Prop} {more : List α} (follows : EachFollows relation (items ++ more)) :
    EachFollows relation items := by
  intro before item after split
  exact follows before item (after ++ more) (by rw [split, List.append_assoc, List.cons_append])

/-- Where no entry's key is among the last few before it, those of the last few are all different. -/
theorem EachFollows.recent_nodup {β : Type} {key : α → β} {size : Nat}
    (fresh : EachFollows (fun before item => key item ∉ (recent size before).map key) items) :
    ((recent size items).map key).Nodup := by
  induction items using List.reverseRecOn with
  | nil => simp [recent]
  | append_singleton items item ih =>
    refine List.Nodup.sublist ((recent_concat_suffix size items item).sublist.map key) ?_
    rw [List.map_append, List.map_singleton, ← List.concat_eq_append, List.nodup_concat]
    exact ⟨fresh items item [] rfl, ih fresh.left⟩

/-- An entry that comes back is out of the last few by then. -/
theorem recent_between {size : Nat} {before between : List α} (fresh : item ∉ recent size (before ++ item :: between)) :
    size ≤ between.length ∧ recent size (before ++ item :: between) = recent size between := by
  have far : size ≤ between.length := by
    by_contra near
    refine fresh ((mem_recent_iff size).mpr ⟨before.length, by simp, ?_, by simp⟩)
    simp only [List.length_append, List.length_cons]
    omega
  refine ⟨far, ?_⟩
  have place : (before ++ item :: between).length - size = (before ++ [item]).length + (between.length - size) := by
    simp only [List.length_append, List.length_cons, List.length_nil]
    omega
  rw [recent, recent, place, ← List.drop_drop, List.append_cons before item between, List.drop_left]

/-- So between two of its appearances there are those of that many others, all different. -/
theorem EachFollows.apart {β : Type} {key : α → β} {size : Nat} {before between after : List α}
    (fresh : EachFollows (fun before item => key item ∉ (recent size before).map key) (before ++ item :: (between ++ item :: after))) :
    ∃ others, others <:+ between ∧ others.length = size ∧ (item :: others).Nodup := by
  have regrouped : before ++ item :: (between ++ item :: after) = (before ++ item :: between) ++ item :: after := by simp
  have last := fresh (before ++ item :: between) item after regrouped
  obtain ⟨far, same⟩ := recent_between fun among => last (List.mem_map_of_mem among)
  rw [regrouped] at fresh
  have different := (fresh.left.recent_nodup).of_map
  simp only [same] at last different
  refine ⟨recent size between, List.drop_suffix _ _, ?_, List.nodup_cons.mpr ⟨fun among => last (List.mem_map_of_mem among), different⟩⟩
  rw [recent, List.length_drop]
  omega

/-- What a search of the ring finds. -/
theorem Remembers.mem_iff {initial : α} {slots : List α} (remembers : Remembers initial items slots) (written : item ≠ initial) :
    item ∈ slots ↔ item ∈ recent slots.length items := by
  rw [mem_recent_iff, List.mem_iff_getElem?]
  constructor
  · rintro ⟨slot, found⟩
    have inside := (List.getElem?_eq_some_iff.mp found).1
    by_cases used : slot < items.length
    · obtain ⟨index, old, near, place⟩ := exists_recent_index inside used
      have held := remembers.last index old near
      rw [place, found] at held
      exact ⟨index, old, near, held.symm⟩
    · rw [remembers.unused slot inside (by omega)] at found
      exact absurd (Option.some.inj found).symm written
  · rintro ⟨index, old, near, found⟩
    exact ⟨index % slots.length, (remembers.last index old near).trans found⟩

/-- Numbered slots that hold the last entries of the history, each in the slot its number
falls on. -/
def Recalls (size : Nat) (items : List α) (slots : Nat → α) : Prop :=
  ∀ index < items.length, items.length ≤ index + size → items[index]? = some (slots (index % size))

theorem Recalls.empty (size : Nat) (slots : Nat → α) : Recalls size [] slots := fun _ inside => absurd inside (Nat.not_lt_zero _)

theorem Recalls.push {size : Nat} {slots : Nat → α} (recalls : Recalls size items slots) (item : α) :
    Recalls size (items ++ [item]) fun slot => if slot = items.length % size then item else slots slot := by
  intro index inside near
  dsimp only
  rw [List.length_append, List.length_singleton] at inside near
  rcases Nat.lt_succ_iff_lt_or_eq.mp inside with old | rfl
  · have apart : index % size ≠ items.length % size := by
      intro same
      have distance : (items.length - index) % size = 0 := Nat.sub_mod_eq_zero_of_mod_eq same.symm
      rw [Nat.mod_eq_of_lt (by omega)] at distance
      omega
    rw [List.getElem?_append_left old, if_neg apart]
    exact recalls index old (by omega)
  · rw [List.getElem?_concat_length, if_pos rfl]

/-- Read in the order of their numbers, the slots are the last entries, oldest first. -/
theorem Recalls.oldest {size : Nat} {slots : Nat → α} (recalls : Recalls size items slots) :
    (List.range' (items.length - size) (items.length - (items.length - size))).map (fun n => slots (n % size)) =
      recent size items := by
  refine List.ext_getElem? fun offset => ?_
  rw [List.getElem?_map, recent, List.getElem?_drop]
  by_cases inside : offset < items.length - (items.length - size)
  · rw [List.getElem?_range' inside, recalls _ (by omega) (by omega)]
    simp
  · rw [List.getElem?_eq_none (by rw [List.length_range']; omega), List.getElem?_eq_none (by omega)]
    rfl

/-- Read backwards from the end, they are as many of the last entries, newest first. -/
theorem Recalls.newest {size shown : Nat} {slots : Nat → α} (recalls : Recalls size items slots) (few : shown ≤ items.length)
    (room : shown ≤ size) :
    (List.range shown).map (fun k => slots ((items.length - 1 - k) % size)) = items.reverse.take shown := by
  refine List.ext_getElem? fun offset => ?_
  rw [List.getElem?_map, List.getElem?_take]
  by_cases inside : offset < shown
  · rw [List.getElem?_range inside, if_pos inside, List.getElem?_reverse (by omega), recalls _ (by omega) (by omega)]
    rfl
  · rw [List.getElem?_eq_none (by rw [List.length_range]; omega), if_neg inside]
    rfl

end Kernai.Foundation
