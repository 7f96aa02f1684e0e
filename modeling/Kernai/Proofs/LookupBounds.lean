import Kernai.Proofs.Lookup

/-! `object_get` on any text at all: no index leaves it, every loop ends, and what is
found is a part of it. -/

namespace Kernai.Json
open Foundation.Rfc8259

variable {s key : Bytes} {i j turns turns' fuel : Nat}

theorem index_at (inside : i < s.length) : s[i]? = some (at' s i) := by
  simp [at', List.getD, List.getElem?_eq_getElem inside]

theorem skipWsFrom_checked (enough : s.length - i < turns) (enough' : s.length - i ≤ turns') :
    Checked.skipWs s turns i = some (skipWsFrom s turns' i) := by
  induction turns generalizing i turns' with
  | zero => cases enough
  | succ turns ih =>
    rw [Checked.skipWs]
    by_cases inside : i < s.length
    · obtain ⟨turns', rfl⟩ : ∃ left, turns' = left + 1 := ⟨turns' - 1, by omega⟩
      rw [if_pos inside, index_at inside, skipWsFrom]
      simp only [Option.bind_eq_bind, Option.bind_some, inside, true_and]
      split
      · exact ih (by omega) (by omega)
      · rfl
    · rw [if_neg inside]
      cases turns' with
      | zero => rfl
      | succ turns' => rw [skipWsFrom, if_neg fun both => inside both.1]

theorem skipScalarFrom_checked (enough : s.length - j < turns) (enough' : s.length - j ≤ turns') :
    Checked.skipScalarFrom s turns j = some (skipScalarFrom s turns' j) := by
  induction turns generalizing j turns' with
  | zero => cases enough
  | succ turns ih =>
    rw [Checked.skipScalarFrom]
    by_cases inside : j < s.length
    · obtain ⟨turns', rfl⟩ : ∃ left, turns' = left + 1 := ⟨turns' - 1, by omega⟩
      rw [if_pos inside, index_at inside, skipScalarFrom]
      simp only [Option.bind_eq_bind, Option.bind_some, inside, true_and]
      split
      · exact ih (by omega) (by omega)
      · rfl
    · rw [if_neg inside]
      cases turns' with
      | zero => rfl
      | succ turns' => rw [skipScalarFrom, if_neg fun both => inside both.1]

theorem skipStringFrom_checked (enough : s.length - j < turns) (enough' : s.length - j ≤ turns') :
    Checked.skipStringFrom s turns j = some (skipStringFrom s turns' j) := by
  induction turns generalizing j turns' with
  | zero => cases enough
  | succ turns ih =>
    rw [Checked.skipStringFrom]
    by_cases inside : j < s.length
    · obtain ⟨turns', rfl⟩ : ∃ left, turns' = left + 1 := ⟨turns' - 1, by omega⟩
      rw [if_pos inside, index_at inside, skipStringFrom, if_pos inside]
      simp only [Option.bind_eq_bind, Option.bind_some]
      split
      · exact ih (by omega) (by omega)
      split
      · rfl
      · exact ih (by omega) (by omega)
    · rw [if_neg inside]
      cases turns' with
      | zero => rfl
      | succ turns' => rw [skipStringFrom, if_neg inside]

theorem skipWs_checked (enough : s.length < fuel) : Checked.skipWs s fuel i = some (skipWs s i) :=
  skipWsFrom_checked (by omega) (by omega)

theorem skipString_checked (enough : s.length < fuel) : Checked.skipString s fuel i = some (skipString s i) :=
  skipStringFrom_checked (by omega) (by omega)

theorem skipStringFrom_forward (s : Bytes) (turns j : Nat) : skipStringFrom s turns j = s.length ∨ j < skipStringFrom s turns j := by
  induction turns generalizing j with
  | zero => exact .inl rfl
  | succ turns ih =>
    rw [skipStringFrom]
    split
    · split
      · exact (ih (j + 2)).imp_right fun forward => by omega
      split
      · exact .inr (Nat.lt_succ_self j)
      · exact (ih (j + 1)).imp_right fun forward => by omega
    · exact .inl rfl

theorem skipString_forward (inside : i < s.length) : i < skipString s i := by
  unfold skipString
  rcases skipStringFrom_forward s s.length (i + 1) with stop | forward
  · rwa [stop]
  · exact Nat.lt_of_succ_lt forward

theorem skipContainerFrom_checked {depth : Int32} (fuelled : s.length < fuel) (enough : s.length - j < turns)
    (enough' : s.length - j ≤ turns') :
    Checked.skipContainerFrom s fuel turns depth j = some (skipContainerFrom s turns' depth j) := by
  induction turns generalizing depth j turns' with
  | zero => cases enough
  | succ turns ih =>
    rw [Checked.skipContainerFrom]
    by_cases inside : j < s.length
    · obtain ⟨turns', rfl⟩ : ∃ left, turns' = left + 1 := ⟨turns' - 1, by omega⟩
      have forward := skipString_forward inside
      rw [if_pos inside, index_at inside, skipContainerFrom, if_pos inside]
      simp only [Option.bind_eq_bind, Option.bind_some, skipString_checked fuelled]
      split
      · exact ih (by omega) (by omega)
      split
      · exact ih (by omega) (by omega)
      split
      · split
        · rfl
        · exact ih (by omega) (by omega)
      · exact ih (by omega) (by omega)
    · rw [if_neg inside]
      cases turns' with
      | zero => rfl
      | succ turns' => rw [skipContainerFrom, if_neg inside]

theorem skipValue_checked (enough : s.length < fuel) : Checked.skipValue s fuel i = some (skipValue s i) := by
  rw [Checked.skipValue, skipWs_checked enough, skipValue]
  simp only [Option.bind_eq_bind, Option.bind_some]
  split
  · rfl
  · next inside =>
    rw [index_at (Nat.not_le.mp inside), Option.bind_some, skipString_checked enough]
    split
    · rfl
    split
    · exact skipContainerFrom_checked enough (by omega) (by omega)
    · exact skipScalarFrom_checked (by omega) (by omega)

theorem misses_eq (s : Bytes) (i : Nat) (expected : UInt8) :
    Checked.misses s i expected = some (decide (s.length ≤ i ∨ at' s i ≠ expected)) := by
  unfold Checked.misses
  split
  · next past => simp [past]
  · next inside =>
    rw [index_at (Nat.not_le.mp inside), Option.map_some, bne, Bool.beq_eq_decide_eq, ← decide_not]
    simp [inside]

theorem skipWsFrom_forward (s : Bytes) (turns i : Nat) : i ≤ skipWsFrom s turns i := by
  induction turns generalizing i with
  | zero => exact Nat.le_refl i
  | succ turns ih =>
    rw [skipWsFrom]
    split
    · exact Nat.le_of_succ_le (ih (i + 1))
    · exact Nat.le_refl i

theorem skipWs_forward (s : Bytes) (i : Nat) : i ≤ skipWs s i := skipWsFrom_forward s s.length i

theorem skipScalarFrom_forward (s : Bytes) (turns j : Nat) : j ≤ skipScalarFrom s turns j := by
  induction turns generalizing j with
  | zero => exact Nat.le_refl j
  | succ turns ih =>
    rw [skipScalarFrom]
    split
    · exact Nat.le_of_succ_le (ih (j + 1))
    · exact Nat.le_refl j

theorem skipContainerFrom_forward (s : Bytes) (turns : Nat) (depth : Int32) (j : Nat) :
    skipContainerFrom s turns depth j = s.length ∨ j ≤ skipContainerFrom s turns depth j := by
  induction turns generalizing depth j with
  | zero => exact .inl rfl
  | succ turns ih =>
    rw [skipContainerFrom]
    split
    · next inside =>
      have forward := skipString_forward inside
      split
      · exact (ih _ _).imp_right fun later => by omega
      split
      · exact (ih _ _).imp_right fun later => by omega
      split
      · split
        · exact .inr (Nat.le_succ j)
        · exact (ih _ _).imp_right fun later => by omega
      · exact (ih _ _).imp_right fun later => by omega
    · exact .inl rfl

theorem skipValue_forward (s : Bytes) (i : Nat) : skipValue s i = s.length ∨ i ≤ skipValue s i := by
  have start := skipWs_forward s i
  rw [skipValue]
  split
  · exact .inl rfl
  · next inside =>
    have forward := skipString_forward (Nat.not_le.mp inside)
    split
    · exact .inr (Nat.le_trans start (Nat.le_of_lt forward))
    split
    · exact (skipContainerFrom_forward s s.length 0 (skipWs s i)).imp_right (Nat.le_trans start)
    · exact .inr (Nat.le_trans start (skipScalarFrom_forward ..))

theorem findMember_checked (fuelled : s.length < fuel) (enough : s.length - i < turns) (enough' : s.length - i ≤ turns') :
    Checked.findMember s key fuel turns i = some (findMember s key turns' i) := by
  induction turns generalizing i turns' with
  | zero => cases enough
  | succ turns ih =>
    have start := skipWs_forward s i
    rw [Checked.findMember, skipWs_checked fuelled]
    simp only [Option.bind_eq_bind, Option.bind_some, misses_eq, decide_eq_true_eq]
    cases turns' with
    | zero =>
      rw [if_pos (.inl (by omega))]
      rfl
    | succ turns' =>
      rw [findMember]
      dsimp only
      split
      · rfl
      next isKey =>
      have forward : skipWs s i < skipString s (skipWs s i) := skipString_forward (by omega)
      rw [skipString_checked fuelled, Option.bind_some, Checked.sub, if_pos (by omega), Option.bind_some]
      cases slice s (skipWs s i + 1) (skipString s (skipWs s i) - 1) with
      | none => rfl
      | some thisKey =>
        dsimp only
        rw [skipWs_checked fuelled]
        simp only [Option.bind_some]
        split
        · rfl
        rw [skipWs_checked fuelled, Option.bind_some, skipValue_checked fuelled, Option.bind_some]
        split
        · rfl
        rw [skipWs_checked fuelled]
        simp only [Option.bind_some]
        have atColon := skipWs_forward s (skipString s (skipWs s i))
        have atValue := skipWs_forward s (skipWs s (skipString s (skipWs s i)) + 1)
        have pastValue := skipValue_forward s (skipWs s (skipWs s (skipString s (skipWs s i)) + 1))
        have atComma := skipWs_forward s (skipValue s (skipWs s (skipWs s (skipString s (skipWs s i)) + 1)))
        generalize skipWs s (skipValue s (skipWs s (skipWs s (skipString s (skipWs s i)) + 1))) = comma at atComma ⊢
        by_cases more : comma < s.length ∧ at' s comma = 0x2c
        · rw [if_neg (by simp [more]), if_pos more]
          exact ih (by omega) (by omega)
        · rw [if_pos (by simpa [Nat.not_le, imp_iff_not_or] using more), if_neg more]

theorem objectGet_checked (enough : s.length < fuel) : Checked.objectGet fuel s key = some (objectGet s key) := by
  rw [Checked.objectGet, skipWs_checked enough, objectGet]
  simp only [Option.bind_eq_bind, Option.bind_some, misses_eq, decide_eq_true_eq]
  split
  · rfl
  · exact findMember_checked enough (by omega) (by omega)

/-! What is found is a part of the text. -/

theorem slice_part {start stop : Nat} {part : Bytes} (found : slice s start stop = some part) : part <:+: s := by
  unfold slice at found
  split at found
  · cases found
    exact (List.take_prefix _ _).isInfix.trans (List.drop_suffix _ _).isInfix
  · cases found

theorem strip_suffix (spaces : List Bytes) (turns : Nat) (text : Bytes) : strip spaces turns text <:+ text := by
  induction turns generalizing text with
  | zero => exact List.suffix_refl _
  | succ turns ih =>
    rw [strip]
    split
    · exact (ih _).trans (List.drop_suffix _ _)
    · exact List.suffix_refl _

theorem trim_part (text : Bytes) : trim text <:+: text := by
  have left : trimStart text <:+ text := strip_suffix _ _ _
  have right : trimEnd (trimStart text) <+: trimStart text := by
    have stripped := strip_suffix (whitespace.map List.reverse) (trimStart text).length (trimStart text).reverse
    rw [← List.reverse_prefix, List.reverse_reverse] at stripped
    exact stripped
  exact right.isInfix.trans left.isInfix

theorem findMember_part {value : Bytes} (found : findMember s key turns i = some value) : value <:+: s := by
  induction turns generalizing i with
  | zero => cases found
  | succ turns ih =>
    rw [findMember] at found
    dsimp only at found
    split at found
    · cases found
    split at found
    · cases found
    split at found
    · cases found
    split at found
    · obtain ⟨part, sliced, rfl⟩ := Option.map_eq_some_iff.mp found
      exact (trim_part part).trans (slice_part sliced)
    split at found
    · exact ih found
    · cases found

theorem objectGet_part {value : Bytes} (found : objectGet s key = some value) : value <:+: s := by
  unfold objectGet at found
  dsimp only at found
  split at found
  · cases found
  · exact findMember_part found

/-- Member lookup on every text: by the grammar on the objects too short to take the
bracket counter round, and within bounds on anything. -/
theorem objectGet_exact (o key : Bytes) :
    (∀ members, IsObject o members → o.length < 2 ^ 32 →
      objectGet o key = (members.find? (·.key = key)).map (·.item.text)) ∧
    (∀ fuel, o.length < fuel → Checked.objectGet fuel o key = some (objectGet o key)) ∧
    ∀ value, objectGet o key = some value → value <:+: o :=
  ⟨fun _ object small => objectGet_members key object small, fun _ => objectGet_checked, fun _ => objectGet_part⟩

private theorem chars_letter : Chars [0x61] [0x61] := Chars.plain 'a' (by decide) (by decide) (by decide) .nil

/-- A member with the key `a`. -/
def memberOf (lead : Blank) (item : Item) : Member :=
  { lead, key := [0x61], name := [0x61], spelled := chars_letter, gap := .none, item }

/-- The string `]}`. -/
def innerItem : Item := ⟨.none, quoted [0x5d, 0x7d], .string [0x5d, 0x7d], .none⟩

/-- An object with a member of the same key, and a blank behind it. -/
def outerItem : Item :=
  ⟨.none, 0x7b :: ((memberOf .none innerItem).spell ++ [0x7d]), .object [([0x61], .string [0x5d, 0x7d])], ⟨[0x20], by decide⟩⟩

def zeroItem : Item := ⟨.none, [0x30], .number [0x30], .none⟩

def awkwardObject : Bytes := Console.utf8 "\x7b\t\"a\":\x7b\"a\":\"]\x7d\"\x7d ,\"a\":0\x7d"

theorem awkwardObject_isObject : IsObject awkwardObject [memberOf ⟨[0x09], by decide⟩ outerItem, memberOf .none zeroItem] := by
  have inner : Reads innerItem.text innerItem.value :=
    .string (.plain ']' (by decide) (by decide) (by decide) (.plain '}' (by decide) (by decide) (by decide) .nil))
  have outer : Reads outerItem.text outerItem.value := by
    refine .object [memberOf .none innerItem] (.last _) ?_
    simp only [List.mem_singleton, forall_eq]
    exact inner
  have zero : Reads zeroItem.text zeroItem.value := by
    refine .number ⟨[], [0x30], [], [], .inl rfl, ⟨⟨by decide, ?_⟩, fun _ => rfl⟩, .inl rfl, .inl rfl, rfl⟩
    simp only [List.mem_singleton, forall_eq]
    exact ⟨by decide, by decide⟩
  refine ⟨?_, .none, .none, _, .cons _ (.last _), by decide⟩
  simp only [List.mem_cons, List.not_mem_nil, or_false]
  rintro member (rfl | rfl)
  · exact outer
  · exact zero

theorem objectGet_exact_awkward : objectGet awkwardObject [0x61] = some (Console.utf8 "\x7b\"a\":\"]\x7d\"\x7d") :=
  ((objectGet_exact awkwardObject [0x61]).1 _ awkwardObject_isObject (by decide)).trans (by decide)

/-- `n` arrays, each alone in the next. -/
def deepArray (n : Nat) : Bytes := List.replicate n 0x5b ++ List.replicate n 0x5d

def deepValue : Nat → Value
  | 0 => .array []
  | n + 1 => .array [deepValue n]

def deepItem (n : Nat) : Item := ⟨.none, deepArray (n + 1), deepValue n, .none⟩

theorem deepItem_spell (n : Nat) : (deepItem n).spell = deepArray (n + 1) := List.append_nil _

theorem deepArray_succ (n : Nat) : deepArray (n + 1) = 0x5b :: (deepArray n ++ [0x5d]) := by
  rw [deepArray, deepArray, List.append_assoc, ← List.replicate_succ', List.replicate_succ, List.cons_append]

theorem deepArray_reads (n : Nat) : Reads (deepArray (n + 1)) (deepValue n) := by
  induction n with
  | zero => exact Reads.array [] (.none .none) (by simp)
  | succ n ih =>
    rw [deepArray_succ, ← deepItem_spell]
    refine Reads.array [deepItem n] (.last _) ?_
    simp only [List.mem_singleton, forall_eq]
    exact ih

def deepObject (n : Nat) : Bytes := 0x7b :: ((memberOf .none (deepItem n)).spell ++ [0x7d])

theorem deepObject_isObject (n : Nat) : IsObject (deepObject n) [memberOf .none (deepItem n)] := by
  refine ⟨?_, .none, .none, _, .last _, rfl⟩
  simp only [List.mem_singleton, forall_eq]
  exact deepArray_reads n

theorem opens_reach {rest : Bytes} (n depth : Nat) (here : At s j (List.replicate n 0x5b ++ rest)) :
    Reaches s (.ofNat depth) j (.ofNat (depth + n)) (j + n) := by
  induction n generalizing depth j with
  | zero => exact Reaches.refl _ _ _
  | succ n ih =>
    rw [List.replicate_succ, List.cons_append] at here
    have opens : Reaches s (.ofNat depth) j (.ofNat (depth + 1)) (j + 1) := by
      refine .turn here.inside (Nat.lt_succ_self j) fun turns => ?_
      rw [skipContainerFrom, if_pos here.inside, here.byte, if_neg (by decide), if_pos (.inr rfl), depth_up]
    have reached := opens.trans (ih (depth + 1) here.next)
    rwa [Nat.add_right_comm, Nat.add_right_comm j] at reached

/-- The first closing bracket takes the counter from 1 to 0 when 2^32 arrays are still
open. -/
theorem skipContainer_deep {rest : Bytes} {n : Nat} (wraps : n % 2 ^ 32 = 0)
    (here : At s i (List.replicate (n + 1) 0x5b ++ (0x5d :: rest))) : skipContainer s i = i + n + 2 := by
  obtain ⟨turns, enough, reached⟩ := opens_reach (n + 1) 0 here s.length (Nat.sub_le ..)
  have there := here.skip
  rw [List.length_replicate] at there
  have inside := there.inside
  cases turns with
  | zero => omega
  | succ turns =>
    rw [skipContainer]
    refine reached.trans ?_
    rw [skipContainerFrom, if_pos inside, there.byte, if_neg (by decide), if_neg (by decide), if_pos (.inr rfl), Nat.zero_add,
      depth_down, if_pos ((depth_zero n).mpr wraps)]
    omega

theorem slice_length {start stop : Nat} {part : Bytes} (found : slice s start stop = some part) :
    part.length ≤ stop - start := by
  unfold slice at found
  split at found
  · cases found
    exact List.length_take_le ..
  · cases found

theorem objectGet_deep {n : Nat} (wraps : n % 2 ^ 32 = 0) (many : 0 < n) :
    objectGet (deepObject n) [0x61] ≠ some (deepArray (n + 1)) := by
  intro found
  have here : At (deepObject n) 0 (0x7b :: (quoted [0x61] ++ (0x3a ::
      (List.replicate (n + 1) 0x5b ++ (0x5d :: (List.replicate n 0x5d ++ [0x7d])))))) := by
    have spelled : deepObject n = 0x7b :: (quoted [0x61] ++ (0x3a ::
        (List.replicate (n + 1) 0x5b ++ (0x5d :: (List.replicate n 0x5d ++ [0x7d]))))) := by
      simp [deepObject, Member.spell, memberOf, deepItem_spell, Blank.none, quoted, deepArray, List.replicate_succ]
    exact spelled ▸ At.start _
  generalize deepObject n = s at found here
  have opened := here.next
  have colon : At s 4 _ := opened.skip
  have value : At s 5 (0x5b :: _) := colon.next
  have keyEnd : skipString s 1 = 4 := skipString_eq chars_letter opened
  have key : slice s (1 + 1) (skipString s 1 - 1) = some [0x61] := key_text chars_letter opened
  have valueEnd : skipValue s 5 = 5 + n + 2 := by
    rw [skipValue, skipWs_solid value (solid_cons (by decide)), if_neg (Nat.not_le.mpr value.inside), value.byte,
      if_neg (by decide), if_pos (.inr rfl)]
    exact skipContainer_deep wraps colon.next
  have inside := here.inside
  obtain ⟨turns, isLength⟩ : ∃ turns, s.length = turns + 1 := ⟨s.length - 1, by omega⟩
  rw [objectGet, skipWs_solid here (solid_cons (by decide)), here.byte, if_neg (not_or.mpr ⟨by omega, by decide⟩), isLength,
    findMember, skipWs_solid opened (solid_cons (by decide))] at found
  dsimp only at found
  rw [if_neg (not_or.mpr ⟨Nat.not_le.mpr opened.inside, by rw [At.byte (show At s _ (0x22 :: _) from opened)]; decide⟩),
    key, keyEnd] at found
  dsimp only at found
  rw [skipWs_solid colon (solid_cons (by decide)), if_neg (not_or.mpr ⟨Nat.not_le.mpr colon.inside, by rw [colon.byte]; decide⟩),
    skipWs_solid value (solid_cons (by decide)), valueEnd, if_pos rfl] at found
  obtain ⟨part, sliced, trimmed⟩ := Option.map_eq_some_iff.mp found
  have short := slice_length sliced
  have shorter := (trim_part part).length_le
  rw [trimmed, deepArray, List.length_append, List.length_replicate, List.length_replicate] at shorter
  omega

/-- With 2^32 + 1 arrays in each other the member found is not the one that is there. -/
theorem objectGet_miscounts : IsObject (deepObject (2 ^ 32)) [memberOf .none (deepItem (2 ^ 32))] ∧
    objectGet (deepObject (2 ^ 32)) [0x61] ≠ some (deepItem (2 ^ 32)).text :=
  ⟨deepObject_isObject _, objectGet_deep (by decide) (by decide)⟩

end Kernai.Json
