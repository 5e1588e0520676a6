import CliPocket.Lib.Json

/-!
# JSON on many lines

- `Value.pretty`: the text of a value with a line for each item and member, two blanks deeper at each level;
- `parse_pretty`: **it is parsed as what it was.**
-/

namespace Json

/-- A new line, `depth` levels in. -/
def newLine (depth : Nat) : List Char := '\n' :: List.replicate (2 * depth) ' '

mutual

def Value.pretty : Nat → Value → List Char
  | _, .null => Value.render .null
  | _, .bool b => Value.render (.bool b)
  | _, .number n => n.text
  | _, .string cs => '"' :: closing cs
  | _, .illFormed => Value.render .illFormed
  | _, .array [] => ['[', ']']
  | depth, .array (item :: items) => '[' :: prettyItems depth (item :: items)
  | _, .object [] => ['{', '}']
  | depth, .object (member :: members) => '{' :: prettyMembers depth (member :: members)
termination_by structural _ v => v

/-- Items, and the closing bracket. -/
def prettyItems : Nat → List Value → List Char
  | depth, [] => newLine depth ++ [']']
  | depth, [item] => newLine (depth + 1) ++ (item.pretty (depth + 1) ++ (newLine depth ++ [']']))
  | depth, item :: items => newLine (depth + 1) ++ (item.pretty (depth + 1) ++ ',' :: prettyItems depth items)
termination_by structural _ items => items

def prettyMember : Nat → List Char × Value → List Char
  | depth, (name, value) => '"' :: (closing name ++ ':' :: ' ' :: value.pretty depth)
termination_by structural _ member => member

/-- Members, and the closing brace. -/
def prettyMembers : Nat → List (List Char × Value) → List Char
  | depth, [] => newLine depth ++ ['}']
  | depth, [member] => newLine (depth + 1) ++ (prettyMember (depth + 1) member ++ (newLine depth ++ ['}']))
  | depth, member :: members =>
    newLine (depth + 1) ++ (prettyMember (depth + 1) member ++ ',' :: prettyMembers depth members)
termination_by structural _ members => members

end

/-! ## Blanks -/

theorem skipBlanks_newLine (depth : Nat) (rest : List Char) : skipBlanks (newLine depth ++ rest) = skipBlanks rest := by
  unfold skipBlanks newLine
  rw [List.dropWhile_append_of_pos]
  intro c hc
  rcases List.mem_cons.mp hc with rfl | hc
  · decide
  · rw [(List.mem_replicate.mp hc).2]
    decide

/-- A new line does not go on with a number. -/
theorem ends_newLine (depth : Nat) (rest : List Char) : Ends (newLine depth ++ rest) := ends_cons (by decide) _

/-- A value is read behind blanks. -/
theorem parseValue_of_skipBlanks {n : Nat} {cs cs' : List Char} (h : skipBlanks cs = skipBlanks cs') :
    parseValue n cs = parseValue n cs' := by
  cases n with
  | zero => rfl
  | succ n =>
    unfold parseValue
    rw [h]

theorem parseValue_newLine (n depth : Nat) (rest : List Char) :
    parseValue n (newLine depth ++ rest) = parseValue n rest := parseValue_of_skipBlanks (skipBlanks_newLine depth rest)

/-! ## Values -/

/-- What a value begins with: no blank, and no closing bracket. -/
theorem pretty_eq_cons (depth : Nat) (v : Value) :
    ∃ c cs, v.pretty depth = c :: cs ∧ c ∉ [' ', '\t', '\n', '\r'] ∧ c ≠ ']' := by
  cases v with
  | null => exact ⟨_, _, rfl, by decide, by decide⟩
  | bool b => cases b <;> exact ⟨_, _, rfl, by decide, by decide⟩
  | number n => exact render_eq_cons (.number n)
  | string cs => exact ⟨_, _, rfl, by decide, by decide⟩
  | illFormed => exact ⟨_, _, rfl, by decide, by decide⟩
  | array items => cases items <;> exact ⟨_, _, rfl, by decide, by decide⟩
  | object members => cases members <;> exact ⟨_, _, rfl, by decide, by decide⟩

theorem length_pretty_pos (depth : Nat) (v : Value) : 0 < (v.pretty depth).length := by
  obtain ⟨c, cs, h, -⟩ := pretty_eq_cons depth v
  rw [h]
  exact Nat.succ_pos _

theorem prettyItems_cons (depth : Nat) (item next : Value) (items : List Value) :
    prettyItems depth (item :: next :: items) =
      newLine (depth + 1) ++ (item.pretty (depth + 1) ++ ',' :: prettyItems depth (next :: items)) := rfl

theorem prettyMembers_cons (depth : Nat) (member next : List Char × Value) (members : List (List Char × Value)) :
    prettyMembers depth (member :: next :: members) =
      newLine (depth + 1) ++ (prettyMember (depth + 1) member ++ ',' :: prettyMembers depth (next :: members)) := rfl

/-- The items of an array begin on a line of their own. -/
theorem prettyItems_eq (depth : Nat) (item : Value) (items : List Value) :
    ∃ cs, prettyItems depth (item :: items) = newLine (depth + 1) ++ (item.pretty (depth + 1) ++ cs) := by
  cases items <;> exact ⟨_, rfl⟩

theorem prettyMembers_eq (depth : Nat) (member : List Char × Value) (members : List (List Char × Value)) :
    ∃ cs, prettyMembers depth (member :: members) = newLine (depth + 1) ++ '"' :: cs := by
  obtain ⟨name, value⟩ := member
  cases members <;> exact ⟨_, rfl⟩

/-- An array with items. -/
theorem parseArray_of_prettyItems {n depth : Nat} {item : Value} {items : List Value} {rest : List Char}
    (h : parseItems (parseValue n) n (prettyItems depth (item :: items) ++ rest) = some (item :: items, rest)) :
    parseArray (parseValue n) n (prettyItems depth (item :: items) ++ rest) = some (.array (item :: items), rest) := by
  obtain ⟨cs, hitems⟩ := prettyItems_eq depth item items
  obtain ⟨c, cs', hcons, hblank, hclose⟩ := pretty_eq_cons (depth + 1) item
  unfold parseArray
  rw [h]
  rw [hitems, hcons, List.append_assoc, skipBlanks_newLine, List.append_assoc, List.cons_append, skipBlanks_cons hblank]
  split
  · next heq =>
    cases heq
    exact absurd rfl hclose
  · rfl

/-- An object with members. -/
theorem parseObject_of_prettyMembers {n depth : Nat} {member : List Char × Value}
    {members : List (List Char × Value)} {rest : List Char}
    (h : parseMembers (parseValue n) n (prettyMembers depth (member :: members) ++ rest) =
      some (member :: members, rest)) :
    parseObject (parseValue n) n (prettyMembers depth (member :: members) ++ rest) =
      some (.object (member :: members), rest) := by
  obtain ⟨cs, hmembers⟩ := prettyMembers_eq depth member members
  unfold parseObject
  rw [h]
  rw [hmembers, List.append_assoc, skipBlanks_newLine, List.cons_append, skipBlanks_cons (by decide)]
  rfl

mutual

theorem parseValue_pretty : ∀ (v : Value) (depth n : Nat) (rest : List Char), (v.pretty depth).length ≤ n →
    Ends rest → parseValue n (v.pretty depth ++ rest) = some (v, rest)
  | .null, _, n, rest, h, hrest => parseValue_render .null n rest h hrest
  | .bool b, _, n, rest, h, hrest => parseValue_render (.bool b) n rest h hrest
  | .number number, _, n, rest, h, hrest => parseValue_render (.number number) n rest h hrest
  | .string cs, _, n, rest, h, hrest => parseValue_render (.string cs) n rest h hrest
  | .illFormed, _, n, rest, h, hrest => parseValue_render .illFormed n rest h hrest
  | .array [], _, n, rest, h, hrest => parseValue_render (.array []) n rest h hrest
  | .object [], _, n, rest, h, hrest => parseValue_render (.object []) n rest h hrest
  | .array (item :: items), depth, n + 1, rest, h, _ => by
    have hlength : (prettyItems depth (item :: items)).length ≤ n := Nat.le_of_succ_le_succ h
    have hitems := parseItems_pretty item items depth n n rest hlength hlength
    refine (parseValue_cons (by decide) n _).trans ?_
    rw [if_neg (by decide), if_pos rfl]
    exact parseArray_of_prettyItems hitems
  | .object (member :: members), depth, n + 1, rest, h, _ => by
    have hlength : (prettyMembers depth (member :: members)).length ≤ n := Nat.le_of_succ_le_succ h
    have hmembers := parseMembers_pretty member members depth n n rest hlength hlength
    refine (parseValue_cons (by decide) n _).trans ?_
    rw [if_neg (by decide), if_neg (by decide), if_pos rfl]
    exact parseObject_of_prettyMembers hmembers
termination_by v => sizeOf v

theorem parseItems_pretty : ∀ (item : Value) (items : List Value) (depth n m : Nat) (rest : List Char),
    (prettyItems depth (item :: items)).length ≤ n → (prettyItems depth (item :: items)).length ≤ m →
    parseItems (parseValue n) m (prettyItems depth (item :: items) ++ rest) = some (item :: items, rest)
  | item, [], depth, n, m + 1, rest, hn, _ => by
    have hlength : (newLine (depth + 1) ++ (item.pretty (depth + 1) ++ (newLine depth ++ [']']))).length ≤ n := hn
    simp only [List.length_append] at hlength
    have hitem := parseValue_pretty item (depth + 1) n (newLine depth ++ ']' :: rest) (by omega) (ends_newLine depth _)
    show parseItems (parseValue n) (m + 1)
      (newLine (depth + 1) ++ (item.pretty (depth + 1) ++ (newLine depth ++ [']'])) ++ rest) = _
    unfold parseItems
    simp only [List.append_assoc, List.singleton_append]
    rw [parseValue_newLine, hitem]
    show (match skipBlanks (newLine depth ++ ']' :: rest) with
      | ']' :: rest => some ([item], rest)
      | ',' :: rest => (parseItems (parseValue n) m rest).bind fun p => some (item :: p.1, p.2)
      | _ => none) = _
    rw [skipBlanks_newLine]
    rfl
  | item, next :: items, depth, n, m + 1, rest, hn, hm => by
    rw [prettyItems_cons, List.length_append, List.length_append, List.length_cons] at hn hm
    have hpos := length_pretty_pos (depth + 1) item
    have hitem := parseValue_pretty item (depth + 1) n (',' :: (prettyItems depth (next :: items) ++ rest)) (by omega)
      (ends_cons (by decide) _)
    have hitems := parseItems_pretty next items depth n m rest (by omega) (by omega)
    rw [prettyItems_cons, List.append_assoc, List.append_assoc, List.cons_append]
    unfold parseItems
    rw [parseValue_newLine, hitem]
    show (parseItems (parseValue n) m (prettyItems depth (next :: items) ++ rest)).bind _ = _
    rw [hitems]
    rfl
  | item, items, depth, n, 0, rest, hn, hm => by
    obtain ⟨cs, hitems⟩ := prettyItems_eq depth item items
    rw [hitems] at hm
    exact absurd hm (Nat.not_succ_le_zero _)
termination_by item items => sizeOf (item :: items)

theorem parseMember_pretty : ∀ (member : List Char × Value) (depth n : Nat) (rest : List Char),
    (prettyMember depth member).length ≤ n → Ends rest →
    parseMember (parseValue n) (newLine depth ++ (prettyMember depth member ++ rest)) = some (member, rest)
  | (name, value), depth, n, rest, hn, hrest => by
    have hlength : ('"' :: (closing name ++ ':' :: ' ' :: value.pretty depth)).length ≤ n := hn
    simp only [List.length_cons, List.length_append] at hlength
    have hvalue := parseValue_pretty value depth n rest (by omega) hrest
    have hname := parseName_closing name (':' :: ' ' :: (value.pretty depth ++ rest))
    show parseMember (parseValue n)
      (newLine depth ++ ('"' :: (closing name ++ ':' :: ' ' :: value.pretty depth) ++ rest)) = _
    unfold parseMember
    rw [skipBlanks_newLine, List.cons_append, skipBlanks_cons (by decide), List.append_assoc, List.cons_append,
      List.cons_append]
    show (parseName (closing name ++ ':' :: ' ' :: (value.pretty depth ++ rest))).bind _ = _
    rw [hname]
    show (match skipBlanks (':' :: ' ' :: (value.pretty depth ++ rest)) with
      | ':' :: rest => (parseValue n rest).bind fun p => some ((name, p.1), p.2)
      | _ => none) = _
    rw [skipBlanks_cons (by decide)]
    show (parseValue n (' ' :: (value.pretty depth ++ rest))).bind _ = _
    have hblank : parseValue n (' ' :: (value.pretty depth ++ rest)) = parseValue n (value.pretty depth ++ rest) :=
      parseValue_of_skipBlanks rfl
    rw [hblank, hvalue]
    rfl
termination_by member => sizeOf member

theorem parseMembers_pretty : ∀ (member : List Char × Value) (members : List (List Char × Value)) (depth n m : Nat)
    (rest : List Char), (prettyMembers depth (member :: members)).length ≤ n →
    (prettyMembers depth (member :: members)).length ≤ m →
    parseMembers (parseValue n) m (prettyMembers depth (member :: members) ++ rest) = some (member :: members, rest)
  | member, [], depth, n, m + 1, rest, hn, _ => by
    have hlength : (newLine (depth + 1) ++ (prettyMember (depth + 1) member ++ (newLine depth ++ ['}']))).length ≤ n := hn
    simp only [List.length_append] at hlength
    have hmember := parseMember_pretty member (depth + 1) n (newLine depth ++ '}' :: rest) (by omega)
      (ends_newLine depth _)
    show parseMembers (parseValue n) (m + 1)
      (newLine (depth + 1) ++ (prettyMember (depth + 1) member ++ (newLine depth ++ ['}'])) ++ rest) = _
    unfold parseMembers
    simp only [List.append_assoc, List.singleton_append]
    rw [hmember]
    show (match skipBlanks (newLine depth ++ '}' :: rest) with
      | '}' :: rest => some ([member], rest)
      | ',' :: rest => (parseMembers (parseValue n) m rest).bind fun p => some (member :: p.1, p.2)
      | _ => none) = _
    rw [skipBlanks_newLine]
    rfl
  | member, next :: members, depth, n, m + 1, rest, hn, hm => by
    rw [prettyMembers_cons, List.length_append, List.length_append, List.length_cons] at hn hm
    have hmember := parseMember_pretty member (depth + 1) n (',' :: (prettyMembers depth (next :: members) ++ rest))
      (by omega) (ends_cons (by decide) _)
    have hmembers := parseMembers_pretty next members depth n m rest (by omega) (by omega)
    rw [prettyMembers_cons, List.append_assoc, List.append_assoc, List.cons_append]
    unfold parseMembers
    rw [hmember]
    show (parseMembers (parseValue n) m (prettyMembers depth (next :: members) ++ rest)).bind _ = _
    rw [hmembers]
    rfl
  | member, members, depth, n, 0, rest, hn, hm => by
    obtain ⟨cs, hmembers⟩ := prettyMembers_eq depth member members
    rw [hmembers] at hm
    exact absurd hm (Nat.not_succ_le_zero _)
termination_by member members => sizeOf (member :: members)

end

/-- **A text on many lines is parsed as what it was.** -/
theorem parse_pretty (v : Value) : parse (v.pretty 0) = some v := by
  have hvalue := parseValue_pretty v 0 (v.pretty 0).length [] (Nat.le_refl _) nofun
  rw [List.append_nil] at hvalue
  unfold parse
  rw [hvalue]
  rfl

end Json
