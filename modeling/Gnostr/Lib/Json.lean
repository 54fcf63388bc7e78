/-
JSON values, the compact text they are written as, and a reader of such texts.
The reader shows that the writing is unambiguous: what a value is written as is
read back whatever follows it.
-/
import Gnostr.Lib.Decimal
import Gnostr.Lib.Hex

namespace Gnostr

/-- A JSON value with whole numbers only.  The members of an object keep their
order. -/
inductive Json where
  | null
  | bool (value : Bool)
  | int (number : ℤ)
  | str (text : String)
  | arr (items : List Json)
  | obj (members : List (String × Json))

namespace Json

/-- A character within a string. -/
def escapeChar (c : Char) : List Char :=
  if c = '"' then ['\\', '"']
  else if c = '\\' then ['\\', '\\']
  else if c = '\x08' then ['\\', 'b']
  else if c = '\t' then ['\\', 't']
  else if c = '\n' then ['\\', 'n']
  else if c = '\x0c' then ['\\', 'f']
  else if c = '\r' then ['\\', 'r']
  else if c.toNat < 32 then
    ['\\', 'u', '0', '0', Hex.hexDigits.getD (c.toNat / 16) '0',
      Hex.hexDigits.getD (c.toNat % 16) '0']
  else [c]

/-- The rest of a string behind its opening quotation mark. -/
def renderRest : List Char → List Char
  | [] => ['"']
  | c :: chars => escapeChar c ++ renderRest chars

mutual

/-- The text of a value, without spaces. -/
def render : Json → List Char
  | null => ['n', 'u', 'l', 'l']
  | bool true => ['t', 'r', 'u', 'e']
  | bool false => ['f', 'a', 'l', 's', 'e']
  | int number => decimalInt number
  | str text => '"' :: renderRest text.toList
  | arr [] => ['[', ']']
  | arr (item :: items) => '[' :: (render item ++ renderItems items)
  | obj [] => ['\x7b', '\x7d']
  | obj (member :: members) =>
      '\x7b' :: '"' :: (renderRest member.1.toList ++
        ':' :: (render member.2 ++ renderMembers members))

/-- The items behind the first one, and the closing bracket. -/
def renderItems : List Json → List Char
  | [] => [']']
  | item :: items => ',' :: (render item ++ renderItems items)

/-- The members behind the first one, and the closing brace. -/
def renderMembers : List (String × Json) → List Char
  | [] => ['\x7d']
  | member :: members =>
      ',' :: '"' :: (renderRest member.1.toList ++
        ':' :: (render member.2 ++ renderMembers members))

end

theorem render_arr_cons (item : Json) (items : List Json) :
    (arr (item :: items)).render = '[' :: (item.render ++ renderItems items) := by
  rw [render]

section Reader

/-- The value of a hexadecimal digit. -/
def hexDigit (c : Char) : ℕ := Hex.hexDigits.idxOf c

/-- A character of a string, with its escape taken off. -/
def readChar : List Char → Option (Char × List Char)
  | [] => none
  | first :: rest =>
      if first ≠ '\\' then some (first, rest)
      else
        match rest with
        | [] => none
        | second :: rest =>
            if second = 'b' then some ('\x08', rest)
            else if second = 't' then some ('\t', rest)
            else if second = 'n' then some ('\n', rest)
            else if second = 'f' then some ('\x0c', rest)
            else if second = 'r' then some ('\r', rest)
            else if second = 'u' then
              match rest with
              | _ :: _ :: high :: low :: rest =>
                  some (Char.ofNat (16 * hexDigit high + hexDigit low), rest)
              | _ => none
            else some (second, rest)

/-- The rest of a string behind its opening quotation mark, and what follows its
closing one. -/
def readRest : ℕ → List Char → Option (List Char × List Char)
  | 0, _ => none
  | fuel + 1, chars =>
      if chars.head? = some '"' then some ([], chars.tail)
      else
        (readChar chars).bind fun first =>
          (readRest fuel first.2).map fun others =>
            (first.1 :: others.1, others.2)

/-- A whole number and what follows it. -/
def readInt (chars : List Char) : Option (ℤ × List Char) :=
  if chars.head? = some '-' then
    (digitsValue (chars.tail.takeWhile Char.isDigit)).map fun value : ℕ =>
      (-(value : ℤ), chars.tail.dropWhile Char.isDigit)
  else
    (digitsValue (chars.takeWhile Char.isDigit)).map fun value : ℕ =>
      ((value : ℤ), chars.dropWhile Char.isDigit)

mutual

/-- A value and what follows it. -/
def readValue : ℕ → List Char → Option (Json × List Char)
  | 0, _ => none
  | fuel + 1, chars =>
      if chars.take 4 = ['n', 'u', 'l', 'l'] then some (null, chars.drop 4)
      else if chars.take 4 = ['t', 'r', 'u', 'e'] then
        some (bool true, chars.drop 4)
      else if chars.take 5 = ['f', 'a', 'l', 's', 'e'] then
        some (bool false, chars.drop 5)
      else if chars.head? = some '"' then
        (readRest fuel chars.tail).map fun text =>
          (str (String.ofList text.1), text.2)
      else if chars.take 2 = ['[', ']'] then some (arr [], chars.drop 2)
      else if chars.head? = some '[' then
        (readValue fuel chars.tail).bind fun item =>
          (readItems fuel item.2).map fun items =>
            (arr (item.1 :: items.1), items.2)
      else if chars.take 2 = ['\x7b', '\x7d'] then some (obj [], chars.drop 2)
      else if chars.head? = some '\x7b' then
        (readMember fuel chars.tail).bind fun member =>
          (readMembers fuel member.2).map fun members =>
            (obj (member.1 :: members.1), members.2)
      else (readInt chars).map fun number => (int number.1, number.2)

/-- The items behind the first one, up to the closing bracket. -/
def readItems : ℕ → List Char → Option (List Json × List Char)
  | 0, _ => none
  | fuel + 1, chars =>
      if chars.head? = some ']' then some ([], chars.tail)
      else if chars.head? = some ',' then
        (readValue fuel chars.tail).bind fun item =>
          (readItems fuel item.2).map fun items =>
            (item.1 :: items.1, items.2)
      else none

/-- A name and its value. -/
def readMember : ℕ → List Char → Option ((String × Json) × List Char)
  | 0, _ => none
  | fuel + 1, chars =>
      if chars.head? = some '"' then
        (readRest fuel chars.tail).bind fun name =>
          if name.2.head? = some ':' then
            (readValue fuel name.2.tail).map fun value =>
              ((String.ofList name.1, value.1), value.2)
          else none
      else none

/-- The members behind the first one, up to the closing brace. -/
def readMembers : ℕ → List Char → Option (List (String × Json) × List Char)
  | 0, _ => none
  | fuel + 1, chars =>
      if chars.head? = some '\x7d' then some ([], chars.tail)
      else if chars.head? = some ',' then
        (readMember fuel chars.tail).bind fun member =>
          (readMembers fuel member.2).map fun members =>
            (member.1 :: members.1, members.2)
      else none

end

end Reader

section RoundTrip

theorem ofNat_hexDigits {n : ℕ} (hlt : n < 32) :
    16 * hexDigit (Hex.hexDigits.getD (n / 16) '0') +
      hexDigit (Hex.hexDigits.getD (n % 16) '0') = n := by
  revert n
  decide +kernel

theorem readChar_escapeChar (c : Char) (rest : List Char) :
    readChar (escapeChar c ++ rest) = some (c, rest) := by
  unfold escapeChar
  split_ifs with hquote hslash hback htab hnewline hfeed hreturn hcontrol
  · subst hquote; rfl
  · subst hslash; rfl
  · subst hback; rfl
  · subst htab; rfl
  · subst hnewline; rfl
  · subst hfeed; rfl
  · subst hreturn; rfl
  · have hcode := ofNat_hexDigits hcontrol
    simp only [List.cons_append, List.nil_append, readChar]
    rw [hcode, Char.ofNat_toNat]
    rfl
  · simp [readChar, hslash]

theorem head?_escapeChar (c : Char) (rest : List Char) :
    (escapeChar c ++ rest).head? ≠ some '"' := by
  unfold escapeChar
  split_ifs with hquote <;> simp [hquote]

theorem length_escapeChar_pos (c : Char) : 0 < (escapeChar c).length := by
  unfold escapeChar
  split_ifs <;> simp

theorem length_renderRest_le (chars : List Char) :
    (renderRest chars).length ≤ 6 * chars.length + 1 := by
  induction chars with
  | nil => simp [renderRest]
  | cons c chars ih =>
      have hle : (escapeChar c).length ≤ 6 := by
        unfold escapeChar
        split_ifs <;> simp
      rw [renderRest, List.length_append, List.length_cons]
      omega

theorem readRest_renderRest (chars rest : List Char) :
    ∀ fuel, (renderRest chars).length ≤ fuel →
      readRest fuel (renderRest chars ++ rest) = some (chars, rest) := by
  induction chars with
  | nil =>
      intro fuel hfuel
      cases fuel with
      | zero => simp [renderRest] at hfuel
      | succ fuel => simp [renderRest, readRest]
  | cons c chars ih =>
      intro fuel hfuel
      have hpos := length_escapeChar_pos c
      rw [renderRest, List.length_append] at hfuel
      cases fuel with
      | zero => omega
      | succ fuel =>
          rw [renderRest, List.append_assoc, readRest,
            if_neg (head?_escapeChar _ _), readChar_escapeChar, Option.bind_some,
            ih fuel (by omega)]
          rfl

/-- What follows a number does not prolong it. -/
def NoDigitFirst (rest : List Char) : Prop :=
  ∀ c ∈ rest.head?, c.isDigit = false

theorem noDigitFirst_cons {c : Char} (hc : c.isDigit = false) (rest : List Char) :
    NoDigitFirst (c :: rest) := by
  intro first hfirst
  rwa [← Option.some.inj hfirst]

theorem takeWhile_decimal {rest : List Char} (hrest : NoDigitFirst rest)
    (number : ℕ) : (decimal number ++ rest).takeWhile Char.isDigit =
      decimal number := by
  rw [List.takeWhile_append_of_pos fun c => isDigit_of_mem_decimal]
  cases rest with
  | nil => simp
  | cons c rest => simp [hrest c rfl]

theorem dropWhile_decimal {rest : List Char} (hrest : NoDigitFirst rest)
    (number : ℕ) : (decimal number ++ rest).dropWhile Char.isDigit = rest := by
  rw [List.dropWhile_append_of_pos fun c => isDigit_of_mem_decimal]
  cases rest with
  | nil => simp
  | cons c rest => simp [hrest c rfl]

theorem readInt_decimalInt {rest : List Char} (hrest : NoDigitFirst rest)
    (number : ℤ) : readInt (decimalInt number ++ rest) = some (number, rest) := by
  cases number with
  | ofNat number =>
      have hhead : (decimal number ++ rest).head? ≠ some '-' := by
        rw [List.head?_append_of_ne_nil _ (decimal_ne_nil number)]
        exact head?_decimal_ne (by decide) number
      rw [decimalInt, readInt, if_neg hhead, takeWhile_decimal hrest,
        dropWhile_decimal hrest, digitsValue_decimal]
      rfl
  | negSucc number =>
      rw [decimalInt, List.cons_append, readInt, List.head?_cons, if_pos rfl,
        List.tail_cons, takeWhile_decimal hrest, dropWhile_decimal hrest,
        digitsValue_decimal]
      rfl

theorem decimalInt_cons (number : ℤ) :
    ∃ c chars, decimalInt number = c :: chars ∧
      c ∉ ['n', 't', 'f', '"', '[', ']', '\x7b'] := by
  cases number with
  | ofNat number =>
      obtain ⟨c, chars, hdigits⟩ :=
        List.exists_cons_of_ne_nil (decimal_ne_nil number)
      refine ⟨c, chars, hdigits, fun hmem => ?_⟩
      have hdigit : c.isDigit = true :=
        isDigit_of_mem_decimal (hdigits ▸ List.mem_cons_self)
      have hnone : (['n', 't', 'f', '"', '[', ']', '\x7b'].all
          fun c => !c.isDigit) = true := by decide
      have hnot := List.all_eq_true.mp hnone c hmem
      rw [hdigit] at hnot
      cases hnot
  | negSucc number => exact ⟨'-', decimal (number + 1), rfl, by decide⟩

/-- No value begins like the end of an array. -/
theorem head?_render (value : Json) (rest : List Char) :
    (render value ++ rest).head? ≠ some ']' := by
  cases value with
  | null => simp [render]
  | bool value => cases value <;> simp [render]
  | int number =>
      obtain ⟨c, chars, hnumber, hc⟩ := decimalInt_cons number
      rw [render, hnumber]
      rintro ⟨⟩
      exact hc (by decide)
  | str text => simp [render]
  | arr items => cases items <;> simp [render]
  | obj members => cases members <;> simp [render]

theorem noDigitFirst_renderItems (items : List Json) (rest : List Char) :
    NoDigitFirst (renderItems items ++ rest) := by
  cases items with
  | nil => exact noDigitFirst_cons (by decide) _
  | cons item items => exact noDigitFirst_cons (by decide) _

theorem noDigitFirst_renderMembers (members : List (String × Json))
    (rest : List Char) : NoDigitFirst (renderMembers members ++ rest) := by
  cases members with
  | nil => exact noDigitFirst_cons (by decide) _
  | cons member members => exact noDigitFirst_cons (by decide) _

theorem length_render_pos (value : Json) : 0 < (render value).length := by
  cases value with
  | null => simp [render]
  | bool value => cases value <;> simp [render]
  | int number =>
      obtain ⟨c, chars, hnumber, _⟩ := decimalInt_cons number
      simp [render, hnumber]
  | str text => simp [render]
  | arr items => cases items <;> simp [render]
  | obj members => cases members <;> simp [render]

theorem readMember_of_readValue (name : String) {value : Json} {rest : List Char}
    {fuel : ℕ} (hname : (renderRest name.toList).length ≤ fuel)
    (hvalue : readValue fuel (render value ++ rest) = some (value, rest)) :
    readMember (fuel + 1)
        ('"' :: (renderRest name.toList ++ ':' :: (render value ++ rest))) =
      some ((name, value), rest) := by
  rw [readMember, List.head?_cons, if_pos rfl, List.tail_cons,
    readRest_renderRest _ _ _ hname, Option.bind_some, List.head?_cons, if_pos rfl,
    List.tail_cons, hvalue, String.ofList_toList]
  rfl

mutual

/-- A value is read back, whatever follows it. -/
theorem readValue_render : ∀ (value : Json) (rest : List Char) (fuel : ℕ),
    NoDigitFirst rest → (render value).length ≤ fuel →
      readValue fuel (render value ++ rest) = some (value, rest)
  | value, _, 0, _, hfuel => by
      have hpos := length_render_pos value
      omega
  | .null, _, fuel + 1, _, _ => by simp [render, readValue]
  | .bool true, _, fuel + 1, _, _ => by simp [render, readValue]
  | .bool false, _, fuel + 1, _, _ => by simp [render, readValue]
  | .int number, rest, fuel + 1, hrest, _ => by
      obtain ⟨c, chars, hnumber, hc⟩ := decimalInt_cons number
      have hread := readInt_decimalInt hrest number
      simp only [List.mem_cons, List.not_mem_nil, or_false, not_or] at hc
      rw [hnumber] at hread
      simp only [render, hnumber]
      simp [readValue, hc] at hread ⊢
      exact hread
  | .str text, rest, fuel + 1, _, hfuel => by
      rw [render, List.length_cons] at hfuel
      have htext := readRest_renderRest text.toList rest fuel (by omega)
      simp [render, readValue, htext]
  | .arr [], _, fuel + 1, _, _ => by simp [render, readValue]
  | .arr (item :: items), rest, fuel + 1, _, hfuel => by
      rw [render, List.length_cons, List.length_append] at hfuel
      have hitem := readValue_render item _ fuel
        (noDigitFirst_renderItems items rest) (by omega)
      have hitems := readItems_renderItems items rest fuel (by omega)
      obtain ⟨c, chars, hchars⟩ := List.exists_cons_of_length_pos
        (length_render_pos item)
      have hhead := head?_render item []
      rw [hchars] at hitem hhead
      simp at hhead
      simp only [List.cons_append] at hitem
      simp [render, readValue, hchars, hhead, hitem, hitems]
  | .obj [], _, fuel + 1, _, _ => by simp [render, readValue]
  | .obj ((name, value) :: members), rest, fuel + 2, _, hfuel => by
      simp only [render, List.length_cons, List.length_append] at hfuel
      have hvalue := readValue_render value _ fuel
        (noDigitFirst_renderMembers members rest) (by omega)
      have hmember := readMember_of_readValue name (by omega) hvalue
      have hmembers := readMembers_renderMembers members rest (fuel + 1) (by omega)
      simp [render, readValue, hmember, hmembers]
  | .obj ((name, value) :: members), rest, 1, _, hfuel => by
      simp only [render, List.length_cons, List.length_append] at hfuel
      omega

theorem readItems_renderItems : ∀ (items : List Json) (rest : List Char) (fuel : ℕ),
    (renderItems items).length ≤ fuel →
      readItems fuel (renderItems items ++ rest) = some (items, rest)
  | [], _, 0, hfuel => by simp [renderItems] at hfuel
  | _ :: _, _, 0, hfuel => by simp [renderItems] at hfuel
  | [], _, fuel + 1, _ => by simp [renderItems, readItems]
  | item :: items, rest, fuel + 1, hfuel => by
      rw [renderItems, List.length_cons, List.length_append] at hfuel
      have hitem := readValue_render item _ fuel
        (noDigitFirst_renderItems items rest) (by omega)
      have hitems := readItems_renderItems items rest fuel (by omega)
      simp [renderItems, readItems, hitem, hitems]

theorem readMembers_renderMembers :
    ∀ (members : List (String × Json)) (rest : List Char) (fuel : ℕ),
    (renderMembers members).length ≤ fuel →
      readMembers fuel (renderMembers members ++ rest) = some (members, rest)
  | [], _, 0, hfuel => by simp [renderMembers] at hfuel
  | _ :: _, _, 0, hfuel => by simp [renderMembers] at hfuel
  | [], _, fuel + 1, _ => by simp [renderMembers, readMembers]
  | (name, value) :: members, rest, 1, hfuel => by
      simp [renderMembers] at hfuel
  | (name, value) :: members, rest, fuel + 2, hfuel => by
      simp only [renderMembers, List.length_cons, List.length_append] at hfuel
      have hvalue := readValue_render value _ fuel
        (noDigitFirst_renderMembers members rest) (by omega)
      have hmember := readMember_of_readValue name (by omega) hvalue
      have hmembers := readMembers_renderMembers members rest (fuel + 1) (by omega)
      simp only [renderMembers, List.cons_append, List.append_assoc]
      rw [readMembers]
      simp [hmember, hmembers]

end

/-- A text is the text of one value only. -/
theorem render_injective : Function.Injective render := by
  intro first second hsame
  have hfirst := readValue_render first [] _ nofun le_rfl
  have hsecond := readValue_render second [] _ nofun le_rfl
  rw [hsame, hsecond] at hfirst
  exact (congrArg Prod.fst (Option.some.inj hfirst)).symm

end RoundTrip

end Json

/-- The value of the only member of a name. -/
def Json.member (members : List (String × Json)) (name : String) : Option Json :=
  match members.filter fun member => member.1 == name with
  | [member] => some member.2
  | _ => none

/-- The fields of a record, by their names or in their order.  Every field is
there once; an object may hold others, an array may not. -/
def Json.record (names : List String) : Json → Option (List Json)
  | .obj members => names.mapM (member members)
  | .arr items => if items.length = names.length then some items else none
  | _ => none

/-- The value is not nested too deeply for a reader, and its numbers are of 64
bits. -/
def Json.fits : ℕ → Json → Bool
  | _, .int number => decide (-2 ^ 63 ≤ number ∧ number < 2 ^ 64)
  | 0, .arr _ => false
  | depth + 1, .arr items => items.all (fits depth)
  | 0, .obj _ => false
  | depth + 1, .obj members => members.all fun member => fits depth member.2
  | _, _ => true

/-- A reader of JSON texts.  Of the texts that were not written from a value,
nothing is said. -/
structure JsonReader where
  read : String → Option Json
  read_render : ∀ {value : Json}, value.fits 127 = true →
    read (String.ofList value.render) = some value

/-- The reader of the texts without spaces. -/
def JsonReader.compact : JsonReader where
  read text :=
    ((Json.readValue text.toList.length text.toList).filter
      fun value => value.2.isEmpty).map Prod.fst
  read_render := by
    intro value _
    have hread := Json.readValue_render value [] _ nofun le_rfl
    rw [List.append_nil] at hread
    rw [String.toList_ofList, hread]
    rfl

end Gnostr
