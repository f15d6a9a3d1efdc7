import CryptoTrading.Lib.JsonLiteral
import CryptoTrading.Lib.OnDemand

/-! # JSON documents

A reader for whole documents, which keeps the members of an object in their
order and keeps repeated ones.  `Spells` says that a text is read as a value
wherever it stands in a document; texts of arrays and objects are put together
from spelled parts. -/
set_option autoImplicit false

inductive Json where
  | null
  | bool (value : Bool)
  | number (value : ℚ)
  | text (value : String)
  | array (elements : List Json)
  | object (members : List (String × Json))

namespace Json

open QuotedText JsonLiteral DecimalText

/-! ## Reading -/

@[simp] def isSpace (char : Char) : Bool := char = ' ' ∨ char = '\t' ∨ char = '\n' ∨ char = '\r'

def expect (char : Char) (chars : List Char) : Option (List Char) :=
  match chars.dropWhile isSpace with
  | [] => none
  | first :: rest => if first = char then some rest else none

def isNumberChar (char : Char) : Bool :=
  char.isDigit ∨ char = '-' ∨ char = '+' ∨ char = '.' ∨ char = 'e' ∨ char = 'E'

def readExponent : List Char → Option Int
  | [] => some 0
  | mark :: rest =>
      let negative := rest.head? = some '-'
      let digits := if negative ∨ rest.head? = some '+' then rest.tail else rest
      if (mark = 'e' ∨ mark = 'E') ∧ digits ≠ [] ∧ digits.all Char.isDigit then
        let value : Int := Nat.ofDigitChars 10 digits 0
        some (if negative then -value else value)
      else none

def readNumber (spelling : List Char) : Option ℚ :=
  let negative := spelling.head? = some '-'
  let unsigned := if negative then spelling.tail else spelling
  let integerDigits := unsigned.takeWhile Char.isDigit
  if OnDemand.IntegerDigits integerDigits then do
    let (fractionDigits, rest) ← OnDemand.readFraction (unsigned.dropWhile Char.isDigit)
    let exponent ← readExponent rest
    let magnitude := unsignedValue integerDigits fractionDigits * 10 ^ exponent
    some (if negative then -magnitude else magnitude)
  else none

def scalar (chars : List Char) : Option (Json × List Char) :=
  if "null".toList <+: chars then some (.null, chars.drop 4)
  else if "true".toList <+: chars then some (.bool true, chars.drop 4)
  else if "false".toList <+: chars then some (.bool false, chars.drop 5)
  else (readNumber (chars.takeWhile isNumberChar)).map fun number =>
    (.number number, chars.dropWhile isNumberChar)

mutual

def value : ℕ → List Char → Option (Json × List Char)
  | 0, _ => none
  | fuel + 1, chars =>
      match expect '"' chars with
      | some rest => (literal rest).map fun read => (.text (String.ofList read.1), read.2)
      | none =>
          match expect '{' chars with
          | some rest =>
              match expect '}' rest with
              | some rest => some (.object [], rest)
              | none => (members fuel rest).map fun read => (.object read.1, read.2)
          | none =>
              match expect '[' chars with
              | some rest =>
                  match expect ']' rest with
                  | some rest => some (.array [], rest)
                  | none => (elements fuel rest).map fun read => (.array read.1, read.2)
              | none => scalar (chars.dropWhile isSpace)

def members : ℕ → List Char → Option (List (String × Json) × List Char)
  | 0, _ => none
  | fuel + 1, chars => do
      let (name, rest) ← (expect '"' chars).bind literal
      let (found, rest) ← (expect ':' rest).bind (value fuel)
      match expect ',' rest with
      | some rest =>
          (members fuel rest).map fun read => ((String.ofList name, found) :: read.1, read.2)
      | none => (expect '}' rest).map fun rest => ([(String.ofList name, found)], rest)

def elements : ℕ → List Char → Option (List Json × List Char)
  | 0, _ => none
  | fuel + 1, chars => do
      let (found, rest) ← value fuel chars
      match expect ',' rest with
      | some rest => (elements fuel rest).map fun read => (found :: read.1, read.2)
      | none => (expect ']' rest).map fun rest => ([found], rest)

end

/-- Every value is shorter than what it stands in, so the length is fuel enough. -/
def parse (text : String) : Option Json :=
  match value text.toList.length text.toList with
  | some (json, rest) => if rest.dropWhile isSpace = [] then some json else none
  | none => none

/-! ## Access -/

def field (json : Json) (name : String) : Option Json :=
  match json with
  | .object members => members.lookup name
  | _ => none

def asText : Json → Option String
  | .text value => some value
  | _ => none

theorem asText_some {json : Json} {value : String} (found : json.asText = some value) :
    json = .text value := by
  cases json with
  | text other =>
      cases found
      rfl
  | _ => cases found

def firstElement : Json → Option Json
  | .array elements => elements.head?
  | _ => none

example : ((parse " \x7b\"a\": [true, -0.5e1], \"b\": \"\\u00e9\\uD834\\uDD1E\"\x7d").bind
    (·.field "b")).bind asText = some "é𝄞" := by decide +kernel

/-! ## Spelled values -/

/-- What may follow a number. -/
def Delimited (rest : List Char) : Prop := ∀ char ∈ rest.head?, isNumberChar char = false

/-- The text is read as the value wherever it stands. -/
def Spells (text : List Char) (json : Json) : Prop :=
  ∀ fuel rest, text.length ≤ fuel → Delimited rest →
    value fuel (text ++ rest) = some (json, rest)

theorem parse_spelled {text : String} {json : Json} (spelled : Spells text.toList json) :
    parse text = some json := by
  have read := spelled text.toList.length [] (Nat.le_refl _) (fun _ member => by cases member)
  rw [List.append_nil] at read
  rw [parse, read]
  rfl

@[simp] theorem expect_cons (char first : Char) (rest : List Char) :
    expect char (first :: rest) =
      if isSpace first then expect char rest
      else if first = char then some rest else none := by
  by_cases space : isSpace first = true
  · rw [if_pos space, expect, expect, List.dropWhile_cons_of_pos space]
  · rw [if_neg space, expect, List.dropWhile_cons_of_neg space]

/-! ## Reading known parts -/

section Parts
variable {fuel : ℕ} {chars word : List Char}

theorem value_quote : value (fuel + 1) ('"' :: chars) =
    (literal chars).map fun read => (.text (String.ofList read.1), read.2) := by
  simp [value]

theorem value_elements : value (fuel + 1) ('[' :: '{' :: chars) =
    (elements fuel ('{' :: chars)).map fun read => (.array read.1, read.2) := by
  simp [value]

def named (name chars : List Char) : List Char := quoted name ++ ':' :: chars

theorem named_eq (name chars : List Char) :
    named name chars = '"' :: (name ++ '"' :: ':' :: chars) := by
  rw [named, quoted, List.cons_append, List.append_assoc, List.singleton_append]

theorem value_named : value (fuel + 1) ('{' :: named word chars) =
    (members fuel (named word chars)).map fun read => (.object read.1, read.2) := by
  simp [value, named_eq]

theorem members_named (plain : Plain word) : members (fuel + 1) (named word chars) =
    (value fuel chars).bind fun read =>
      match expect ',' read.2 with
      | some rest =>
          (members fuel rest).map fun others =>
            ((String.ofList word, read.1) :: others.1, others.2)
      | none => (expect '}' read.2).map fun rest => ([(String.ofList word, read.1)], rest) := by
  simp [members, named_eq, literal_plain plain]

end Parts

/-! ## Taking a document apart -/

section Apart
variable {fuel : ℕ} {chars rest word : List Char} {json : Json}

theorem parse_some {text : String} (found : parse text = some json) :
    ∃ fuel rest, value fuel text.toList = some (json, rest) := by
  rw [parse] at found
  split at found
  · next rest read =>
      split at found
      · cases found
        exact ⟨_, rest, read⟩
      · cases found
  · cases found

theorem value_quote_some (found : value fuel ('"' :: chars) = some (json, rest)) :
    ∃ decoded, literal chars = some (decoded, rest) ∧ json = .text (String.ofList decoded) := by
  cases fuel with
  | zero => cases found
  | succ fuel =>
      rw [value_quote] at found
      obtain ⟨⟨decoded, _⟩, read, same⟩ := Option.map_eq_some_iff.mp found
      obtain ⟨rfl, rfl⟩ := Prod.mk.inj same
      exact ⟨decoded, read, rfl⟩

theorem value_named_some (found : value fuel ('{' :: named word chars) = some (json, rest)) :
    ∃ fuel' list, members fuel' (named word chars) = some (list, rest) ∧ json = .object list := by
  cases fuel with
  | zero => cases found
  | succ fuel =>
      rw [value_named] at found
      obtain ⟨⟨list, _⟩, read, same⟩ := Option.map_eq_some_iff.mp found
      obtain ⟨rfl, rfl⟩ := Prod.mk.inj same
      exact ⟨fuel, list, read, rfl⟩

theorem value_elements_some (found : value fuel ('[' :: '{' :: chars) = some (json, rest)) :
    ∃ fuel' first behind later, value fuel' ('{' :: chars) = some (first, behind) ∧
      json = .array (first :: later) := by
  cases fuel with
  | zero => cases found
  | succ fuel =>
      rw [value_elements] at found
      obtain ⟨⟨list, _⟩, read, same⟩ := Option.map_eq_some_iff.mp found
      obtain ⟨rfl, rfl⟩ := Prod.mk.inj same
      cases fuel with
      | zero => cases read
      | succ fuel =>
          rw [elements, Option.bind_eq_bind, Option.bind_eq_some_iff] at read
          obtain ⟨⟨first, behind⟩, readFirst, read⟩ := read
          dsimp only at read
          split at read
          · obtain ⟨later, _, same⟩ := Option.map_eq_some_iff.mp read
            obtain ⟨rfl, -⟩ := Prod.mk.inj same
            exact ⟨fuel, first, behind, later.1, readFirst, rfl⟩
          · obtain ⟨_, _, same⟩ := Option.map_eq_some_iff.mp read
            obtain ⟨rfl, -⟩ := Prod.mk.inj same
            exact ⟨fuel, first, behind, [], readFirst, rfl⟩

theorem members_named_some {list : List (String × Json)} (plain : Plain word)
    (found : members fuel (named word chars) = some (list, rest)) :
    ∃ fuel' json behind later, value fuel' chars = some (json, behind) ∧
      list = (String.ofList word, json) :: later ∧
      ((∃ next, expect ',' behind = some next ∧ members fuel' next = some (later, rest)) ∨
        expect '}' behind = some rest) := by
  cases fuel with
  | zero => cases found
  | succ fuel =>
      rw [members_named plain, Option.bind_eq_some_iff] at found
      obtain ⟨⟨json, behind⟩, readFirst, found⟩ := found
      dsimp only at found
      split at found
      · next next comma =>
          obtain ⟨⟨later, _⟩, read, same⟩ := Option.map_eq_some_iff.mp found
          obtain ⟨rfl, rfl⟩ := Prod.mk.inj same
          exact ⟨fuel, json, behind, later, readFirst, rfl, .inl ⟨next, comma, read⟩⟩
      · obtain ⟨_, closed, same⟩ := Option.map_eq_some_iff.mp found
        obtain ⟨rfl, rfl⟩ := Prod.mk.inj same
        exact ⟨fuel, json, behind, [], readFirst, rfl, .inr closed⟩

theorem members_text_some {text behind : List Char} {list : List (String × Json)}
    (plain : Plain word) (plainText : Plain text)
    (found : members fuel (named word (quoted text ++ ',' :: behind)) = some (list, rest)) :
    ∃ fuel' later, members fuel' behind = some (later, rest) ∧
      list = (String.ofList word, .text (String.ofList text)) :: later := by
  have start : quoted text ++ ',' :: behind = '"' :: (text ++ '"' :: ',' :: behind) := by
    rw [quoted, List.cons_append, List.append_assoc, List.singleton_append]
  rw [start] at found
  obtain ⟨fuel', json, left, later, value, rfl, goesOn⟩ := members_named_some plain found
  obtain ⟨word', literal, rfl⟩ := value_quote_some value
  rw [literal_plain plainText] at literal
  obtain ⟨rfl, rfl⟩ := Prod.mk.inj (Option.some.inj literal)
  rcases goesOn with ⟨next, comma, read⟩ | closed
  · simp at comma
    cases comma
    exact ⟨fuel', later, read, rfl⟩
  · simp at closed

/-- A member whose text is put between quotes as it is and yet decodes to that
text needed no escape: else its literal would end at the quote of the next name. -/
theorem plain_of_decoded {text : String} {nextName : List Char} {list : List (String × Json)}
    (plain : Plain word)
    (letter : ∃ next others, nextName = next :: others ∧ next.isAlpha = true)
    (found : members fuel (named word (quoted text.toList ++ ',' :: named nextName chars)) =
      some (list, rest))
    (decoded : list.lookup (String.ofList word) = some (.text text)) : Plain text.toList := by
  obtain ⟨next, others, rfl, isAlpha⟩ := letter
  have start : quoted text.toList ++ ',' :: named (next :: others) chars = '"' ::
      (text.toList ++ '"' :: ',' :: '"' :: next :: (others ++ '"' :: ':' :: chars)) := by
    rw [quoted, named_eq, List.cons_append, List.append_assoc, List.singleton_append,
      List.cons_append]
  rw [start] at found
  obtain ⟨_, _, _, _, value, rfl, goesOn⟩ := members_named_some plain found
  obtain ⟨read, literal, rfl⟩ := value_quote_some value
  rw [List.lookup_cons_self, Option.some.injEq, Json.text.injEq] at decoded
  rw [← decoded, String.toList_ofList] at literal ⊢
  rcases literal_decoded_itself literal with plainRead | rfl
  · exact plainRead
  · have other : ∀ char : Char, char.isAlpha = false → next ≠ char := by
      rintro char notAlpha rfl
      rw [isAlpha] at notAlpha
      cases notAlpha
    rcases goesOn with ⟨_, comma, -⟩ | closed
    · simp [other] at comma
    · simp [other] at closed

theorem plain_of_decoded_last {text : String} {behind : List Char} {list : List (String × Json)}
    (plain : Plain word) (noQuote : '"' ∉ behind)
    (found : members fuel (named word (quoted text.toList ++ behind)) = some (list, rest))
    (decoded : list.lookup (String.ofList word) = some (.text text)) : Plain text.toList := by
  have start : quoted text.toList ++ behind = '"' :: (text.toList ++ '"' :: behind) := by
    rw [quoted, List.cons_append, List.append_assoc, List.singleton_append]
  rw [start] at found
  obtain ⟨_, _, _, _, value, rfl, -⟩ := members_named_some plain found
  obtain ⟨read, literal, rfl⟩ := value_quote_some value
  rw [List.lookup_cons_self, Option.some.injEq, Json.text.injEq] at decoded
  rw [← decoded, String.toList_ofList] at literal ⊢
  exact plain_of_literal_last noQuote literal

end Apart

/-! ## Integers -/

theorem toList_toString_int (value : Int) : (toString value).toList =
    (if value < 0 then ['-'] else []) ++ Nat.toDigits 10 value.natAbs := by
  cases value with
  | ofNat magnitude =>
      have positive : ¬ Int.ofNat magnitude < 0 := not_lt.mpr (Int.natCast_nonneg magnitude)
      rw [if_neg positive]
      exact Nat.toList_repr
  | negSucc magnitude =>
      rw [if_pos (Int.negSucc_lt_zero magnitude)]
      change ("-" ++ (magnitude + 1).repr).toList = _
      rw [String.toList_append, Nat.toList_repr]
      rfl

theorem toDigits_head_ne_zero (value : ℕ) (positive : 0 < value) :
    (Nat.toDigits 10 value).head? ≠ some '0' := by
  induction value using Nat.strong_induction_on with
  | _ value ih =>
      rcases Nat.lt_or_ge value 10 with small | large
      · have digits : ∀ digit < 10, 0 < digit → [Nat.digitChar digit].head? ≠ some '0' := by
          decide
        rw [Nat.toDigits_of_lt_base small]
        exact digits value small positive
      · have front := ih (value / 10) (by omega) (by omega)
        rw [Nat.toDigits_of_base_le (by decide) large]
        cases shape : Nat.toDigits 10 (value / 10) with
        | nil => exact absurd shape Nat.toDigits_ne_nil
        | cons digit rest =>
            rw [shape] at front
            exact front

theorem integerDigits_toDigits (value : ℕ) : OnDemand.IntegerDigits (Nat.toDigits 10 value) := by
  refine ⟨Nat.toDigits_ne_nil, fun zero => ?_⟩
  rcases Nat.eq_zero_or_pos value with rfl | positive
  · rfl
  · exact absurd zero (toDigits_head_ne_zero value positive)

theorem toDigits_head_ne_minus (value : ℕ) : (Nat.toDigits 10 value).head? ≠ some '-' := by
  intro minus
  have digit := isDigits_toDigits value '-' (List.mem_of_head? minus)
  exact absurd digit (by decide)

theorem readNumber_toString (value : Int) :
    readNumber (toString value).toList = some (value : ℚ) := by
  have digits := isDigits_toDigits value.natAbs
  have taken := @takeWhile_digits _ [] digits rfl
  have dropped := @dropWhile_digits _ [] digits rfl
  rw [List.append_nil] at taken dropped
  have magnitude := unsignedValue_toDigits value.natAbs
  rw [toList_toString_int, readNumber]
  by_cases negative : value < 0
  · have value_eq : ((value.natAbs : ℕ) : ℚ) = -value := by
      rw [Nat.cast_natAbs, abs_of_neg negative, Int.cast_neg]
    simp [negative, taken, dropped, integerDigits_toDigits, OnDemand.readFraction, readExponent,
      magnitude, value_eq]
  · have value_eq : ((value.natAbs : ℕ) : ℚ) = value := by
      rw [Nat.cast_natAbs, abs_of_nonneg (not_lt.mp negative)]
    simp [negative, taken, dropped, integerDigits_toDigits, OnDemand.readFraction, readExponent,
      magnitude, value_eq, toDigits_head_ne_minus]

theorem numberChars_toString (value : Int) :
    ∀ char ∈ (toString value).toList, isNumberChar char = true := by
  intro char member
  rw [toList_toString_int, List.mem_append] at member
  rcases member with sign | digit
  · split at sign
    · rw [List.mem_singleton.mp sign]
      rfl
    · cases sign
  · have isDigit := isDigits_toDigits _ char digit
    simp [isNumberChar, isDigit]

/-! ## Putting texts together -/

theorem spells_text {word : List Char} (plain : Plain word) :
    Spells (quoted word) (.text (String.ofList word)) := by
  intro fuel rest enough _
  obtain ⟨fuel, rfl⟩ := Nat.exists_eq_add_of_lt (Nat.lt_of_lt_of_le Nat.zero_lt_one
    ((Nat.succ_le_succ (Nat.zero_le _)).trans enough))
  rw [Nat.zero_add, quoted, List.cons_append, List.append_assoc, List.singleton_append,
    value_quote, literal_plain plain]
  rfl

/-- Neither a digit nor a sign starts a value of another kind. -/
theorem value_number {fuel : ℕ} {first : Char} {others : List Char}
    (number : first = '-' ∨ first.isDigit = true) :
    value (fuel + 1) (first :: others) =
      (readNumber ((first :: others).takeWhile isNumberChar)).map fun number =>
        (.number number, (first :: others).dropWhile isNumberChar) := by
  have marks : ∀ char : Char, char ≠ '-' → char.isDigit = false → first ≠ char := by
    rintro char notMinus notDigit rfl
    rcases number with minus | digit
    · exact notMinus minus
    · rw [digit] at notDigit
      cases notDigit
  have marksBack : ∀ char : Char, char ≠ '-' → char.isDigit = false → char ≠ first :=
    fun char notMinus notDigit => (marks char notMinus notDigit).symm
  simp [value, scalar, List.dropWhile_cons, List.cons_prefix_cons, marks, marksBack]

theorem spells_int (value : Int) : Spells (toString value).toList (.number value) := by
  intro fuel rest enough delimited
  have chars := numberChars_toString value
  have read := readNumber_toString value
  have ending : rest.takeWhile isNumberChar = [] ∧ rest.dropWhile isNumberChar = rest := by
    cases rest with
    | nil => exact ⟨rfl, rfl⟩
    | cons char others =>
        have stops := delimited char rfl
        simp [stops]
  have taken : ((toString value).toList ++ rest).takeWhile isNumberChar =
      (toString value).toList := by
    rw [List.takeWhile_append_of_pos chars, ending.1, List.append_nil]
  have dropped : ((toString value).toList ++ rest).dropWhile isNumberChar = rest := by
    rw [List.dropWhile_append_of_pos chars, ending.2]
  have starts : ∃ first others, (toString value).toList = first :: others ∧
      (first = '-' ∨ first.isDigit = true) := by
    rw [toList_toString_int]
    split
    · exact ⟨'-', _, rfl, .inl rfl⟩
    · cases shape : Nat.toDigits 10 value.natAbs with
      | nil => exact absurd shape Nat.toDigits_ne_nil
      | cons digit others =>
          have isDigit := isDigits_toDigits value.natAbs digit (by rw [shape]; simp)
          exact ⟨digit, others, rfl, .inr isDigit⟩
  obtain ⟨first, others, shape, number⟩ := starts
  rw [shape] at enough taken dropped read ⊢
  obtain ⟨fuel, rfl⟩ := Nat.exists_eq_succ_of_ne_zero (Nat.ne_zero_of_lt enough)
  rw [List.cons_append] at taken dropped ⊢
  rw [value_number number, taken, dropped, read]
  rfl

structure Member where
  name : List Char
  text : List Char
  json : Json
  plain : Plain name
  spelled : Spells text json

def laterText (later : List Member) : List Char :=
  later.flatMap fun member => ',' :: named member.name member.text

def objectText (first : Member) (later : List Member) : List Char :=
  '{' :: (named first.name first.text ++ laterText later ++ ['}'])

def Member.read (member : Member) : String × Json := (String.ofList member.name, member.json)

def textMember (name value : String) (plainName : Plain name.toList)
    (plainValue : Plain value.toList) : Member where
  name := name.toList
  text := quoted value.toList
  json := .text value
  plain := plainName
  spelled := by
    have spelled := spells_text plainValue
    rwa [String.ofList_toList] at spelled

@[simp] theorem read_textMember {name value : String} (plainName : Plain name.toList)
    (plainValue : Plain value.toList) :
    (textMember name value plainName plainValue).read = (name, .text value) := by
  rw [Member.read, textMember, String.ofList_toList]

theorem named_append (name text rest : List Char) :
    named name text ++ rest = named name (text ++ rest) := by
  rw [named, named, List.append_assoc, List.cons_append]

theorem length_named (name text : List Char) :
    (named name text).length = name.length + text.length + 3 := by
  simp only [named, quoted, List.length_append, List.length_cons, List.length_nil]
  omega

theorem members_spelled (later : List Member) : ∀ (first : Member) (fuel : ℕ) (rest : List Char),
    (named first.name first.text ++ laterText later).length < fuel →
    members fuel (named first.name first.text ++ laterText later ++ '}' :: rest) =
      some ((first :: later).map Member.read, rest) := by
  induction later with
  | nil =>
      intro first fuel rest enough
      obtain ⟨fuel, rfl⟩ := Nat.exists_eq_succ_of_ne_zero (Nat.ne_zero_of_lt enough)
      rw [laterText, List.flatMap_nil, List.append_nil] at enough ⊢
      rw [length_named] at enough
      rw [named_append, members_named first.plain,
        first.spelled fuel ('}' :: rest) (by omega) (fun _ closing => by cases closing; rfl),
        Option.bind_some]
      dsimp only
      simp [Member.read]
  | cons second later ih =>
      intro first fuel rest enough
      obtain ⟨fuel, rfl⟩ := Nat.exists_eq_succ_of_ne_zero (Nat.ne_zero_of_lt enough)
      have tail : laterText (second :: later) =
          ',' :: (named second.name second.text ++ laterText later) := rfl
      rw [tail] at enough ⊢
      rw [List.length_append, length_named, List.length_cons] at enough
      rw [List.append_assoc, List.cons_append, named_append, members_named first.plain,
        first.spelled fuel _ (by omega) (fun _ comma => by cases comma; rfl), Option.bind_some]
      dsimp only
      have onward := ih second fuel rest (by omega)
      rw [List.append_assoc] at onward
      simp [onward, Member.read]

theorem spells_object (first : Member) (later : List Member) :
    Spells (objectText first later) (.object ((first :: later).map Member.read)) := by
  intro fuel rest enough _
  obtain ⟨fuel, rfl⟩ := Nat.exists_eq_succ_of_ne_zero (Nat.ne_zero_of_lt enough)
  have inside := members_spelled later first fuel rest (by
    simp only [objectText, List.length_cons, List.length_append, List.length_nil] at enough ⊢
    omega)
  rw [List.append_assoc, named_append] at inside
  rw [objectText, List.cons_append, List.append_assoc, List.append_assoc, named_append,
    List.singleton_append, value_named, inside]
  rfl

theorem spells_singleton (first : Member) (later : List Member) :
    Spells ('[' :: (objectText first later ++ [']']))
      (.array [.object ((first :: later).map Member.read)]) := by
  intro fuel rest enough _
  rw [List.length_cons, List.length_append, List.length_singleton] at enough
  obtain ⟨fuel, rfl⟩ := Nat.exists_eq_add_of_le (show 2 ≤ fuel by omega)
  have inside := spells_object first later fuel (']' :: rest) (by omega)
    (fun _ closing => by cases closing; rfl)
  have start : '[' :: (objectText first later ++ [']']) ++ rest =
      '[' :: '{' :: (named first.name first.text ++ laterText later ++ ['}'] ++ ']' :: rest) := by
    rw [objectText]
    simp only [List.cons_append, List.append_assoc, List.nil_append]
  rw [objectText, List.cons_append] at inside
  rw [start, Nat.add_comm 2 fuel, value_elements, elements, inside]
  dsimp only [Option.bind_eq_bind, Option.bind_some]
  simp

end Json
