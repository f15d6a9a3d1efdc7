import Mathlib.Data.List.Infix

/-! # Quoted words in a text with string literals

Where can a word between two quotes stand in a text that is made of string
literals and other characters?  Only at the end of a literal: it is the whole
literal, or the quote before it is an escaped one. -/
set_option autoImplicit false

namespace QuotedText

/-- A string literal by what stands between its quotes, or one other character. -/
inductive Lexeme where
  | literal (body : List Char)
  | bare (char : Char)

def Lexeme.text : Lexeme → List Char
  | .literal body => '"' :: (body ++ ['"'])
  | .bare char => [char]

def text (lexemes : List Lexeme) : List Char := lexemes.flatMap Lexeme.text

/-- Each quote and each backslash has a backslash before it. -/
inductive Escaped : List Char → Prop
  | nil : Escaped []
  | plain {char : Char} {rest : List Char} (noQuote : char ≠ '"') (noEscape : char ≠ '\\')
      (escaped : Escaped rest) : Escaped (char :: rest)
  | escape {char : Char} {rest : List Char} (escaped : Escaped rest) :
      Escaped ('\\' :: char :: rest)

def Delimited (delimiters : List Char) : List Lexeme → Prop
  | [] => True
  | .bare char :: _ => char ∈ delimiters
  | .literal _ :: _ => False

/-- Literals are escaped and followed by a delimiter, and quotes stand nowhere
else. -/
def Lexed (delimiters : List Char) : List Lexeme → Prop
  | [] => True
  | .literal body :: rest => Escaped body ∧ Delimited delimiters rest ∧ Lexed delimiters rest
  | .bare char :: rest => char ≠ '"' ∧ Lexed delimiters rest

def quoted (word : List Char) : List Char := '"' :: (word ++ ['"'])

section Word
variable {word : List Char} (noQuote : '"' ∉ word) (noEscape : '\\' ∉ word)
include noQuote noEscape

theorem word_prefix_iff {body tail : List Char} (escaped : Escaped body) :
    word ++ ['"'] <+: body ++ '"' :: tail ↔ word = body := by
  induction escaped generalizing word with
  | nil =>
      cases word with
      | nil => simp
      | cons char rest =>
          have first : char ≠ '"' := fun same => noQuote (by simp [same])
          simp [List.cons_prefix_cons, first]
  | plain noQuoteHere _ _ ih =>
      cases word with
      | nil => simp [List.cons_prefix_cons, noQuoteHere.symm]
      | cons char rest =>
          rw [List.cons_append, List.cons_append, List.cons_prefix_cons,
            ih (fun member => noQuote (List.mem_cons_of_mem _ member))
              (fun member => noEscape (List.mem_cons_of_mem _ member)), List.cons.injEq]
  | escape _ _ =>
      cases word with
      | nil => simp [List.cons_prefix_cons]
      | cons char rest =>
          have first : char ≠ '\\' := fun same => noEscape (by simp [same])
          simp [List.cons_prefix_cons, first]

theorem quoted_infix_literal {body tail : List Char} (escaped : Escaped body)
    (follows : ¬ word ++ ['"'] <+: tail) :
    quoted word <:+: body ++ '"' :: tail ↔ '"' :: word <:+ body ∨ quoted word <:+: tail := by
  induction escaped with
  | nil =>
      rw [List.nil_append, List.infix_cons_iff, quoted, List.cons_prefix_cons]
      simp [follows]
  | plain noQuoteHere _ _ ih =>
      rw [List.cons_append, List.infix_cons_iff, quoted, List.cons_prefix_cons, ← quoted, ih,
        List.suffix_cons_iff, List.cons.injEq]
      simp [noQuoteHere.symm]
  | @escape char rest escapedRest ih =>
      have here : quoted word <+: char :: (rest ++ '"' :: tail) ↔ '"' :: word = char :: rest := by
        rw [quoted, List.cons_prefix_cons, word_prefix_iff noQuote noEscape escapedRest,
          List.cons.injEq]
      rw [List.cons_append, List.cons_append, List.infix_cons_iff, quoted, List.cons_prefix_cons,
        ← quoted, List.infix_cons_iff, here, ih, List.suffix_cons_iff, List.cons.injEq,
        List.suffix_cons_iff]
      simp [or_assoc]

end Word

/-- A quoted word stands in a text exactly where a literal is that word or ends
in an escaped quote and the word. -/
theorem quoted_infix_iff {delimiters : List Char} {first : Char} {rest : List Char}
    (notDelimiter : first ∉ delimiters) (noQuote : '"' ∉ first :: rest)
    (noEscape : '\\' ∉ first :: rest) {lexemes : List Lexeme} (lexed : Lexed delimiters lexemes) :
    quoted (first :: rest) <:+: text lexemes ↔
      ∃ body, .literal body ∈ lexemes ∧
        (first :: rest = body ∨ '"' :: first :: rest <:+ body) := by
  induction lexemes with
  | nil => simp [text, quoted]
  | cons lexeme later ih =>
      cases lexeme with
      | bare char =>
          obtain ⟨notQuote, lexedLater⟩ := lexed
          have split : text (.bare char :: later) = char :: text later := rfl
          rw [split, List.infix_cons_iff, quoted, List.cons_prefix_cons, ← quoted,
            ih lexedLater]
          simp [notQuote.symm]
      | literal body =>
          obtain ⟨escaped, delimited, lexedLater⟩ := lexed
          have split : text (.literal body :: later) = '"' :: (body ++ '"' :: text later) := by
            simp [text, Lexeme.text]
          have follows : ¬ (first :: rest) ++ ['"'] <+: text later := by
            cases later with
            | nil => simp [text]
            | cons next others =>
                cases next with
                | bare char =>
                    have isDelimiter : char ∈ delimiters := delimited
                    have notFirst : first ≠ char := fun same => notDelimiter (same ▸ isDelimiter)
                    simp [text, Lexeme.text, List.cons_prefix_cons, notFirst]
                | literal other => exact absurd delimited id
          rw [split, List.infix_cons_iff, quoted, List.cons_prefix_cons, ← quoted,
            word_prefix_iff noQuote noEscape escaped,
            quoted_infix_literal noQuote noEscape escaped follows, ih lexedLater]
          simp [or_and_right, exists_or, or_assoc]

end QuotedText
