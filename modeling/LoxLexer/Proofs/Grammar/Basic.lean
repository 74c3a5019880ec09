import LoxLexer.Proofs.Lexeme.Cut

/-!
# The lexical grammar

The grammar says which texts are pieces of a source, class by class, and what
the pieces that become tokens denote.  It speaks of whole texts only: nothing
in it says how a piece is found, or where one ends when another could begin.

Its two relations are those of the valid lexemes: `belongs_iff` for the
classes, `denotes_iff` for the tokens.
-/

namespace LoxLexer
namespace Grammar

def IsLetter (c : Char) : Prop :=
  ('A' ≤ c ∧ c ≤ 'Z') ∨ ('a' ≤ c ∧ c ≤ 'z') ∨ c = '_'

def IsDigit (c : Char) : Prop := '0' ≤ c ∧ c ≤ '9'

def IsBlank (c : Char) : Prop := c = ' ' ∨ c = '\t' ∨ c = '\r' ∨ c = '\n'

/-- A letter, then letters and digits. -/
def IsWord (text : List Char) : Prop :=
  ∃ c others, text = c :: others ∧ IsLetter c ∧ ∀ d ∈ others, IsLetter d ∨ IsDigit d

/-- Digits, at least one. -/
def IsNumeral (text : List Char) : Prop := text ≠ [] ∧ ∀ d ∈ text, IsDigit d

/-- The classes of pieces. -/
inductive Class where
  | operator
  | word
  | number
  | string
  | comment
  | blank
deriving DecidableEq

/-- The texts of each class. -/
inductive Belongs : Class → List Char → Prop
  | operator (mark : Punctuation) : Belongs .operator mark.text.toList
  | word {text : List Char} : IsWord text → Belongs .word text
  | whole {digits : List Char} : IsNumeral digits → Belongs .number digits
  | decimal {digits places : List Char} :
      IsNumeral digits → IsNumeral places → Belongs .number (digits ++ '.' :: places)
  | string {body : List Char} : '"' ∉ body → Belongs .string ('"' :: (body ++ ['"']))
  | comment {body : List Char} : '\n' ∉ body → Belongs .comment ('/' :: '/' :: body)
  | blank {c : Char} : IsBlank c → Belongs .blank [c]

/-- The kind and the value of the pieces that become tokens.  A word is a
reserved word if it is spelled like one, and a name otherwise. -/
inductive Denotes : List Char → Kind → Option Literal → Prop
  | operator (mark : Punctuation) : Denotes mark.text.toList (.punctuation mark) none
  | reserved (word : Keyword) : Denotes word.text.toList (.keyword word) none
  | name {text : List Char} :
      IsWord text → (∀ word : Keyword, word.text.toList ≠ text) →
      Denotes text .identifier none
  | whole {digits : List Char} :
      IsNumeral digits →
      Denotes digits .number (some (.number (Lexeme.numberValue digits none)))
  | decimal {digits places : List Char} :
      IsNumeral digits → IsNumeral places →
      Denotes (digits ++ '.' :: places) .number
        (some (.number (Lexeme.numberValue digits (some places))))
  | string {body : List Char} :
      '"' ∉ body →
      Denotes ('"' :: (body ++ ['"'])) .string (some (.string (String.ofList body)))

/-! ## The grammar in terms of lexemes -/

theorem isDigit_iff {c : Char} : IsDigit c ↔ c.isDigit = true :=
  Lexeme.isDigit_iff.symm

theorem isLetter_iff {c : Char} : IsLetter c ↔ Lexeme.isWordStart c = true :=
  Lexeme.isWordStart_iff.symm

theorem isBlank_iff {c : Char} : IsBlank c ↔ Lexeme.isBlank c = true ∨ c = '\n' := by
  rw [Lexeme.isBlank_iff, IsBlank]
  constructor
  · rintro (rfl | rfl | rfl | rfl) <;> simp
  · rintro ((rfl | rfl | rfl) | rfl) <;> simp

theorem isNumeral_iff {text : List Char} : IsNumeral text ↔ Lexeme.IsDigits text := by
  simp only [IsNumeral, Lexeme.IsDigits, isDigit_iff]

theorem isWord_iff {text : List Char} : IsWord text ↔ (Lexeme.word text).Valid := by
  simp only [IsWord, Lexeme.Valid, isLetter_iff, isDigit_iff, Lexeme.isWordPart_iff]

/-- The class of a lexeme; the two lexemes in error have none. -/
def classOf? : Lexeme → Option Class
  | .operator _ => some .operator
  | .word _ => some .word
  | .number _ _ => some .number
  | .string _ => some .string
  | .comment _ => some .comment
  | .blank _ | .lineFeed => some .blank
  | .unterminated _ | .unexpected _ => none

/-- The texts of a class are those of the valid lexemes of that class. -/
theorem belongs_iff
    {cls : Class} {text : List Char} :
    Belongs cls text ↔
      ∃ lexeme : Lexeme, lexeme.Valid ∧ lexeme.text = text ∧ classOf? lexeme = some cls := by
  constructor
  · intro hbelongs
    cases hbelongs with
    | operator mark => exact ⟨.operator mark, trivial, rfl, rfl⟩
    | word hword => exact ⟨.word text, isWord_iff.mp hword, rfl, rfl⟩
    | whole hdigits =>
        exact ⟨.number text none, ⟨isNumeral_iff.mp hdigits, by simp⟩, rfl, rfl⟩
    | @decimal digits places hdigits hplaces =>
        refine ⟨.number digits (some places), ⟨isNumeral_iff.mp hdigits, ?_⟩, rfl, rfl⟩
        rintro others ⟨⟩
        exact isNumeral_iff.mp hplaces
    | @string body hbody => exact ⟨.string body, hbody, rfl, rfl⟩
    | @comment body hbody => exact ⟨.comment body, hbody, rfl, rfl⟩
    | @blank c hblank =>
        rcases isBlank_iff.mp hblank with hblank | rfl
        · exact ⟨.blank c, hblank, rfl, rfl⟩
        · exact ⟨.lineFeed, trivial, rfl, rfl⟩
  · rintro ⟨lexeme, hvalid, rfl, hclass⟩
    cases lexeme with
    | operator mark =>
        cases hclass
        exact .operator mark
    | word letters =>
        cases hclass
        exact .word (isWord_iff.mpr hvalid)
    | number digits fraction =>
        cases hclass
        cases fraction with
        | none => exact .whole (isNumeral_iff.mpr hvalid.1)
        | some places =>
            exact .decimal (isNumeral_iff.mpr hvalid.1)
              (isNumeral_iff.mpr (hvalid.2 places rfl))
    | string body =>
        cases hclass
        exact .string hvalid
    | comment body =>
        cases hclass
        exact .comment hvalid
    | blank c =>
        cases hclass
        exact .blank (isBlank_iff.mpr (Or.inl hvalid))
    | lineFeed =>
        cases hclass
        exact .blank (isBlank_iff.mpr (Or.inr rfl))
    | unterminated body => cases hclass
    | unexpected c => cases hclass

/-! ## Reserved words -/

theorem valid_word_text (word : Keyword) : (Lexeme.word word.text.toList).Valid := by
  cases word with
  | _ => exact ⟨_, _, rfl, by decide, List.all_eq_true.mp (by decide)⟩

theorem ofWord_text (word : Keyword) : Kind.ofWord word.text = .keyword word := by
  rw [Kind.ofWord, Keyword.ofText?_text]

theorem ofText?_eq_none_of_ne
    {spelling : String}
    (hne : ∀ word : Keyword, word.text ≠ spelling) :
    Keyword.ofText? spelling = none := by
  cases hfound : Keyword.ofText? spelling with
  | none => rfl
  | some word => exact absurd (Keyword.text_of_ofText?_eq_some hfound) (hne word)

theorem ofWord_of_ne
    {spelling : String}
    (hne : ∀ word : Keyword, word.text ≠ spelling) :
    Kind.ofWord spelling = .identifier := by
  rw [Kind.ofWord, ofText?_eq_none_of_ne hne]

/-- A word is spelled like a reserved word, and then it is that word, or like
none, and then it is a name. -/
theorem denotes_word
    {letters : List Char}
    (hvalid : (Lexeme.word letters).Valid) :
    Denotes letters (Kind.ofWord (String.ofList letters)) none := by
  by_cases hreserved : ∃ word : Keyword, word.text.toList = letters
  · obtain ⟨word, rfl⟩ := hreserved
    rw [String.ofList_toList, ofWord_text]
    exact .reserved word
  · have hne : ∀ word : Keyword, word.text.toList ≠ letters := by
      intro word heq
      exact hreserved ⟨word, heq⟩
    rw [ofWord_of_ne]
    · exact .name (isWord_iff.mpr hvalid) hne
    · intro word heq
      apply hne word
      rw [heq, String.toList_ofList]

/-- What pieces denote is what the valid lexemes with their text mean. -/
theorem denotes_iff
    {text : List Char} {kind : Kind} {literal : Option Literal} :
    Denotes text kind literal ↔
      ∃ lexeme : Lexeme, lexeme.Valid ∧ lexeme.text = text ∧
        lexeme.meaning = .token kind literal := by
  constructor
  · intro hdenotes
    cases hdenotes with
    | operator mark => exact ⟨.operator mark, trivial, rfl, rfl⟩
    | reserved word =>
        refine ⟨.word word.text.toList, valid_word_text word, rfl, ?_⟩
        rw [Lexeme.meaning, String.ofList_toList, ofWord_text]
    | name hword hne =>
        refine ⟨.word text, isWord_iff.mp hword, rfl, ?_⟩
        rw [Lexeme.meaning, ofWord_of_ne]
        rintro word heq
        apply hne word
        rw [heq, String.toList_ofList]
    | whole hdigits =>
        exact ⟨.number text none, ⟨isNumeral_iff.mp hdigits, by simp⟩, rfl, rfl⟩
    | @decimal digits places hdigits hplaces =>
        refine ⟨.number digits (some places), ⟨isNumeral_iff.mp hdigits, ?_⟩, rfl, rfl⟩
        rintro others ⟨⟩
        exact isNumeral_iff.mp hplaces
    | @string body hbody => exact ⟨.string body, hbody, rfl, rfl⟩
  · rintro ⟨lexeme, hvalid, rfl, hmeaning⟩
    cases lexeme with
    | operator mark =>
        cases hmeaning
        exact .operator mark
    | word letters =>
        cases hmeaning
        exact denotes_word hvalid
    | number digits fraction =>
        cases hmeaning
        cases fraction with
        | none => exact .whole (isNumeral_iff.mpr hvalid.1)
        | some places =>
            exact .decimal (isNumeral_iff.mpr hvalid.1)
              (isNumeral_iff.mpr (hvalid.2 places rfl))
    | string body =>
        cases hmeaning
        exact .string hvalid
    | comment body => cases hmeaning
    | blank c => cases hmeaning
    | lineFeed => cases hmeaning
    | unterminated body => cases hmeaning
    | unexpected c => cases hmeaning

end Grammar
end LoxLexer
