import Mathlib.Data.Rat.Defs
import Mathlib.Algebra.Order.Ring.Rat

/-!
# A reader of JSON texts

The reader knows nothing of how JSON is written here.  It takes blanks wherever
the grammar allows them, all escapes, and numbers in all their forms; a number
is read exactly, as its sign and the rational that its digits stand for.

A text that is not JSON is not read, and neither is one with half of a surrogate
pair in it.  The checks that what remains is shorter always succeed; they are
there to show that reading ends.
-/

namespace LoxLexer
namespace Json

/-- What a JSON text says.  The members of an object are kept in their order. -/
inductive Document where
  | null
  | bool (value : Bool)
  | number (negative : Bool) (magnitude : ℚ)
  | string (value : String)
  | array (items : List Document)
  | object (members : List (String × Document))

namespace Reader

/-- The blanks between the parts of a text. -/
def isBlank (c : Char) : Bool := c == ' ' || c == '\n' || c == '\r' || c == '\t'

/-- A text from its first character on that is no blank. -/
def skipBlanks (text : List Char) : List Char := text.dropWhile isBlank

theorem length_skipBlanks_le (text : List Char) : (skipBlanks text).length ≤ text.length :=
  (List.dropWhile_suffix isBlank).length_le

/-! ## Numbers -/

/-- The natural that decimal digits stand for. -/
def natural (digits : List Char) : ℕ := Nat.ofDigitChars 10 digits 0

/-- Digits, at least one, and what follows them. -/
def readDigits (text : List Char) : Option (List Char × List Char) :=
  if text.takeWhile Char.isDigit = [] then none
  else some (text.takeWhile Char.isDigit, text.dropWhile Char.isDigit)

/-- The digits after a point, if there is one. -/
def readFraction (text : List Char) : Option (List Char × List Char) :=
  if text.head? = some '.' then readDigits text.tail else some ([], text)

/-- An integer, with or without a sign. -/
def readInteger (text : List Char) : Option (ℤ × List Char) :=
  if text.head? = some '-' then
    (readDigits text.tail).map fun (digits, rest) => (-(natural digits : ℤ), rest)
  else
    (readDigits (if text.head? = some '+' then text.tail else text)).map
      fun (digits, rest) => ((natural digits : ℤ), rest)

/-- The power of ten after its mark, zero if there is none. -/
def readExponent (text : List Char) : Option (ℤ × List Char) :=
  if text.head? = some 'e' ∨ text.head? = some 'E' then readInteger text.tail
  else some (0, text)

/-- A number without a sign.  Several digits before the point do not begin with
zero. -/
def readMagnitude (text : List Char) : Option (ℚ × List Char) :=
  match readDigits text with
  | none => none
  | some (whole, afterWhole) =>
    if whole.head? = some '0' ∧ whole ≠ ['0'] then none
    else
      match readFraction afterWhole with
      | none => none
      | some (fraction, afterFraction) =>
        (readExponent afterFraction).map fun (exponent, rest) =>
          (natural (whole ++ fraction) * 10 ^ (exponent - fraction.length), rest)

/-- A number. -/
def readNumber (text : List Char) : Option (Document × List Char) :=
  if text.head? = some '-' then
    (readMagnitude text.tail).map fun (magnitude, rest) => (.number true magnitude, rest)
  else
    (readMagnitude text).map fun (magnitude, rest) => (.number false magnitude, rest)

/-! ## Strings -/

/-- The value of a hexadecimal digit. -/
def hexValue? (c : Char) : Option ℕ :=
  if c.isDigit then some (c.toNat - 48)
  else if 'a' ≤ c ∧ c ≤ 'f' then some (c.toNat - 87)
  else if 'A' ≤ c ∧ c ≤ 'F' then some (c.toNat - 55)
  else none

/-- The unit that four hexadecimal digits stand for. -/
def readUnit : List Char → Option (ℕ × List Char)
  | a :: b :: c :: d :: rest =>
    match hexValue? a, hexValue? b, hexValue? c, hexValue? d with
    | some a, some b, some c, some d => some (((a * 16 + b) * 16 + c) * 16 + d, rest)
    | _, _, _, _ => none
  | _ => none

/-- The character after the letter of a numeric escape: one unit, or the two
units of a surrogate pair. -/
def readCodePoint (text : List Char) : Option (Char × List Char) :=
  match readUnit text with
  | none => none
  | some (unit, rest) =>
    if unit < 0xd800 ∨ 0xe000 ≤ unit then some (Char.ofNat unit, rest)
    else if 0xdc00 ≤ unit then none
    else
      match rest with
      | '\\' :: 'u' :: more =>
        match readUnit more with
        | none => none
        | some (low, after) =>
          if 0xdc00 ≤ low ∧ low < 0xe000 then
            some (Char.ofNat (0x10000 + (unit - 0xd800) * 0x400 + (low - 0xdc00)), after)
          else none
      | _ => none

/-- The escapes of one letter. -/
def escapes : List (Char × Char) :=
  [('"', '"'), ('\\', '\\'), ('/', '/'), ('b', '\x08'), ('f', '\x0c'), ('n', '\n'),
    ('r', '\r'), ('t', '\t')]

/-- The character that an escape stands for, after its backslash. -/
def readEscape : List Char → Option (Char × List Char)
  | [] => none
  | c :: rest =>
    if c = 'u' then readCodePoint rest else (escapes.lookup c).map fun d => (d, rest)

/-- The characters of a string, after the quote before them. -/
def readString (text : List Char) : Option (List Char × List Char) :=
  match text with
  | [] => none
  | c :: others =>
    if c = '"' then some ([], others)
    else if c = '\\' then
      match readEscape others with
      | none => none
      | some (d, after) =>
        if after.length ≤ others.length then
          (readString after).map fun (body, rest) => (d :: body, rest)
        else none
    else if c.toNat < 32 then none
    else (readString others).map fun (body, rest) => (c :: body, rest)
termination_by text.length

/-! ## Values -/

/-- The values that are written as names. -/
def names : List (List Char × Document) :=
  [("null".toList, .null), ("true".toList, .bool true), ("false".toList, .bool false)]

/-- A value that is written as a name. -/
def readName (text : List Char) : Option (Document × List Char) :=
  (names.find? fun (name, _) => name.isPrefixOf text).map fun (name, document) =>
    (document, text.drop name.length)

/-- The name of a member, and what follows the colon after it. -/
def readKey (text : List Char) : Option (String × List Char) :=
  if text.head? = some '"' then
    match readString text.tail with
    | none => none
    | some (name, rest) =>
      if (skipBlanks rest).head? = some ':' then
        some (String.ofList name, skipBlanks (skipBlanks rest).tail)
      else none
  else none

mutual

/-- A value; no blanks are before it. -/
def readValue (text : List Char) : Option (Document × List Char) :=
  match text with
  | [] => none
  | c :: others =>
    if c = '"' then
      (readString others).map fun (body, rest) => (.string (String.ofList body), rest)
    else if c = '[' then
      if (skipBlanks others).head? = some ']' then
        some (.array [], (skipBlanks others).tail)
      else
        (readItems (skipBlanks others)).map fun (items, rest) => (.array items, rest)
    else if c = '{' then
      if (skipBlanks others).head? = some '}' then
        some (.object [], (skipBlanks others).tail)
      else
        (readMembers (skipBlanks others)).map fun (members, rest) => (.object members, rest)
    else if c = '-' ∨ c.isDigit then readNumber (c :: others)
    else readName (c :: others)
termination_by (text.length, 0)
decreasing_by
  all_goals
    have hlength := length_skipBlanks_le others
    apply Prod.Lex.left
    rw [List.length_cons]
    omega

/-- The items of an array that is not empty, and what follows the array. -/
def readItems (text : List Char) : Option (List Document × List Char) :=
  match readValue text with
  | none => none
  | some (item, rest) =>
    if (skipBlanks rest).head? = some ']' then
      some ([item], (skipBlanks rest).tail)
    else if (skipBlanks rest).head? = some ',' then
      if (skipBlanks (skipBlanks rest).tail).length < text.length then
        (readItems (skipBlanks (skipBlanks rest).tail)).map fun (items, after) =>
          (item :: items, after)
      else none
    else none
termination_by (text.length, 1)

/-- The members of an object that is not empty, and what follows the object. -/
def readMembers (text : List Char) : Option (List (String × Document) × List Char) :=
  match readKey text with
  | none => none
  | some (name, value) =>
    if value.length < text.length then
      match readValue value with
      | none => none
      | some (document, rest) =>
        if (skipBlanks rest).head? = some '}' then
          some ([(name, document)], (skipBlanks rest).tail)
        else if (skipBlanks rest).head? = some ',' then
          if (skipBlanks (skipBlanks rest).tail).length < text.length then
            (readMembers (skipBlanks (skipBlanks rest).tail)).map fun (members, after) =>
              ((name, document) :: members, after)
          else none
        else none
    else none
termination_by (text.length, 1)

end

end Reader

/-- What a text says, if it is JSON. -/
def read (text : String) : Option Document :=
  match Reader.readValue (Reader.skipBlanks text.toList) with
  | none => none
  | some (document, rest) => if Reader.skipBlanks rest = [] then some document else none

example : read "[ \"\\ud83d\\ude00\\/\" , true ]\n" =
    some (.array [.string "😀/", .bool true]) := by cbv

example : read "-1.50e+1" = some (.number true 15) := by cbv

example : read "[01]" = none ∧ read "[1,]" = none ∧ read "\"\\ud83d\"" = none := by cbv

end Json
end LoxLexer
