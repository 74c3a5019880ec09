import LoxLexer.Decimal.Layout

/-!
# JSON text

A JSON value is written in two ways: compactly, on one line and without blanks,
or indented, every item and member on a line of its own and two blanks deeper
than what holds it.  The members of an object are written in their order.

Strings escape as little as JSON allows.  A number is written in the shortest
digits that read back as it; JSON has no text for an infinity, nor for what is
not a number, and null stands for these.
-/

namespace LoxLexer

/-- A JSON value.  Counts are apart from numbers, which always have a point or
an exponent. -/
inductive Json where
  | null
  | count (value : Nat)
  | number (value : Binary64)
  | string (value : String)
  | array (items : List Json)
  | object (members : List (String × Json))

namespace Json

/-- JSON numbers are positional from five places after the point to sixteen
before it, and an exponent always has a sign. -/
def numberLayout : Layout where
  tie := .toEven
  leastPositional := -5
  greatestPositional := 15
  exponentMark := 'e'
  plusWritten := true
  pointKept := false

/-- How much room is left between the parts of a value. -/
inductive Spacing where
  | compact
  | indented (depth : Nat)

/-- The spacing inside an array or an object. -/
def Spacing.deeper : Spacing → Spacing
  | .compact => .compact
  | .indented depth => .indented (depth + 1)

/-- What stands before an item, a member or a closing bracket. -/
def Spacing.lineStart : Spacing → List Char
  | .compact => []
  | .indented depth => '\n' :: List.replicate (2 * depth) ' '

/-- What stands between the name of a member and its value. -/
def Spacing.colon : Spacing → List Char
  | .compact => [':']
  | .indented _ => [':', ' ']

/-- A character as it stands in a string.  The quote, the backslash and the
control characters below the blank are escaped, and no others. -/
def escaped (c : Char) : List Char :=
  if c = '"' then ['\\', '"']
  else if c = '\\' then ['\\', '\\']
  else if c = '\x08' then ['\\', 'b']
  else if c = '\x0c' then ['\\', 'f']
  else if c = '\n' then ['\\', 'n']
  else if c = '\r' then ['\\', 'r']
  else if c = '\t' then ['\\', 't']
  else if c.toNat < 32 then
    ['\\', 'u', '0', '0', Nat.digitChar (c.toNat / 16), Nat.digitChar (c.toNat % 16)]
  else [c]

/-- A string in quotes. -/
def quoted (value : String) : List Char :=
  '"' :: (value.toList.flatMap escaped ++ ['"'])

/-- A number, or null where JSON has no number. -/
def numberText (value : Binary64) : List Char :=
  if value.isFinite then numberLayout.ofFinite value else "null".toList

mutual

/-- The text of a value. -/
def text (spacing : Spacing) : Json → List Char
  | .null => "null".toList
  | .count value => Nat.toDigits 10 value
  | .number value => numberText value
  | .string value => quoted value
  | .array [] => ['[', ']']
  | .array (first :: others) =>
    '[' :: (spacing.deeper.lineStart ++
      (text spacing.deeper first ++
        (itemsText spacing.deeper others ++ (spacing.lineStart ++ [']']))))
  | .object [] => ['{', '}']
  | .object ((name, value) :: others) =>
    '{' :: (spacing.deeper.lineStart ++
      (quoted name ++ (spacing.deeper.colon ++ (text spacing.deeper value ++
        (membersText spacing.deeper others ++ (spacing.lineStart ++ ['}']))))))

/-- The text of the items after the first one. -/
def itemsText (spacing : Spacing) : List Json → List Char
  | [] => []
  | item :: others =>
    ',' :: (spacing.lineStart ++ (text spacing item ++ itemsText spacing others))

/-- The text of the members after the first one. -/
def membersText (spacing : Spacing) : List (String × Json) → List Char
  | [] => []
  | (name, value) :: others =>
    ',' :: (spacing.lineStart ++ (quoted name ++ (spacing.colon ++
      (text spacing value ++ membersText spacing others))))

end

/-- A value on one line. -/
def compact (value : Json) : String := String.ofList (text .compact value)

/-- A value on indented lines. -/
def pretty (value : Json) : String := String.ofList (text (.indented 0) value)

end Json
end LoxLexer
