import LoxLexer.Proofs.Json.Numbers

/-!
# JSON read back

Every JSON value is read back from its text, compact or indented, and with
anything after it that does not make its last number longer.  What is read says
the same as the value; only numbers change their form, as they are read as the
rationals that their digits stand for, and an infinity is read as null.
-/

namespace LoxLexer
namespace Json

open Reader

/-! ## What a value says -/

mutual

/-- The document that the text of a value says. -/
def document : Json → Document
  | .null => .null
  | .count value => .number false value
  | .number value =>
    if value.isFinite then
      .number value.isNegative (Decimal.shortestValue numberLayout.tie value)
    else .null
  | .string value => .string value
  | .array items => .array (documents items)
  | .object members => .object (memberDocuments members)

/-- The documents of items. -/
def documents : List Json → List Document
  | [] => []
  | item :: others => document item :: documents others

/-- The documents of members, each with its name. -/
def memberDocuments : List (String × Json) → List (String × Document)
  | [] => []
  | (name, value) :: others => (name, document value) :: memberDocuments others

end

/-! ## Blanks -/

theorem skipBlanks_append
    {blanks rest : List Char}
    (hblanks : ∀ c ∈ blanks, isBlank c = true)
    (hrest : HeadAvoids isBlank rest) :
    skipBlanks (blanks ++ rest) = rest :=
  dropWhile_append_eq hblanks hrest

theorem skipBlanks_eq_self
    {rest : List Char}
    (hrest : HeadAvoids isBlank rest) :
    skipBlanks rest = rest :=
  skipBlanks_append (fun _ hc => absurd hc List.not_mem_nil) hrest

theorem isBlank_of_mem_lineStart
    {spacing : Spacing} {c : Char}
    (hc : c ∈ spacing.lineStart) :
    isBlank c = true := by
  cases spacing with
  | compact => cases hc
  | indented depth =>
      rw [Spacing.lineStart, List.mem_cons, List.mem_replicate] at hc
      rcases hc with rfl | ⟨-, rfl⟩
      · rfl
      · rfl

/-! ## Strings -/

theorem readString_escape
    {others after : List Char} {c : Char}
    (hread : readEscape others = some (c, after))
    (hlength : after.length ≤ others.length) :
    readString ('\\' :: others) =
      (readString after).map fun (body, rest) => (c :: body, rest) := by
  rw [readString, if_neg (by decide), if_pos rfl, hread]
  dsimp only
  rw [if_pos hlength]

theorem readString_plain
    {c : Char}
    (hquote : c ≠ '"')
    (hbackslash : c ≠ '\\')
    (hcontrol : ¬ c.toNat < 32)
    (others : List Char) :
    readString (c :: others) =
      (readString others).map fun (body, rest) => (c :: body, rest) := by
  rw [readString, if_neg hquote, if_neg hbackslash, if_neg hcontrol]

theorem hexValue?_digitChar
    {digit : ℕ}
    (hdigit : digit < 16) :
    hexValue? (Nat.digitChar digit) = some digit := by
  have hall : ∀ digit < 16, hexValue? (Nat.digitChar digit) = some digit := by decide
  exact hall digit hdigit

/-- A control character is read back from its number. -/
theorem readEscape_control
    {c : Char}
    (hcontrol : c.toNat < 32)
    (rest : List Char) :
    readEscape ('u' :: '0' :: '0' :: Nat.digitChar (c.toNat / 16) ::
      Nat.digitChar (c.toNat % 16) :: rest) = some (c, rest) := by
  have hzero : hexValue? '0' = some 0 := by decide
  have hunit : ((0 * 16 + 0) * 16 + c.toNat / 16) * 16 + c.toNat % 16 = c.toNat := by omega
  rw [readEscape, if_pos rfl, readCodePoint, readUnit, hzero,
    hexValue?_digitChar (by omega : c.toNat / 16 < 16),
    hexValue?_digitChar (by omega : c.toNat % 16 < 16)]
  dsimp only
  rw [hunit, if_pos (by omega), Char.ofNat_toNat]

/-- A character is read back from what it is written as. -/
theorem readString_escaped (c : Char) (rest : List Char) :
    readString (escaped c ++ rest) =
      (readString rest).map fun (body, after) => (c :: body, after) := by
  have hletter : ∀ d e, d ≠ 'u' → escapes.lookup d = some e →
      readString ('\\' :: d :: rest) =
        (readString rest).map fun (body, after) => (e :: body, after) := by
    intro d e hd hescape
    apply readString_escape
    · rw [readEscape, if_neg hd, hescape]
      rfl
    · rw [List.length_cons]
      exact Nat.le_succ _
  unfold escaped
  split
  · rename_i heq
    exact hletter '"' c (by decide) (by rw [heq]; decide)
  split
  · rename_i heq
    exact hletter '\\' c (by decide) (by rw [heq]; decide)
  split
  · rename_i heq
    exact hletter 'b' c (by decide) (by rw [heq]; decide)
  split
  · rename_i heq
    exact hletter 'f' c (by decide) (by rw [heq]; decide)
  split
  · rename_i heq
    exact hletter 'n' c (by decide) (by rw [heq]; decide)
  split
  · rename_i heq
    exact hletter 'r' c (by decide) (by rw [heq]; decide)
  split
  · rename_i heq
    exact hletter 't' c (by decide) (by rw [heq]; decide)
  split
  · rename_i hcontrol
    apply readString_escape (readEscape_control hcontrol rest)
    simp only [List.length_cons]
    omega
  · rename_i hquote hbackslash _ _ _ _ _ hcontrol
    exact readString_plain hquote hbackslash hcontrol rest

/-- A string is read back from its text. -/
theorem readString_flatMap_escaped (body rest : List Char) :
    readString (body.flatMap escaped ++ '"' :: rest) = some (body, rest) := by
  induction body with
  | nil =>
      rw [List.flatMap_nil, List.nil_append, readString, if_pos rfl]
  | cons c others ih =>
      rw [List.flatMap_cons, List.append_assoc, readString_escaped, ih]
      rfl

theorem quoted_append (value : String) (rest : List Char) :
    quoted value ++ rest = '"' :: (value.toList.flatMap escaped ++ '"' :: rest) := by
  rw [quoted, List.cons_append, List.append_assoc, List.singleton_append]

/-- The name of a member is read back, and the colon after it. -/
theorem readKey_quoted
    {value : List Char}
    (hvalue : HeadAvoids isBlank value)
    (spacing : Spacing) (name : String) :
    readKey (quoted name ++ (spacing.colon ++ value)) = some (name, value) := by
  have hcolon : ∃ blanks, spacing.colon = ':' :: blanks ∧ ∀ c ∈ blanks, isBlank c = true := by
    cases spacing with
    | compact => exact ⟨[], rfl, List.forall_mem_nil _⟩
    | indented depth => exact ⟨[' '], rfl, List.forall_mem_singleton.mpr rfl⟩
  obtain ⟨blanks, heq, hblanks⟩ := hcolon
  have hrest : HeadAvoids isBlank (':' :: (blanks ++ value)) :=
    headAvoids_cons_iff.mpr (by decide)
  rw [quoted_append, readKey, List.head?_cons, if_pos rfl, List.tail_cons,
    readString_flatMap_escaped, heq, List.cons_append]
  dsimp only
  rw [skipBlanks_eq_self hrest, List.head?_cons, if_pos rfl, List.tail_cons,
    skipBlanks_append hblanks hvalue, String.ofList_toList]

/-! ## Values -/

theorem readValue_quoted (value : String) (rest : List Char) :
    readValue (quoted value ++ rest) = some (.string value, rest) := by
  rw [quoted_append, readValue, if_pos rfl, readString_flatMap_escaped, Option.map_some]
  dsimp only
  rw [String.ofList_toList]

theorem exists_head_of_readNumber
    {text : List Char} {result : Document × List Char}
    (hread : readNumber text = some result) :
    ∃ c others, text = c :: others ∧ (c = '-' ∨ c.isDigit = true) := by
  unfold readNumber at hread
  split at hread
  · rename_i hminus
    obtain ⟨others, rfl⟩ := List.head?_eq_some_iff.mp hminus
    exact ⟨'-', others, rfl, Or.inl rfl⟩
  · obtain ⟨magnitude, hmagnitude, -⟩ := Option.map_eq_some_iff.mp hread
    obtain ⟨c, others, htext, hdigit⟩ := exists_digit_of_readMagnitude hmagnitude
    exact ⟨c, others, htext, Or.inr hdigit⟩

/-- Nothing else begins like a number. -/
theorem readValue_of_readNumber
    {text : List Char} {result : Document × List Char}
    (hread : readNumber text = some result) :
    readValue text = some result := by
  obtain ⟨c, others, rfl, hhead⟩ := exists_head_of_readNumber hread
  have hother : ∀ d, d ≠ '-' → d.isDigit = false → c ≠ d := by
    rintro d hminus hdigit rfl
    rcases hhead with heq | heq
    · exact hminus heq
    · rw [hdigit] at heq
      cases heq
  rw [readValue, if_neg (hother '"' (by decide) (by decide)),
    if_neg (hother '[' (by decide) (by decide)), if_neg (hother '{' (by decide) (by decide)),
    if_pos hhead, hread]

theorem readValue_null (rest : List Char) :
    readValue ("null".toList ++ rest) = some (.null, rest) := by
  have hnull : "null".toList = ['n', 'u', 'l', 'l'] := rfl
  rw [hnull, List.cons_append, readValue, if_neg (by decide), if_neg (by decide),
    if_neg (by decide), if_neg (by decide), readName]
  simp [names]

/-- The text of a number, or of null in place of an infinity. -/
theorem readValue_numberText
    {rest : List Char}
    (hrest : HeadAvoids isNumberPart rest)
    (value : Binary64) :
    readValue (numberText value ++ rest) = some (document (.number value), rest) := by
  rw [numberText, document]
  split
  · rename_i hfinite
    have hmark : numberLayout.MarksAsJson := Or.inl rfl
    exact readValue_of_readNumber (Layout.readNumber_ofFinite hmark hfinite hrest)
  · exact readValue_null rest

/-- The characters that a value does not begin with: blanks, and what closes an
array or an object. -/
def isGap (c : Char) : Bool := isBlank c || c == ']' || c == '}'

theorem isGap_eq_false_of_number
    {c : Char}
    (hhead : c = '-' ∨ c.isDigit = true) :
    isGap c = false := by
  by_contra hgap
  rw [Bool.not_eq_false] at hgap
  simp only [isGap, isBlank, Bool.or_eq_true, beq_iff_eq] at hgap
  rcases hgap with ((((rfl | rfl) | rfl) | rfl) | rfl) | rfl
  all_goals
    revert hhead
    decide

/-- A value begins at once. -/
theorem headAvoids_text (spacing : Spacing) (value : Json) (rest : List Char) :
    HeadAvoids isGap (text spacing value ++ rest) := by
  have hnumber : ∀ (written : List Char) (result : Document × List Char),
      readNumber written = some result → HeadAvoids isGap (written ++ rest) := by
    intro written result hread
    obtain ⟨c, others, rfl, hhead⟩ := exists_head_of_readNumber hread
    exact headAvoids_cons_iff.mpr (isGap_eq_false_of_number hhead)
  have hnull : HeadAvoids isGap ("null".toList ++ rest) :=
    headAvoids_cons_iff.mpr (by decide)
  cases value with
  | null =>
      rw [text]
      exact hnull
  | count value =>
      have hread := readNumber_toDigits (headAvoids_nil isNumberPart) value
      rw [List.append_nil] at hread
      rw [text]
      exact hnumber _ _ hread
  | number value =>
      rw [text, numberText]
      split
      · rename_i hfinite
        have hmark : numberLayout.MarksAsJson := Or.inl rfl
        have hread := Layout.readNumber_ofFinite hmark hfinite (headAvoids_nil isNumberPart)
        rw [List.append_nil] at hread
        exact hnumber _ _ hread
      · exact hnull
  | string value =>
      rw [text, quoted, List.cons_append]
      exact headAvoids_cons_iff.mpr (by decide)
  | array items =>
      cases items with
      | nil =>
          rw [text]
          exact headAvoids_cons_iff.mpr (by decide)
      | cons first others =>
          rw [text, List.cons_append]
          exact headAvoids_cons_iff.mpr (by decide)
  | object members =>
      cases members with
      | nil =>
          rw [text]
          exact headAvoids_cons_iff.mpr (by decide)
      | cons first others =>
          rw [text, List.cons_append]
          exact headAvoids_cons_iff.mpr (by decide)

section

variable {rest value closing : List Char}

theorem headAvoids_isBlank
    (hvalue : HeadAvoids isGap value) :
    HeadAvoids isBlank value := by
  apply headAvoids_mono hvalue
  intro c hc
  simp only [isGap, Bool.or_eq_false_iff] at hc
  exact hc.1.1

theorem head?_ne_of_isGap
    {c : Char}
    (hvalue : HeadAvoids isGap value)
    (hgap : isGap c = true) :
    value.head? ≠ some c := by
  intro heq
  have hc := hvalue c heq
  rw [hgap] at hc
  cases hc

/-- No number goes on over blanks. -/
theorem headAvoids_blanks
    {blanks : List Char}
    (hblanks : ∀ c ∈ blanks, isBlank c = true)
    (hrest : HeadAvoids isNumberPart rest) :
    HeadAvoids isNumberPart (blanks ++ rest) := by
  cases blanks with
  | nil => exact hrest
  | cons c others =>
      rw [List.cons_append, headAvoids_cons_iff]
      have hblank := hblanks c List.mem_cons_self
      simp only [isBlank, Bool.or_eq_true, beq_iff_eq] at hblank
      rcases hblank with ((rfl | rfl) | rfl) | rfl
      all_goals decide

/-- The last item of an array, up to the bracket. -/
theorem readItems_last
    {text : List Char} {item : Document}
    (hread : readValue text = some (item, closing ++ ']' :: rest))
    (hclosing : ∀ c ∈ closing, isBlank c = true) :
    readItems text = some ([item], rest) := by
  have hbracket : HeadAvoids isBlank (']' :: rest) := headAvoids_cons_iff.mpr (by decide)
  rw [readItems, hread]
  dsimp only
  rw [skipBlanks_append hclosing hbracket, List.head?_cons, if_pos rfl, List.tail_cons]

/-- An item before others, over the comma. -/
theorem readItems_next
    {text blanks : List Char} {item : Document}
    (hread : readValue text = some (item, ',' :: (blanks ++ value)))
    (hblanks : ∀ c ∈ blanks, isBlank c = true)
    (hvalue : HeadAvoids isGap value)
    (hlength : value.length < text.length) :
    readItems text = (readItems value).map fun (items, after) => (item :: items, after) := by
  have hcomma : HeadAvoids isBlank (',' :: (blanks ++ value)) :=
    headAvoids_cons_iff.mpr (by decide)
  rw [readItems, hread]
  dsimp only
  rw [skipBlanks_eq_self hcomma, List.head?_cons, if_neg (by decide), if_pos rfl,
    List.tail_cons, skipBlanks_append hblanks (headAvoids_isBlank hvalue), if_pos hlength]

/-- The last member of an object, up to the brace. -/
theorem readMembers_last
    {text : List Char} {name : String} {document : Document}
    (hkey : readKey text = some (name, value))
    (hlength : value.length < text.length)
    (hread : readValue value = some (document, closing ++ '}' :: rest))
    (hclosing : ∀ c ∈ closing, isBlank c = true) :
    readMembers text = some ([(name, document)], rest) := by
  have hbrace : HeadAvoids isBlank ('}' :: rest) := headAvoids_cons_iff.mpr (by decide)
  rw [readMembers, hkey]
  dsimp only
  rw [if_pos hlength, hread]
  dsimp only
  rw [skipBlanks_append hclosing hbrace, List.head?_cons, if_pos rfl, List.tail_cons]

/-- A member before others, over the comma. -/
theorem readMembers_next
    {text blanks more : List Char} {name : String} {document : Document}
    (hkey : readKey text = some (name, value))
    (hlength : value.length < text.length)
    (hread : readValue value = some (document, ',' :: (blanks ++ more)))
    (hblanks : ∀ c ∈ blanks, isBlank c = true)
    (hmore : HeadAvoids isGap more)
    (hshorter : more.length < text.length) :
    readMembers text =
      (readMembers more).map fun (members, after) => ((name, document) :: members, after) := by
  have hcomma : HeadAvoids isBlank (',' :: (blanks ++ more)) :=
    headAvoids_cons_iff.mpr (by decide)
  rw [readMembers, hkey]
  dsimp only
  rw [if_pos hlength, hread]
  dsimp only
  rw [skipBlanks_eq_self hcomma, List.head?_cons, if_neg (by decide), if_pos rfl,
    List.tail_cons, skipBlanks_append hblanks (headAvoids_isBlank hmore), if_pos hshorter]

end

theorem headAvoids_quoted (name : String) (rest : List Char) :
    HeadAvoids isGap (quoted name ++ rest) := by
  rw [quoted_append]
  exact headAvoids_cons_iff.mpr (by decide)

/-- The parts of a text are cut off it one after the other. -/
theorem length_lt_quoted_append (name : String) (front rest : List Char) :
    rest.length < (quoted name ++ (front ++ rest)).length := by
  rw [quoted_append]
  simp only [List.length_append, List.length_cons]
  omega

/-! ## Round trip -/

mutual

/-- A value is read back from its text. -/
theorem readValue_text (value : Json) (spacing : Spacing) {rest : List Char}
    (hrest : HeadAvoids isNumberPart rest) :
    readValue (text spacing value ++ rest) = some (document value, rest) := by
  match value with
  | .null =>
      rw [text, document]
      exact readValue_null rest
  | .count amount =>
      rw [text, document]
      exact readValue_of_readNumber (readNumber_toDigits hrest amount)
  | .number amount =>
      rw [text]
      exact readValue_numberText hrest amount
  | .string body =>
      rw [text, document]
      exact readValue_quoted body rest
  | .array [] =>
      have hbracket : HeadAvoids isBlank (']' :: rest) := headAvoids_cons_iff.mpr (by decide)
      rw [text, document, documents, List.cons_append, List.singleton_append, readValue,
        if_neg (by decide), if_pos rfl, skipBlanks_eq_self hbracket, List.head?_cons,
        if_pos rfl, List.tail_cons]
  | .array (first :: others) =>
      have hclosing : ∀ c ∈ spacing.lineStart, isBlank c = true :=
        fun _ => isBlank_of_mem_lineStart
      have hitems := readItems_text first others spacing.deeper rest hclosing
      have hfirst := headAvoids_text spacing.deeper first
        (itemsText spacing.deeper others ++ (spacing.lineStart ++ ']' :: rest))
      rw [text, document, documents]
      simp only [List.cons_append, List.append_assoc, List.nil_append]
      rw [readValue, if_neg (by decide), if_pos rfl,
        skipBlanks_append (fun _ => isBlank_of_mem_lineStart) (headAvoids_isBlank hfirst),
        if_neg (head?_ne_of_isGap hfirst (by decide)), hitems]
      rfl
  | .object [] =>
      have hbrace : HeadAvoids isBlank ('}' :: rest) := headAvoids_cons_iff.mpr (by decide)
      rw [text, document, memberDocuments, List.cons_append, List.singleton_append, readValue,
        if_neg (by decide), if_neg (by decide), if_pos rfl, skipBlanks_eq_self hbrace,
        List.head?_cons, if_pos rfl, List.tail_cons]
  | .object ((name, first) :: others) =>
      have hclosing : ∀ c ∈ spacing.lineStart, isBlank c = true :=
        fun _ => isBlank_of_mem_lineStart
      have hmembers := readMembers_text name first others spacing.deeper rest hclosing
      have hfirst := headAvoids_quoted name (spacing.deeper.colon ++
        (text spacing.deeper first ++ (membersText spacing.deeper others ++
          (spacing.lineStart ++ '}' :: rest))))
      rw [text, document, memberDocuments]
      simp only [List.cons_append, List.append_assoc, List.nil_append]
      rw [readValue, if_neg (by decide), if_neg (by decide), if_pos rfl,
        skipBlanks_append (fun _ => isBlank_of_mem_lineStart) (headAvoids_isBlank hfirst),
        if_neg (head?_ne_of_isGap hfirst (by decide)), hmembers]
      rfl
termination_by sizeOf value

/-- The items of an array are read back, up to its bracket. -/
theorem readItems_text (first : Json) (others : List Json) (spacing : Spacing)
    (rest : List Char) {closing : List Char}
    (hclosing : ∀ c ∈ closing, isBlank c = true) :
    readItems (text spacing first ++
        (itemsText spacing others ++ (closing ++ ']' :: rest))) =
      some (document first :: documents others, rest) := by
  match others with
  | [] =>
      have hbracket : HeadAvoids isNumberPart (']' :: rest) :=
        headAvoids_cons_iff.mpr (by decide)
      have hread := readValue_text first spacing (headAvoids_blanks hclosing hbracket)
      rw [itemsText, documents, List.nil_append]
      exact readItems_last hread hclosing
  | item :: more =>
      have hvalue := headAvoids_text spacing item
        (itemsText spacing more ++ (closing ++ ']' :: rest))
      have hcomma : HeadAvoids isNumberPart (',' :: (spacing.lineStart ++ (text spacing item ++
          (itemsText spacing more ++ (closing ++ ']' :: rest))))) :=
        headAvoids_cons_iff.mpr (by decide)
      have hread := readValue_text first spacing hcomma
      rw [itemsText, documents]
      simp only [List.cons_append, List.append_assoc]
      rw [readItems_next hread (fun _ => isBlank_of_mem_lineStart) hvalue,
        readItems_text item more spacing rest hclosing]
      · rfl
      · simp only [List.length_append, List.length_cons]
        omega
termination_by sizeOf first + sizeOf others + 1

/-- The members of an object are read back, up to its brace. -/
theorem readMembers_text (name : String) (first : Json) (others : List (String × Json))
    (spacing : Spacing) (rest : List Char) {closing : List Char}
    (hclosing : ∀ c ∈ closing, isBlank c = true) :
    readMembers (quoted name ++ (spacing.colon ++ (text spacing first ++
        (membersText spacing others ++ (closing ++ '}' :: rest))))) =
      some ((name, document first) :: memberDocuments others, rest) := by
  match others with
  | [] =>
      have hbrace : HeadAvoids isNumberPart ('}' :: rest) :=
        headAvoids_cons_iff.mpr (by decide)
      have hread := readValue_text first spacing (headAvoids_blanks hclosing hbrace)
      have hvalue := headAvoids_text spacing first (closing ++ '}' :: rest)
      rw [membersText, memberDocuments, List.nil_append]
      exact readMembers_last (readKey_quoted (headAvoids_isBlank hvalue) spacing name)
        (length_lt_quoted_append _ _ _) hread hclosing
  | (next, item) :: more =>
      have hmore := headAvoids_quoted next (spacing.colon ++ (text spacing item ++
        (membersText spacing more ++ (closing ++ '}' :: rest))))
      have hcomma : HeadAvoids isNumberPart (',' :: (spacing.lineStart ++ (quoted next ++
          (spacing.colon ++ (text spacing item ++ (membersText spacing more ++
            (closing ++ '}' :: rest))))))) :=
        headAvoids_cons_iff.mpr (by decide)
      have hread := readValue_text first spacing hcomma
      have hvalue := headAvoids_text spacing first (',' :: (spacing.lineStart ++ (quoted next ++
          (spacing.colon ++ (text spacing item ++ (membersText spacing more ++
            (closing ++ '}' :: rest)))))))
      rw [membersText, memberDocuments]
      simp only [List.cons_append, List.append_assoc]
      rw [readMembers_next (readKey_quoted (headAvoids_isBlank hvalue) spacing name)
        (length_lt_quoted_append _ _ _) hread (fun _ => isBlank_of_mem_lineStart) hmore,
        readMembers_text next item more spacing rest hclosing]
      · rfl
      · rw [quoted_append name]
        simp only [List.length_append, List.length_cons]
        omega
termination_by sizeOf first + sizeOf others + 1

end

/-- The text of a value is read back, blanks at its end left aside. -/
theorem read_text
    {blanks : List Char}
    (hblanks : ∀ c ∈ blanks, isBlank c = true)
    (spacing : Spacing) (value : Json) :
    read (String.ofList (text spacing value ++ blanks)) = some (document value) := by
  have hends : HeadAvoids isNumberPart (blanks ++ []) :=
    headAvoids_blanks hblanks (headAvoids_nil isNumberPart)
  have hvalue := headAvoids_text spacing value (blanks ++ [])
  have hskipped := skipBlanks_append hblanks (headAvoids_nil isBlank)
  rw [List.append_nil] at hends hvalue hskipped
  rw [read, String.toList_ofList, skipBlanks_eq_self (headAvoids_isBlank hvalue),
    readValue_text value spacing hends]
  dsimp only
  rw [if_pos hskipped]

end Json
end LoxLexer
