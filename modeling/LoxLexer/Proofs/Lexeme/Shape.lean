import LoxLexer.Lexeme.First
import Mathlib.Data.List.TakeWhile

/-!
# Shapes of lexemes

A lexeme is valid if its characters are of the kind it asks for, and it stops
before a text that does not begin with more of it.  The first lexeme of a
source is the only valid one that begins the source and stops before the rest:
`first_valid`, `first_stops` and `first_eq` together say so.  All later
statements about how a source is cut go through these three.
-/

namespace LoxLexer

/-! ## Runs of like characters -/

/-- A text that does not begin with a character of a class. -/
def HeadAvoids (p : Char → Bool) (rest : List Char) : Prop :=
  ∀ c ∈ rest.head?, p c = false

theorem headAvoids_nil (p : Char → Bool) : HeadAvoids p [] := by
  intro c hc
  simp at hc

theorem headAvoids_cons_iff
    {p : Char → Bool} {c : Char} {others : List Char} :
    HeadAvoids p (c :: others) ↔ p c = false := by
  simp [HeadAvoids]

theorem headAvoids_mono
    {p q : Char → Bool} {rest : List Char}
    (hrest : HeadAvoids p rest)
    (himplies : ∀ c, p c = false → q c = false) :
    HeadAvoids q rest := by
  intro c hc
  exact himplies c (hrest c hc)

theorem headAvoids_dropWhile
    (p : Char → Bool) (text : List Char) :
    HeadAvoids p (text.dropWhile p) := by
  intro c hc
  have hnot := List.head?_dropWhile_not p text
  rw [Option.mem_def] at hc
  rw [hc] at hnot
  exact hnot

/-- A run goes exactly as far as its class does. -/
theorem takeWhile_append_eq
    {p : Char → Bool} {run rest : List Char}
    (hrun : ∀ c ∈ run, p c = true)
    (hrest : HeadAvoids p rest) :
    (run ++ rest).takeWhile p = run := by
  rw [List.takeWhile_append_of_pos hrun]
  cases rest with
  | nil => simp
  | cons c others =>
      have hc : p c = false := headAvoids_cons_iff.mp hrest
      simp [hc]

theorem dropWhile_append_eq
    {p : Char → Bool} {run rest : List Char}
    (hrun : ∀ c ∈ run, p c = true)
    (hrest : HeadAvoids p rest) :
    (run ++ rest).dropWhile p = rest := by
  rw [List.dropWhile_append_of_pos hrun]
  cases rest with
  | nil => rfl
  | cons c others =>
      have hc : p c = false := headAvoids_cons_iff.mp hrest
      simp [hc]

/-! ## Marks of one character and of two -/

namespace Punctuation

/-- A mark is one character, or another mark with an equals sign after it. -/
theorem exists_ofChar?_or_withEqual?
    (mark : Punctuation) :
    (∃ c, ofChar? c = some mark) ∨
      ∃ c short, ofChar? c = some short ∧ short.withEqual? = some mark := by
  cases mark with
  | leftParen => exact Or.inl ⟨'(', rfl⟩
  | rightParen => exact Or.inl ⟨')', rfl⟩
  | leftBrace => exact Or.inl ⟨'{', rfl⟩
  | rightBrace => exact Or.inl ⟨'}', rfl⟩
  | comma => exact Or.inl ⟨',', rfl⟩
  | dot => exact Or.inl ⟨'.', rfl⟩
  | minus => exact Or.inl ⟨'-', rfl⟩
  | plus => exact Or.inl ⟨'+', rfl⟩
  | semicolon => exact Or.inl ⟨';', rfl⟩
  | slash => exact Or.inl ⟨'/', rfl⟩
  | star => exact Or.inl ⟨'*', rfl⟩
  | bang => exact Or.inl ⟨'!', rfl⟩
  | equal => exact Or.inl ⟨'=', rfl⟩
  | greater => exact Or.inl ⟨'>', rfl⟩
  | less => exact Or.inl ⟨'<', rfl⟩
  | bangEqual => exact Or.inr ⟨'!', .bang, rfl, rfl⟩
  | equalEqual => exact Or.inr ⟨'=', .equal, rfl, rfl⟩
  | greaterEqual => exact Or.inr ⟨'>', .greater, rfl, rfl⟩
  | lessEqual => exact Or.inr ⟨'<', .less, rfl, rfl⟩

/-- A mark of two characters takes no further equals sign. -/
theorem withEqual?_of_withEqual?_eq_some
    {mark long : Punctuation}
    (hlong : mark.withEqual? = some long) :
    long.withEqual? = none := by
  cases mark <;> cases hlong <;> rfl

theorem ne_slash_of_withEqual?_eq_some
    {mark long : Punctuation}
    (hlong : mark.withEqual? = some long) :
    long ≠ .slash ∧ mark ≠ .slash := by
  cases mark <;> cases hlong <;> decide

theorem eq_slash_iff_of_ofChar?_eq_some
    {c : Char} {mark : Punctuation}
    (hmark : ofChar? c = some mark) :
    mark = .slash ↔ c = '/' := by
  unfold ofChar? at hmark
  split at hmark <;> cases hmark <;> decide

end Punctuation

namespace Lexeme

/-! ## Classes of characters -/

/-- A character that begins no lexeme. -/
structure BeginsNothing (c : Char) : Prop where
  not_feed : c ≠ '\n'
  not_blank : isBlank c = false
  not_quote : c ≠ '"'
  not_digit : c.isDigit = false
  not_start : isWordStart c = false
  not_mark : Punctuation.ofChar? c = none

theorem isDigit_iff
    {c : Char} :
    c.isDigit = true ↔ '0' ≤ c ∧ c ≤ '9' := by
  simp [Char.isDigit, Char.le_def]

theorem isWordStart_iff
    {c : Char} :
    isWordStart c = true ↔
      ('A' ≤ c ∧ c ≤ 'Z') ∨ ('a' ≤ c ∧ c ≤ 'z') ∨ c = '_' := by
  have halpha : c.isAlpha = (c.isUpper || c.isLower) := rfl
  have hupper : c.isUpper = decide ('A' ≤ c ∧ c ≤ 'Z') := rfl
  have hlower : c.isLower = (decide ('a' ≤ c) && decide (c ≤ 'z')) := rfl
  simp [isWordStart, halpha, hupper, hlower, or_assoc]

theorem isWordPart_iff
    {c : Char} :
    isWordPart c = true ↔ isWordStart c = true ∨ c.isDigit = true := by
  simp [isWordPart]

theorem isBlank_iff
    {c : Char} :
    isBlank c = true ↔ c = ' ' ∨ c = '\r' ∨ c = '\t' := by
  simp [isBlank, or_assoc]

theorem not_isDigit_of_isWordStart
    {c : Char}
    (hstart : isWordStart c = true) :
    c.isDigit = false := by
  rw [Bool.eq_false_iff]
  intro hdigit
  obtain ⟨-, hnine⟩ := isDigit_iff.mp hdigit
  rcases isWordStart_iff.mp hstart with hupper | hlower | rfl
  · exact absurd (Char.le_trans hupper.1 hnine) (by decide)
  · exact absurd (Char.le_trans hlower.1 hnine) (by decide)
  · exact absurd hdigit (by decide)

/-- A character of a class without feeds, blanks and quotes is none of the
characters that are looked for first. -/
theorem of_class
    {p : Char → Bool} {c : Char}
    (hc : p c = true)
    (hp : ['\n', ' ', '\r', '\t', '"'].all (!p ·) = true) :
    c ≠ '\n' ∧ isBlank c = false ∧ c ≠ '"' := by
  have hne : ∀ d ∈ ['\n', ' ', '\r', '\t', '"'], c ≠ d := by
    rintro d hd rfl
    have hfalse := List.all_eq_true.mp hp c hd
    simp [hc] at hfalse
  refine ⟨hne _ (by simp), ?_, hne _ (by simp)⟩
  rw [Bool.eq_false_iff]
  intro hblank
  rcases isBlank_iff.mp hblank with heq | heq | heq
  · exact hne ' ' (by simp) heq
  · exact hne '\r' (by simp) heq
  · exact hne '\t' (by simp) heq

theorem not_digit_not_start_of_ofChar?_eq_some
    {c : Char} {mark : Punctuation}
    (hmark : Punctuation.ofChar? c = some mark) :
    c.isDigit = false ∧ isWordStart c = false := by
  unfold Punctuation.ofChar? at hmark
  split at hmark <;> cases hmark <;> decide

/-! ## Validity and stopping -/

/-- Digits, at least one. -/
def IsDigits (text : List Char) : Prop :=
  text ≠ [] ∧ ∀ d ∈ text, d.isDigit = true

/-- The characters of a lexeme are of the kind it asks for. -/
def Valid : Lexeme → Prop
  | .operator _ => True
  | .word text =>
      ∃ c others, text = c :: others ∧ isWordStart c = true ∧
        ∀ d ∈ others, isWordPart d = true
  | .number whole fraction => IsDigits whole ∧ ∀ places ∈ fraction, IsDigits places
  | .string body => '"' ∉ body
  | .comment body => '\n' ∉ body
  | .blank c => isBlank c = true
  | .lineFeed => True
  | .unterminated body => '"' ∉ body
  | .unexpected c => BeginsNothing c

/-- What follows a lexeme is no more of it. -/
def Stops : Lexeme → List Char → Prop
  | .operator mark, rest =>
      (mark.withEqual? ≠ none → rest.head? ≠ some '=') ∧
        (mark = .slash → rest.head? ≠ some '/')
  | .word _, rest => HeadAvoids isWordPart rest
  | .number _ none, rest =>
      HeadAvoids Char.isDigit rest ∧
        ∀ d others, rest = '.' :: d :: others → d.isDigit = false
  | .number _ (some _), rest => HeadAvoids Char.isDigit rest
  | .comment _, rest => HeadAvoids isCommentPart rest
  | .unterminated _, rest => rest = []
  | .string _, _ | .blank _, _ | .lineFeed, _ | .unexpected _, _ => True

theorem not_mem_iff_isStringPart
    {body : List Char} :
    '"' ∉ body ↔ ∀ c ∈ body, isStringPart c = true := by
  simp only [isStringPart, bne_iff_ne]
  exact ⟨fun hbody c hc => by rintro rfl; exact hbody hc,
    fun hbody hquote => hbody _ hquote rfl⟩

theorem not_mem_iff_isCommentPart
    {body : List Char} :
    '\n' ∉ body ↔ ∀ c ∈ body, isCommentPart c = true := by
  simp only [isCommentPart, bne_iff_ne]
  exact ⟨fun hbody c hc => by rintro rfl; exact hbody hc,
    fun hbody hfeed => hbody _ hfeed rfl⟩

/-! ## The first lexeme is valid -/

theorem isDigits_takeWhile
    {c : Char}
    (hdigit : c.isDigit = true)
    (others : List Char) :
    IsDigits ((c :: others).takeWhile Char.isDigit) := by
  refine ⟨by simp [hdigit], ?_⟩
  intro d hd
  exact List.mem_takeWhile_imp hd

theorem firstNumber_valid
    {c : Char}
    (hdigit : c.isDigit = true)
    (others : List Char) :
    (firstNumber (c :: others)).1.Valid := by
  have hwhole := isDigits_takeWhile hdigit others
  unfold firstNumber
  split
  · split
    · rename_i hplace
      refine ⟨hwhole, ?_⟩
      rintro places ⟨⟩
      exact isDigits_takeWhile hplace _
    · exact ⟨hwhole, by simp⟩
  · exact ⟨hwhole, by simp⟩

theorem firstString_valid
    (others : List Char) :
    (firstString others).1.Valid := by
  have hbody : '"' ∉ others.takeWhile isStringPart :=
    not_mem_iff_isStringPart.mpr fun c hc => List.mem_takeWhile_imp hc
  unfold firstString
  split
  · exact hbody
  · exact hbody

theorem firstWord_valid
    {c : Char}
    (hstart : isWordStart c = true)
    (others : List Char) :
    (firstWord (c :: others)).1.Valid := by
  refine ⟨c, others.takeWhile isWordPart, ?_, hstart, ?_⟩
  · exact List.takeWhile_cons_of_pos (isWordPart_iff.mpr (Or.inl hstart))
  · intro d hd
    exact List.mem_takeWhile_imp hd

theorem first_valid
    (c : Char) (others : List Char) :
    (first c others).1.Valid := by
  unfold first
  split
  · trivial
  split
  · assumption
  split
  · exact firstString_valid others
  split
  · rename_i hdigit
    exact firstNumber_valid hdigit others
  split
  · rename_i hstart
    exact firstWord_valid hstart others
  split
  · exact not_mem_iff_isCommentPart.mpr fun d hd => List.mem_takeWhile_imp hd
  split
  · unfold firstOperator
    split <;> trivial
  · constructor <;> simp_all

/-! ## The first lexeme stops before the rest -/

theorem firstOperator_stops
    {mark : Punctuation} {others : List Char}
    (hcomment : mark = .slash → others.head? ≠ some '/') :
    (firstOperator mark others).1.Stops (firstOperator mark others).2 := by
  unfold firstOperator
  split
  · rename_i hlong
    have hnone := Punctuation.withEqual?_of_withEqual?_eq_some hlong
    have hne := (Punctuation.ne_slash_of_withEqual?_eq_some hlong).1
    exact ⟨fun hsome => absurd hnone hsome, fun hslash => absurd hslash hne⟩
  · rename_i hshort
    refine ⟨?_, hcomment⟩
    intro hsome hhead
    obtain ⟨long, hlong⟩ := Option.ne_none_iff_exists'.mp hsome
    obtain ⟨rest, rfl⟩ := List.head?_eq_some_iff.mp hhead
    exact hshort _ _ hlong rfl

theorem firstNumber_stops
    (source : List Char) :
    (firstNumber source).1.Stops (firstNumber source).2 := by
  have hrest := headAvoids_dropWhile Char.isDigit source
  unfold firstNumber
  split
  · rename_i digit more hpoint
    split
    · exact headAvoids_dropWhile Char.isDigit (digit :: more)
    · rename_i hdigit
      rw [hpoint] at hrest
      refine ⟨hrest, ?_⟩
      rintro d others ⟨⟩
      exact Bool.eq_false_iff.mpr hdigit
  · rename_i hpoint
    exact ⟨hrest, fun d others heq => absurd heq (hpoint d others)⟩

theorem firstString_stops
    (others : List Char) :
    (firstString others).1.Stops (firstString others).2 := by
  unfold firstString
  split
  · rfl
  · trivial

theorem first_stops
    (c : Char) (others : List Char) :
    (first c others).1.Stops (first c others).2 := by
  unfold first
  split
  · trivial
  split
  · trivial
  split
  · exact firstString_stops others
  split
  · exact firstNumber_stops (c :: others)
  split
  · exact headAvoids_dropWhile isWordPart (c :: others)
  split
  · exact headAvoids_dropWhile isCommentPart others.tail
  rename_i hcomment
  split
  · rename_i hmark
    apply firstOperator_stops
    intro hslash hhead
    exact hcomment ⟨(Punctuation.eq_slash_iff_of_ofChar?_eq_some hmark).mp hslash, hhead⟩
  · trivial

/-! ## A valid lexeme that stops is the first -/

theorem firstNumber_eq
    {whole : List Char} {fraction : Option (List Char)} {rest : List Char}
    (hvalid : (number whole fraction).Valid)
    (hstops : (number whole fraction).Stops rest) :
    firstNumber ((number whole fraction).text ++ rest) = (number whole fraction, rest) := by
  obtain ⟨⟨-, hwhole⟩, hfraction⟩ := hvalid
  cases fraction with
  | none =>
      obtain ⟨hdigit, hpoint⟩ := hstops
      simp only [text]
      unfold firstNumber
      rw [takeWhile_append_eq hwhole hdigit, dropWhile_append_eq hwhole hdigit]
      split
      · rename_i d others
        simp [hpoint d others rfl]
      · rfl
  | some places =>
      obtain ⟨hne, hplaces⟩ := hfraction places rfl
      obtain ⟨d, others, rfl⟩ := List.exists_cons_of_ne_nil hne
      have hpoint : HeadAvoids Char.isDigit ('.' :: d :: (others ++ rest)) :=
        headAvoids_cons_iff.mpr (by decide)
      simp only [text, List.append_assoc, List.cons_append]
      unfold firstNumber
      rw [takeWhile_append_eq hwhole hpoint, dropWhile_append_eq hwhole hpoint]
      have hd : d.isDigit = true := hplaces d (by simp)
      simp only [hd, if_true]
      rw [← List.cons_append, takeWhile_append_eq hplaces hstops,
        dropWhile_append_eq hplaces hstops]

theorem firstString_eq_string
    {body : List Char}
    (hbody : '"' ∉ body)
    (rest : List Char) :
    firstString (body ++ '"' :: rest) = (string body, rest) := by
  have hquote : HeadAvoids isStringPart ('"' :: rest) :=
    headAvoids_cons_iff.mpr (by decide)
  have hparts := not_mem_iff_isStringPart.mp hbody
  unfold firstString
  rw [takeWhile_append_eq hparts hquote, dropWhile_append_eq hparts hquote]

theorem firstString_eq_unterminated
    {body : List Char}
    (hbody : '"' ∉ body) :
    firstString body = (unterminated body, []) := by
  have hparts := not_mem_iff_isStringPart.mp hbody
  have htake := takeWhile_append_eq hparts (headAvoids_nil isStringPart)
  have hdrop := dropWhile_append_eq hparts (headAvoids_nil isStringPart)
  rw [List.append_nil] at htake hdrop
  unfold firstString
  rw [htake, hdrop]

/-- A mark that begins a source is looked for when nothing else begins it. -/
theorem first_eq_firstOperator
    {c : Char} {mark : Punctuation} {others : List Char}
    (hmark : Punctuation.ofChar? c = some mark)
    (hcomment : mark = .slash → others.head? ≠ some '/') :
    first c others = firstOperator mark others := by
  obtain ⟨hfeed, hblank, hquote⟩ :=
    @of_class (fun d => (Punctuation.ofChar? d).isSome) c (by simp [hmark]) (by decide)
  obtain ⟨hdigit, hstart⟩ := not_digit_not_start_of_ofChar?_eq_some hmark
  have hslashes : ¬ (c = '/' ∧ others.head? = some '/') := by
    rintro ⟨hc, hhead⟩
    exact hcomment ((Punctuation.eq_slash_iff_of_ofChar?_eq_some hmark).mpr hc) hhead
  rw [first, if_neg hfeed, if_neg (by simp [hblank]), if_neg hquote,
    if_neg (by simp [hdigit]), if_neg (by simp [hstart]), if_neg hslashes, hmark]

theorem first_eq_operator
    {mark : Punctuation} {rest : List Char} {c : Char} {others : List Char}
    (hstops : (operator mark).Stops rest)
    (htext : (operator mark).text ++ rest = c :: others) :
    first c others = (operator mark, rest) := by
  simp only [text] at htext
  rcases mark.exists_ofChar?_or_withEqual? with ⟨d, hmark⟩ | ⟨d, short, hmark, hlong⟩
  · rw [Punctuation.text_of_ofChar?_eq_some hmark, List.singleton_append] at htext
    obtain ⟨rfl, rfl⟩ := List.cons.inj htext
    rw [first_eq_firstOperator hmark hstops.2]
    unfold firstOperator
    split
    · rename_i hequal
      exact absurd rfl (hstops.1 (by simp [hequal]))
    · rfl
  · rw [Punctuation.text_of_withEqual?_eq_some hlong,
      Punctuation.text_of_ofChar?_eq_some hmark] at htext
    obtain ⟨rfl, rfl⟩ := List.cons.inj htext
    have hne := (Punctuation.ne_slash_of_withEqual?_eq_some hlong).2
    rw [first_eq_firstOperator hmark fun hslash => absurd hslash hne]
    simp [firstOperator, hlong]

theorem first_eq_number
    {whole : List Char} {fraction : Option (List Char)} {rest : List Char}
    {c : Char} {others : List Char}
    (hvalid : (number whole fraction).Valid)
    (hstops : (number whole fraction).Stops rest)
    (htext : (number whole fraction).text ++ rest = c :: others) :
    first c others = (number whole fraction, rest) := by
  have hdigit : c.isDigit = true := by
    obtain ⟨d, digits, hwhole⟩ := List.exists_cons_of_ne_nil hvalid.1.1
    have hhead : c = d := by
      cases fraction <;> simp_all [text]
    rw [hhead]
    exact hvalid.1.2 d (by simp [hwhole])
  obtain ⟨hfeed, hblank, hquote⟩ := of_class hdigit (by decide)
  rw [first, if_neg hfeed, if_neg (by simp [hblank]), if_neg hquote, if_pos hdigit,
    ← htext]
  exact firstNumber_eq hvalid hstops

theorem first_eq_word
    {letters rest : List Char} {c : Char} {others : List Char}
    (hvalid : (word letters).Valid)
    (hstops : (word letters).Stops rest)
    (htext : letters ++ rest = c :: others) :
    first c others = (word letters, rest) := by
  obtain ⟨d, parts, rfl, hstart, hparts⟩ := hvalid
  obtain ⟨rfl, rfl⟩ := List.cons.inj htext
  have hall : ∀ e ∈ d :: parts, isWordPart e = true := by
    intro e he
    rcases List.mem_cons.mp he with rfl | he
    · exact isWordPart_iff.mpr (Or.inl hstart)
    · exact hparts e he
  obtain ⟨hfeed, hblank, hquote⟩ := of_class hstart (by decide)
  rw [first, if_neg hfeed, if_neg (by simp [hblank]), if_neg hquote,
    if_neg (by simp [not_isDigit_of_isWordStart hstart]), if_pos hstart, firstWord]
  have happend : d :: parts.append rest = (d :: parts) ++ rest := rfl
  rw [happend, takeWhile_append_eq hall hstops, dropWhile_append_eq hall hstops]

theorem first_eq_comment
    {body rest : List Char}
    (hbody : '\n' ∉ body)
    (hstops : (comment body).Stops rest) :
    first '/' ('/' :: (body ++ rest)) = (comment body, rest) := by
  have hparts := not_mem_iff_isCommentPart.mp hbody
  rw [first, if_neg (by decide), if_neg (by decide), if_neg (by decide),
    if_neg (by decide), if_neg (by decide), if_pos ⟨rfl, rfl⟩, firstComment, List.tail_cons,
    takeWhile_append_eq hparts hstops, dropWhile_append_eq hparts hstops]

/-- A valid lexeme that begins a source and stops before the rest is its first
lexeme. -/
theorem first_eq
    {lexeme : Lexeme} {rest : List Char} {c : Char} {others : List Char}
    (hvalid : lexeme.Valid)
    (hstops : lexeme.Stops rest)
    (htext : lexeme.text ++ rest = c :: others) :
    first c others = (lexeme, rest) := by
  cases lexeme with
  | operator mark => exact first_eq_operator hstops htext
  | word letters => exact first_eq_word hvalid hstops htext
  | number whole fraction => exact first_eq_number hvalid hstops htext
  | string body =>
      obtain ⟨rfl, rfl⟩ := List.cons.inj htext
      rw [first, if_neg (by decide), if_neg (by decide), if_pos rfl]
      simpa using firstString_eq_string hvalid rest
  | comment body =>
      obtain ⟨rfl, rfl⟩ := List.cons.inj htext
      exact first_eq_comment hvalid hstops
  | blank d =>
      obtain ⟨rfl, rfl⟩ := List.cons.inj htext
      have hblank : isBlank d = true := hvalid
      have hfeed : d ≠ '\n' := by
        rintro rfl
        exact absurd hblank (by decide)
      rw [first, if_neg hfeed, if_pos hblank]
      rfl
  | lineFeed =>
      obtain ⟨rfl, rfl⟩ := List.cons.inj htext
      rfl
  | unterminated body =>
      obtain rfl : rest = [] := hstops
      obtain ⟨rfl, rfl⟩ := List.cons.inj htext
      rw [first, if_neg (by decide), if_neg (by decide), if_pos rfl]
      simpa using firstString_eq_unterminated hvalid
  | unexpected d =>
      obtain ⟨rfl, rfl⟩ := List.cons.inj htext
      obtain ⟨hfeed, hblank, hquote, hdigit, hstart, hmark⟩ := hvalid
      have hslash : d ≠ '/' := by
        rintro rfl
        exact absurd hmark (by decide)
      rw [first, if_neg hfeed, if_neg (by simp [hblank]), if_neg hquote,
        if_neg (by simp [hdigit]), if_neg (by simp [hstart]),
        if_neg fun hslashes => hslash hslashes.1, hmark]
      rfl

end Lexeme
end LoxLexer
