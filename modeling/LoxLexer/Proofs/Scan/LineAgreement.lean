import LoxLexer.Proofs.Scan.Run
import LoxLexer.Proofs.Source.LineCount

/-!
# Two counts of lines

A scan counts lines as it goes, while the index of a source collects the starts
of its lines beforehand and searches them.  For the tokens and the diagnostics
of a scan both give the line at which the lexeme begins: one more than the line
feeds before it.  Lines therefore never decrease.
-/

namespace LoxLexer

/-- A line is the one that the index finds for the start of a span, and counts
the line feeds before it. -/
structure CitesStart (source : List Char) (span : Span) (line : Word) : Prop where
  indexed : line = (LineIndex.ofChars source).lineOf span.start
  counted : line.toNat = 1 + (source.take span.start.toNat).count '\n'

/-- Tokens and diagnostics whose lines agree with the index of a source. -/
structure LinesAgree (source : List Char) (tokens : List Token)
    (diagnostics : List Diagnostic) : Prop where
  tokenLines : ∀ token ∈ tokens, CitesStart source token.span token.line
  diagnosticLines : ∀ diagnostic ∈ diagnostics, ∃ span,
    diagnostic.span = some span ∧ CitesStart source span diagnostic.line
  stringQuotes : ∀ token ∈ tokens, token.kind = .string →
    source[token.span.start.toNat]? = some '"'
  unterminatedQuotes : ∀ diagnostic ∈ diagnostics, diagnostic.code = 1002 →
    ∀ span ∈ diagnostic.span, source[span.start.toNat]? = some '"'
  endOfInput : ∃ last, tokens.getLast? = some last ∧ last.kind = .endOfInput ∧
    last.line.toNat = 1 + source.count '\n'
  tokensNondecreasing : tokens.Pairwise fun first second => first.line ≤ second.line
  diagnosticsNondecreasing :
    diagnostics.Pairwise fun first second => first.line ≤ second.line

/-! ## The line of a placed lexeme -/

theorem citesStart_of_take
    {source before : List Char} {span : Span}
    (hfits : FitsWords source)
    (hstart : span.start.toNat = before.length)
    (hbefore : source.take before.length = before) :
    CitesStart source span (Word.ofCount (1 + before.count '\n')) := by
  constructor
  · rw [LineIndex.lineOf_eq_ofCount span.start hfits, hstart, hbefore]
  · have hinitial : before <+: source := by
      rw [← hbefore]
      exact List.take_prefix _ _
    rw [hstart, hbefore, (hfits.mono hinitial).toNat_line]

theorem citesStart_of_mem_placedOf
    {source : List Char} {placed : Placed}
    (hfits : FitsWords source)
    (hmem : placed ∈ placedOf source) :
    CitesStart source placed.span (Word.ofCount placed.line) := by
  apply citesStart_of_take hfits (Placed.toNat_of_mem_placedOf hfits hmem).1
  obtain ⟨-, rest, hsource, -⟩ := exists_of_mem_placedOf hmem
  rw [hsource, List.append_assoc, List.take_left]

theorem citesStart_of_mem_tokensOf
    {source : List Char} {token : Token}
    (hfits : FitsWords source)
    (hmem : token ∈ tokensOf source) :
    CitesStart source token.span token.line := by
  rcases mem_tokensOf_iff.mp hmem with ⟨placed, hplaced, htoken⟩ | rfl
  · obtain ⟨-, -, hline, hspan⟩ := Placed.token?_eq_some_iff.mp htoken
    rw [hline, hspan]
    exact citesStart_of_mem_placedOf hfits hplaced
  · exact citesStart_of_take hfits hfits.toNat_length List.take_length

theorem citesStart_of_mem_diagnosticsOf
    {source : List Char} {diagnostic : Diagnostic}
    (hfits : FitsWords source)
    (hmem : diagnostic ∈ diagnosticsOf source) :
    ∃ span, diagnostic.span = some span ∧ CitesStart source span diagnostic.line := by
  obtain ⟨placed, hplaced, hmakes⟩ := mem_diagnosticsOf_iff.mp hmem
  obtain ⟨template, arguments, -, rfl⟩ := Placed.diagnostic?_eq_some_iff.mp hmakes
  exact ⟨placed.span, rfl, citesStart_of_mem_placedOf hfits hplaced⟩

/-- Of two citations the later one has the later line. -/
theorem CitesStart.line_le
    {source : List Char} {first second : Span} {line other : Word}
    (hfirst : CitesStart source first line)
    (hsecond : CitesStart source second other)
    (hle : first.start ≤ second.start) :
    line ≤ other := by
  have hinitial : source.take first.start.toNat <+: source.take second.start.toNat :=
    List.take_prefix_take_left (UInt32.le_iff_toNat_le.mp hle)
  have hcount := hinitial.sublist.count_le '\n'
  rw [UInt32.le_iff_toNat_le, hfirst.counted, hsecond.counted]
  omega

/-! ## The quote of a string -/

theorem getElem?_start_of_mem_placedOf
    {source : List Char} {placed : Placed}
    (hfits : FitsWords source)
    (hmem : placed ∈ placedOf source) :
    source[placed.span.start.toNat]? = placed.lexeme.text.head? := by
  obtain ⟨hvalid, rest, hsource, -⟩ := exists_of_mem_placedOf hmem
  have hne := Lexeme.text_ne_nil_of_valid hvalid
  rw [(Placed.toNat_of_mem_placedOf hfits hmem).1, hsource, List.append_assoc,
    List.getElem?_append_right (Nat.le_refl _), Nat.sub_self,
    List.getElem?_append_left (List.length_pos_iff.mpr hne), List.head?_eq_getElem?]

theorem head?_text_of_string
    {lexeme : Lexeme} {literal : Option Literal}
    (hmeaning : lexeme.meaning = .token .string literal) :
    lexeme.text.head? = some '"' := by
  cases lexeme with
  | string body => rfl
  | word letters =>
      have hkind := (Meaning.token.inj hmeaning).1
      unfold Kind.ofWord at hkind
      split at hkind <;> cases hkind
  | _ => cases hmeaning

theorem head?_text_of_unterminated
    {lexeme : Lexeme} {template : Template} {arguments : List String}
    (hmeaning : lexeme.meaning = .error template arguments)
    (hcode : template.code = 1002) :
    lexeme.text.head? = some '"' := by
  cases lexeme with
  | unterminated body => rfl
  | unexpected c =>
      cases hmeaning
      cases hcode
  | _ => cases hmeaning

theorem getElem?_start_of_string
    {source : List Char} {token : Token}
    (hfits : FitsWords source)
    (hmem : token ∈ tokensOf source)
    (hstring : token.kind = .string) :
    source[token.span.start.toNat]? = some '"' := by
  rcases mem_tokensOf_iff.mp hmem with ⟨placed, hplaced, htoken⟩ | rfl
  · obtain ⟨hmeaning, -, -, hspan⟩ := Placed.token?_eq_some_iff.mp htoken
    rw [hstring] at hmeaning
    rw [hspan, getElem?_start_of_mem_placedOf hfits hplaced]
    exact head?_text_of_string hmeaning
  · cases hstring

theorem getElem?_start_of_unterminated
    {source : List Char} {diagnostic : Diagnostic}
    (hfits : FitsWords source)
    (hmem : diagnostic ∈ diagnosticsOf source)
    (hcode : diagnostic.code = 1002) :
    ∀ span ∈ diagnostic.span, source[span.start.toNat]? = some '"' := by
  obtain ⟨placed, hplaced, hmakes⟩ := mem_diagnosticsOf_iff.mp hmem
  obtain ⟨template, arguments, hmeaning, rfl⟩ := Placed.diagnostic?_eq_some_iff.mp hmakes
  intro span hspan
  obtain rfl := Option.some.inj hspan
  rw [getElem?_start_of_mem_placedOf hfits hplaced]
  exact head?_text_of_unterminated hmeaning hcode

/-! ## Agreement -/

theorem tokensOf_pairwise_line_le
    {source : List Char}
    (hfits : FitsWords source) :
    (tokensOf source).Pairwise fun first second => first.line ≤ second.line := by
  apply List.Pairwise.imp_of_mem _ (tokensOf_pairwise_start_lt hfits)
  intro first second hfirst hsecond hlt
  exact (citesStart_of_mem_tokensOf hfits hfirst).line_le
    (citesStart_of_mem_tokensOf hfits hsecond) (UInt32.le_of_lt hlt)

theorem diagnosticsOf_pairwise_line_le
    {source : List Char}
    (hfits : FitsWords source) :
    (diagnosticsOf source).Pairwise fun first second => first.line ≤ second.line := by
  apply List.Pairwise.imp_of_mem _ (diagnosticsOf_pairwise_start_lt hfits)
  intro first second hfirst hsecond hlt
  obtain ⟨span, hspan, hcites⟩ := citesStart_of_mem_diagnosticsOf hfits hfirst
  obtain ⟨other, hother, hlater⟩ := citesStart_of_mem_diagnosticsOf hfits hsecond
  exact hcites.line_le hlater (UInt32.le_of_lt (hlt span hspan other hother))

/-- The lines of a scan are those of the index of its source. -/
theorem scan_linesAgree
    {source : String}
    (hlength : source.length ≤ 4294967294) :
    ∃ result, scan source = .ok result ∧
      LinesAgree source.toList result.tokens result.reports.toList := by
  have hfits := fitsWords_of_length_le hlength
  obtain ⟨result, hresult, htokens, hdiagnostics⟩ := exists_scan_eq_ok hfits
  refine ⟨result, hresult, ?_⟩
  rw [htokens, hdiagnostics]
  exact
    { tokenLines := fun token hmem => citesStart_of_mem_tokensOf hfits hmem
      diagnosticLines := fun diagnostic hmem => citesStart_of_mem_diagnosticsOf hfits hmem
      stringQuotes := fun token hmem => getElem?_start_of_string hfits hmem
      unterminatedQuotes := fun diagnostic hmem => getElem?_start_of_unterminated hfits hmem
      endOfInput := ⟨_, List.getLast?_concat, rfl, hfits.toNat_line⟩
      tokensNondecreasing := tokensOf_pairwise_line_le hfits
      diagnosticsNondecreasing := diagnosticsOf_pairwise_line_le hfits }

/-- A string and an open string, both over two lines. -/
theorem scan_linesAgree_of_open_string :
    "a\n\"b\nc\" \"d\n".length ≤ 4294967294 ∧
      ∃ result, scan "a\n\"b\nc\" \"d\n" = .ok result ∧
        LinesAgree "a\n\"b\nc\" \"d\n".toList result.tokens result.reports.toList :=
  ⟨by decide, scan_linesAgree (by decide)⟩

end LoxLexer
