import LineScript.Proofs.Session.Blame

/-!
# True locations

The scanner, the parser and the interpreter each say where a program is wrong, in characters from
the start of the source, and a report looks the line up again by cutting the source at its line
feeds. `Stands` says that a span covers a text on one of the placed lines of a source, and every
token and every fault stands in this way (`stands_of_scan`, `exists_stands_of_scan_error`). Main
statement: `wellPlaced_of_interpret`, every diagnostic of a program has a true location in its
source.
-/

set_option autoImplicit false

namespace LineScript

open Parse Scan Text

/-! ## Spans on placed lines -/

/-- A span that covers a text on one of some lines: columns of the line, or the line feed between
the line and the next one. -/
inductive Stands (lines : List PlacedLine) : Span → List Char → Prop
  | inner {line : PlacedLine} {before text after : List Char} (hline : line ∈ lines)
      (htext : line.text = before ++ (text ++ after)) :
      Stands lines (place line.number line.offset before.length text.length) text
  | feed {line next : PlacedLine} (hline : line ∈ lines) (hnext : next ∈ lines)
      (hoffset : next.offset = line.offset + line.text.length + 1) :
      Stands lines (place line.number line.offset line.text.length 1) ['\n']

theorem Stands.mono {lines more : List PlacedLine} {span : Span} {text : List Char}
    (h : Stands lines span text) (hsubset : lines ⊆ more) : Stands more span text := by
  cases h with
  | inner hline htext => exact .inner (hsubset hline) htext
  | feed hline hnext hoffset => exact .feed (hsubset hline) (hsubset hnext) hoffset

/-- A text that stands on lines is a line feed, or it has none. -/
theorem Stands.eq_newline {lines : List PlacedLine} {span : Span} {text : List Char}
    (h : Stands lines span text) (hfree : ∀ line ∈ lines, '\n' ∉ line.text)
    (hnewline : '\n' ∈ text) : text = ['\n'] := by
  cases h with
  | @inner line before _ after hline htext =>
    refine absurd ?_ (hfree line hline)
    rw [htext]
    exact List.mem_append_right _ (List.mem_append_left _ hnewline)
  | feed hline hnext hoffset => rfl

/-- What stands on the lines of a text is a stretch of the text, and its span counts the characters
and the line feeds before it. -/
theorem Stands.exists_around {cs : List Char} {span : Span} {text : List Char}
    (h : Stands (placeLines 1 0 (lines cs)) span text) :
    ∃ before after : List Char, cs = before ++ (text ++ after) ∧
      span = ⟨1 + before.count '\n', before.length, before.length + text.length⟩ := by
  cases h with
  | @inner line front _ back hline htext =>
    obtain ⟨before, after, haround, hoffset, hnumber⟩ := mem_placeLines hline
    have hfront : front.count '\n' = 0 := by
      refine List.count_eq_zero.2 fun hmem => haround.free ?_
      rw [htext]
      exact List.mem_append_left _ hmem
    refine ⟨before ++ front, back ++ after, by rw [haround.eq, htext]; simp, ?_⟩
    simp only [place, hoffset, hnumber, List.count_append, hfront, List.length_append,
      Span.mk.injEq]
    omega
  | @feed line next hline hnext hoffset =>
    obtain ⟨before, after, haround, hstart, hnumber⟩ := mem_placeLines hline
    obtain ⟨upTo, rest, hother, hupTo, -⟩ := mem_placeLines hnext
    have hlength : before.length + line.text.length < cs.length := by
      rw [hother.eq, List.length_append]
      omega
    have hafter : after ≠ [] := by
      rintro rfl
      rw [haround.eq] at hlength
      simp at hlength
    obtain ⟨rest, rfl⟩ : ∃ rest, after = '\n' :: rest := by
      rcases haround.stop with hnil | hhead
      · exact absurd hnil hafter
      · exact ⟨after.tail, (List.cons_head?_tail hhead).symm⟩
    refine ⟨before ++ line.text, rest, by rw [haround.eq]; simp, ?_⟩
    have hcount : line.text.count '\n' = 0 := List.count_eq_zero.2 haround.free
    simp only [place, hstart, hnumber, List.count_append, hcount, List.length_append,
      List.length_singleton, Span.mk.injEq]
    omega

/-! ## The excerpt of a span -/

/-- Columns inside of a line, or just past its end, are shown as they are. -/
theorem columns_place {offset length column width : Nat} (hcolumn : column ≤ length)
    (hstop : column + width ≤ length + 1) :
    Excerpt.columns offset length (offset + column : Nat) (offset + column + width : Nat) =
      (column, column + width) := by
  simp only [Excerpt.columns, Prod.mk.injEq]
  omega

theorem locate_place {source : String} {line : PlacedLine}
    (hline : line ∈ placeLines 1 0 (lines source.toList)) {column width : Nat}
    (hcolumn : column ≤ line.text.length) (hstop : column + width ≤ line.text.length + 1) :
    Excerpt.locate source (place line.number line.offset column width) =
      some ⟨line.text, column, column + width⟩ := by
  -- The two ways to count lines meet here: by walking over them, and by cutting the source.
  obtain ⟨index, htext, hnumber, hoffset⟩ := getElem?_of_mem_placeLines hline
  have hone : (1 : Int) ≤ line.number := by omega
  have hindex : ((line.number : Int) - 1).toNat = index := by omega
  have hstart : line.offset = Excerpt.offsetAfter ((lines source.toList).take index) := by omega
  simp only [Excerpt.locate, place, if_pos hone, hindex, htext, ← hstart,
    columns_place hcolumn hstop]

/-- A report finds the line that a text stands on, and the columns that it takes up there. -/
theorem Stands.exists_locate {source : String} {span : Span} {text : List Char}
    (h : Stands (placeLines 1 0 (lines source.toList)) span text) :
    ∃ (before line after : List Char) (first last : Nat),
      IsLine source.toList before line after ∧ span.line = 1 + before.count '\n' ∧
      Excerpt.locate source span = some ⟨line, first, last⟩ ∧
      (first : Int) = span.start - before.length ∧ (last : Int) = span.stop - before.length := by
  cases h with
  | @inner line front _ back hline htext =>
    obtain ⟨before, after, haround, hoffset, hnumber⟩ := mem_placeLines hline
    have hlength : line.text.length = front.length + (text.length + back.length) := by
      rw [htext, List.length_append, List.length_append]
    refine ⟨before, line.text, after, _, _, haround, ?_,
      locate_place hline (by omega) (by omega), ?_, ?_⟩ <;> simp only [place] <;> omega
  | @feed line next hline hnext hoffset =>
    obtain ⟨before, after, haround, hstart, hnumber⟩ := mem_placeLines hline
    refine ⟨before, line.text, after, _, _, haround, ?_,
      locate_place hline (by omega) (by omega), ?_, ?_⟩ <;> simp only [place] <;> omega

/-! ## Tokens and faults of the scanner -/

/-- A token of a line stands on it. -/
theorem stands_of_mem_tokens {lines : List PlacedLine} {line : PlacedLine} (hline : line ∈ lines)
    {pieces : List Piece} (hcut : LineCut line.text pieces) {token : Token}
    (htoken : token ∈ line.tokens pieces) : Stands lines token.span token.lexeme.toList := by
  obtain ⟨piece, hpiece, rfl⟩ := List.mem_map.1 htoken
  obtain ⟨before, after, htext, hcolumn⟩ := (hcut.on piece hpiece).stands
  simp only [Piece.place, String.toList_ofList, ← hcolumn]
  exact .inner hline htext

theorem stands_stop_true {lines : List PlacedLine} {line : PlacedLine} (hline : line ∈ lines) :
    Stands lines (line.stop true).span (line.stop true).lexeme.toList := by
  have htext : line.text = line.text ++ ([] ++ []) := by simp
  exact .inner hline htext

theorem stands_stop_false {lines : List PlacedLine} {line next : PlacedLine} (hline : line ∈ lines)
    (hnext : next ∈ lines) (hoffset : next.offset = line.offset + line.text.length + 1) :
    Stands lines (line.stop false).span (line.stop false).lexeme.toList := by
  have hlexeme : (line.stop false).lexeme.toList = ['\n'] := by
    simp [PlacedLine.stop]
  rw [hlexeme]
  exact .feed hline hnext hoffset

/-- Each token that consecutive lines are cut into stands on them with its text. -/
theorem stands_of_sourceCut {number offset : Nat} {ls : List (List Char)} {tokens : List Token}
    (h : SourceCut (placeLines number offset ls) tokens) {token : Token} (htoken : token ∈ tokens) :
    Stands (placeLines number offset ls) token.span token.lexeme.toList := by
  induction ls generalizing number offset tokens with
  | nil => exact absurd rfl h.ne_nil
  | cons l ls ih =>
    cases ls with
    | nil =>
      simp only [placeLines] at h ⊢
      cases h with
      | last hcut =>
        rcases List.mem_append.1 htoken with htoken | htoken
        · exact stands_of_mem_tokens List.mem_cons_self hcut htoken
        · rw [List.mem_singleton.1 htoken]
          exact stands_stop_true List.mem_cons_self
      | more hcut hmore => exact absurd rfl hmore.ne_nil
    | cons next ls =>
      rw [placeLines] at h ⊢
      cases h with
      | more hcut hmore =>
        rcases List.mem_append.1 htoken with htoken | htoken
        · exact stands_of_mem_tokens List.mem_cons_self hcut htoken
        · rcases List.mem_cons.1 htoken with rfl | htoken
          · have hnext : (⟨number + 1, offset + l.length + 1, next⟩ : PlacedLine) ∈
                placeLines (number + 1) (offset + l.length + 1) (next :: ls) := List.mem_cons_self
            exact stands_stop_false List.mem_cons_self (List.mem_cons_of_mem _ hnext) rfl
          · exact (ih hmore htoken).mono (List.subset_cons_self _ _)

/-- Each token of a source stands on its lines with its text. -/
theorem stands_of_scan {source : String} {tokens : List Token}
    (hscan : Token.scan source = .ok tokens) {token : Token} (htoken : token ∈ tokens) :
    Stands (placeLines 1 0 (lines source.toList)) token.span token.lexeme.toList :=
  stands_of_sourceCut (scan_eq_ok_iff.1 hscan) htoken

/-- A flaw covers a stretch of its line. -/
theorem stands_of_linePieces {last : Bool} {lines : List PlacedLine} {line : PlacedLine}
    (hline : line ∈ lines) {flaw : Flaw} (h : linePieces last line.text = .error flaw) :
    Stands lines (flaw.place line.number line.offset).span
      ((line.text.drop flaw.column).take flaw.width) := by
  have hwithin := within_of_linePieces h
  have htext : line.text = line.text.take flaw.column ++
      ((line.text.drop flaw.column).take flaw.width ++
        (line.text.drop flaw.column).drop flaw.width) := by
    rw [List.take_append_drop, List.take_append_drop]
  have hcolumn : (line.text.take flaw.column).length = flaw.column := by
    rw [List.length_take]
    omega
  have hwidth : ((line.text.drop flaw.column).take flaw.width).length = flaw.width := by
    rw [List.length_take, List.length_drop]
    omega
  have hstands := Stands.inner hline htext
  rwa [hcolumn, hwidth] at hstands

theorem exists_stands_of_lineTokens {last : Bool} {number offset : Nat} {cs : List Char}
    {lines : List PlacedLine} (hline : ⟨number, offset, cs⟩ ∈ lines) (hfree : '\n' ∉ cs)
    {fault : Located LexFault} (h : lineTokens last number offset cs = .error fault) :
    ∃ text, Stands lines fault.span text ∧ '\n' ∉ text := by
  simp only [lineTokens] at h
  split at h
  · next flaw hflaw =>
    cases h
    refine ⟨_, stands_of_linePieces hline hflaw, fun hmem => hfree ?_⟩
    exact List.mem_of_mem_drop (List.mem_of_mem_take hmem)
  · cases h

/-- A fault of consecutive lines covers a stretch of one of them. -/
theorem exists_stands_of_linesTokens {number offset : Nat} {ls : List (List Char)}
    (hfree : ∀ l ∈ ls, '\n' ∉ l) {fault : Located LexFault}
    (h : linesTokens number offset ls = .error fault) :
    ∃ text, Stands (placeLines number offset ls) fault.span text ∧ '\n' ∉ text := by
  induction ls generalizing number offset with
  | nil => cases h
  | cons l ls ih =>
    have hl := hfree l List.mem_cons_self
    have hfirst : (⟨number, offset, l⟩ : PlacedLine) ∈ placeLines number offset (l :: ls) :=
      List.mem_cons_self
    cases ls with
    | nil =>
      rcases bind_eq_error_iff.1 h with h | ⟨tokens, -, h⟩
      · exact exists_stands_of_lineTokens hfirst hl h
      · cases h
    | cons next ls =>
      rw [linesTokens] at h
      · rcases bind_eq_error_iff.1 h with h | ⟨tokens, -, h⟩
        · exact exists_stands_of_lineTokens hfirst hl h
        · rcases bind_eq_error_iff.1 h with h | ⟨others, -, h⟩
          · obtain ⟨text, hstands, htext⟩ :=
              ih (fun l hl => hfree l (List.mem_cons_of_mem _ hl)) h
            exact ⟨text, hstands.mono (List.subset_cons_self _ _), htext⟩
          · cases h
      · simp

/-- A fault of the scanner covers a stretch of a line of the source. -/
theorem exists_stands_of_scan_error {source : String} {fault : Located LexFault}
    (h : Token.scan source = .error fault) :
    ∃ text, Stands (placeLines 1 0 (lines source.toList)) fault.span text ∧ '\n' ∉ text :=
  exists_stands_of_linesTokens (fun _ hl => newline_not_mem_of_mem_lines hl) h

theorem newline_not_mem_of_mem_tokens {line : PlacedLine} (hfree : '\n' ∉ line.text)
    {pieces : List Piece} (hcut : LineCut line.text pieces) {token : Token}
    (htoken : token ∈ line.tokens pieces) : '\n' ∉ token.lexeme.toList := by
  intro hnewline
  obtain ⟨piece, hpiece, rfl⟩ := List.mem_map.1 htoken
  obtain ⟨before, after, htext, -⟩ := (hcut.on piece hpiece).stands
  rw [Piece.place, String.toList_ofList] at hnewline
  apply hfree
  rw [htext]
  exact List.mem_append_right _ (List.mem_append_left _ hnewline)

/-- Only a line feed has one in its text. -/
theorem SourceCut.kind_eq_newline {lines : List PlacedLine} {tokens : List Token}
    (h : SourceCut lines tokens) (hfree : ∀ line ∈ lines, '\n' ∉ line.text) {token : Token}
    (htoken : token ∈ tokens) (hnewline : '\n' ∈ token.lexeme.toList) : token.kind = .newline := by
  induction h with
  | last hcut =>
    rcases List.mem_append.1 htoken with htoken | htoken
    · have hnone := newline_not_mem_of_mem_tokens (hfree _ List.mem_cons_self) hcut htoken
      exact absurd hnewline hnone
    · rw [List.mem_singleton.1 htoken] at hnewline
      exact absurd hnewline List.not_mem_nil
  | more hcut _ ih =>
    rcases List.mem_append.1 htoken with htoken | htoken
    · have hnone := newline_not_mem_of_mem_tokens (hfree _ List.mem_cons_self) hcut htoken
      exact absurd hnewline hnone
    · rcases List.mem_cons.1 htoken with rfl | htoken
      · rfl
      · exact ih (fun line hline => hfree line (List.mem_cons_of_mem _ hline)) htoken

theorem SourceCut.tokens_ne_nil {lines : List PlacedLine} {tokens : List Token}
    (h : SourceCut lines tokens) : tokens ≠ [] := by
  cases h <;> simp

/-! ## Diagnostics -/

/-- The characters of a source that a span covers. -/
def Span.cut (source : String) (span : Span) : List Char :=
  (source.toList.take span.stop.toNat).drop span.start.toNat

theorem Stands.cut_eq {source : String} {span : Span} {text : List Char}
    (h : Stands (placeLines 1 0 (lines source.toList)) span text) : span.cut source = text := by
  obtain ⟨before, after, hsource, rfl⟩ := h.exists_around
  have hstop : ((before.length : Int) + text.length).toNat = (before ++ text).length := by
    rw [List.length_append]
    omega
  rw [Span.cut, hstop, Int.toNat_natCast, hsource, ← List.append_assoc, List.take_left,
    List.drop_left]

/-- A diagnostic with a true location: its span is a stretch of the source, on the line with its
number, and on no other unless it covers the line feed of a token; a report finds that line and the
columns of the span on it; and a variable that is not set is covered by the span. -/
structure Diagnostic.WellPlaced (source : String) (diagnostic : Diagnostic) : Prop where
  start_nonneg : 0 ≤ diagnostic.span.start
  start_le_stop : diagnostic.span.start ≤ diagnostic.span.stop
  stop_le_length : diagnostic.span.stop ≤ source.length
  line_eq :
    diagnostic.span.line = 1 + (source.toList.take diagnostic.span.start.toNat).count '\n'
  newline : '\n' ∈ diagnostic.span.cut source →
    diagnostic.span.cut source = ['\n'] ∧
      ∃ tokens, Token.scan source = .ok tokens ∧
        ∃ token ∈ tokens, token.kind = .newline ∧ token.span = diagnostic.span
  excerpt : ∃ (before line after : List Char) (first last : Nat),
    IsLine source.toList before line after ∧ diagnostic.span.line = 1 + before.count '\n' ∧
    Excerpt.locate source diagnostic.span = some ⟨line, first, last⟩ ∧
    (first : Int) = diagnostic.span.start - before.length ∧
    (last : Int) = diagnostic.span.stop - before.length
  unset : ∀ name, diagnostic.message = "variable `" ++ name ++ "` not set" →
    diagnostic.span.cut source = name.toList

/-- What is left to show about a diagnostic whose span covers a text on the lines of a source. -/
theorem wellPlaced_of_stands {source : String} {diagnostic : Diagnostic} {text : List Char}
    (h : Stands (placeLines 1 0 (lines source.toList)) diagnostic.span text)
    (hnewline : '\n' ∈ text → ∃ tokens, Token.scan source = .ok tokens ∧
      ∃ token ∈ tokens, token.kind = .newline ∧ token.span = diagnostic.span)
    (hunset : ∀ name, diagnostic.message = (ExecutionFault.unset name).message →
      text = name.toList) : diagnostic.WellPlaced source := by
  have hcut := h.cut_eq
  obtain ⟨before, after, hsource, hspan⟩ := h.exists_around
  have hlength : source.length = before.length + (text.length + after.length) := by
    rw [← String.length_toList, hsource, List.length_append, List.length_append]
  refine ⟨?_, ?_, ?_, ?_, ?_, h.exists_locate, ?_⟩
  · rw [hspan]
    exact Int.natCast_nonneg _
  · rw [hspan]
    simp only
    omega
  · rw [hspan]
    simp only
    omega
  · rw [hspan, Int.toNat_natCast, hsource, List.take_left]
  · intro hmem
    rw [hcut] at hmem ⊢
    exact ⟨h.eq_newline (fun line hline => newline_not_mem_of_mem_placeLines hline) hmem,
      hnewline hmem⟩
  · intro name hmessage
    rw [hcut]
    exact hunset name hmessage

/-- A failure that points at a token of the source has a true location. -/
theorem wellPlaced_of_pointsAt {source : String} {tokens : List Token}
    (hscan : Token.scan source = .ok tokens) {failure : Failure} {diagnostic : Diagnostic}
    (hdiagnostic : failure.diagnostic? = some diagnostic) (h : failure.PointsAt tokens) :
    diagnostic.WellPlaced source := by
  obtain ⟨token, htoken, hspan, hunset⟩ := h diagnostic hdiagnostic
  have hstands := stands_of_scan hscan htoken
  rw [← hspan] at hstands
  apply wellPlaced_of_stands hstands
  · intro hnewline
    have hkind := (scan_eq_ok_iff.1 hscan).kind_eq_newline
      (fun line hline => newline_not_mem_of_mem_placeLines hline) htoken hnewline
    exact ⟨tokens, hscan, token, htoken, hkind, hspan.symm⟩
  · intro name hmessage
    rw [hunset name hmessage]

theorem wellPlaced_of_lexical {source : String} {fault : Located LexFault}
    (hscan : Token.scan source = .error fault) {diagnostic : Diagnostic}
    (hdiagnostic : (Failure.lexical fault).diagnostic? = some diagnostic) :
    diagnostic.WellPlaced source := by
  cases hdiagnostic
  obtain ⟨text, hstands, hfree⟩ := exists_stands_of_scan_error hscan
  apply wellPlaced_of_stands hstands
  · intro hnewline
    exact absurd hnewline hfree
  · intro name hmessage
    exact absurd hmessage (fault.item.startsOther.ne_unset name)

theorem pointsAt_syntactic {tokens : List Token} (hne : tokens ≠ []) {fault : Located ParseFault}
    (h : Statement.parse tokens = .error (.fault fault)) :
    (Failure.syntactic fault).PointsAt tokens := by
  intro diagnostic hdiagnostic
  cases hdiagnostic
  obtain ⟨token, htoken, hspan⟩ := exists_token_of_parse hne h
  refine ⟨token, htoken, hspan, ?_⟩
  intro name hmessage
  exact absurd hmessage (fault.item.startsOther.ne_unset name)

/-- A diagnostic of a source has a true location there, unless a stream brings it up. -/
theorem wellPlaced_or_brings {session after : Session} {source : String} {failure : Failure}
    {diagnostic : Diagnostic} (hfails : session.interpret source = (after, some failure))
    (hdiagnostic : failure.diagnostic? = some diagnostic) :
    diagnostic.WellPlaced source ∨ session.Brings failure := by
  -- One case for each stage: the scanner blames a stretch of a line, and the parser and the run
  -- blame a token.
  simp only [Session.interpret, Statement.ofSource] at hfails
  cases hscan : Token.scan source with
  | error fault =>
    rw [hscan] at hfails
    cases hfails
    exact .inl (wellPlaced_of_lexical hscan hdiagnostic)
  | ok tokens =>
    rw [hscan] at hfails
    suffices hpoints : failure.PointsAt tokens ∨ session.Brings failure from
      hpoints.imp_left (wellPlaced_of_pointsAt hscan hdiagnostic)
    cases hparse : Statement.parse tokens with
    | error stopped =>
      simp only [hparse] at hfails
      cases hfails
      cases stopped with
      | fault fault =>
        exact .inl (pointsAt_syntactic (scan_eq_ok_iff.1 hscan).tokens_ne_nil hparse)
      | tooManyDigits count => cases hdiagnostic
    | ok statements =>
      simp only [hparse] at hfails
      exact pointsAt_run_of_sourceTree (sourceTree_iff.1 ⟨hscan, hparse⟩) hfails

/-- Every diagnostic of a program that is interpreted has a true location in its source, whatever
the variables and as long as the streams bring up no diagnostics of their own. -/
theorem wellPlaced_of_interpret {session after : Session} {source : String} {failure : Failure}
    {diagnostic : Diagnostic} (hquiet : session.Quiet)
    (hfails : session.interpret source = (after, some failure))
    (hdiagnostic : failure.diagnostic? = some diagnostic) : diagnostic.WellPlaced source := by
  refine (wellPlaced_or_brings hfails hdiagnostic).resolve_right fun hbrings => ?_
  rw [Session.quiet_iff.1 hquiet failure hbrings] at hdiagnostic
  cases hdiagnostic

/-- A variable on the second line that is not set. -/
theorem wellPlaced_of_interpret_unset :
    Diagnostic.WellPlaced "Zahl a = 1\nZahl x = 2 + $y$"
      ⟨.execution, "variable `y` not set", ⟨2, 25, 26⟩⟩ := by
  have hquiet : Session.Quiet (.fresh .empty (.fresh .unlimited) 990) := by
    refine ⟨⟨?_, ?_⟩, ?_⟩
    · intro failure hmem
      cases hmem
    · intro failure hfailing
      cases hfailing
    · intro plan hplan
      cases hplan
  have hfails : Session.interpret (.fresh .empty (.fresh .unlimited) 990)
      "Zahl a = 1\nZahl x = 2 + $y$" =
        (⟨⟨[("a", .number 1)]⟩, .empty, .fresh .unlimited, 990⟩,
          some (.blame (.unset "y") ⟨2, 25, 26⟩)) := by cbv
  exact wellPlaced_of_interpret hquiet hfails rfl

end LineScript
