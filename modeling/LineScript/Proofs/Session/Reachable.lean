import LineScript.Proofs.Location
import LineScript.Proofs.Session.Aborted
import LineScript.Proofs.Session.Replay
import LineScript.Proofs.Session.Written

/-!
# What holds in every session

A session that starts without variables and reads its input line by line keeps its namespace in
order, whatever sources it is given and however they end. The namespace is *sound*: its numbers have
64 bits, its texts have no line feeds, and its names are names, each of them there once. Nothing
checks this when a variable is set; it holds because every statement of a source sets a name to a
value of that kind (`Session.Sound.execute`). A value without a line feed is written as one line.
Main statement: `sound_of_reachable`, the namespace is sound in every session that comes up, and
each `Output` that goes well adds one line to what was written, and nothing else does.
-/

set_option autoImplicit false

namespace LineScript

open Scan Parse Text

/-! ## Names and words of a line -/

section Names

variable {column : Nat} {cs : List Char} {piece : Piece} {pieces : List Piece}

/-- A piece that is an identifier is a name. -/
def Scan.Piece.Named (piece : Piece) : Prop := piece.kind = .identifier → IsName piece.text

theorem Scan.named_wordPiece {word : List Char} (h : piece ∈ wordPiece column word) :
    piece.Named := by
  intro hkind
  simp only [wordPiece] at h
  split at h
  · cases h
  · rw [List.mem_singleton.1 h] at hkind
    cases hkind

theorem Scan.named_namePiece {name : List Char} (hname : ∀ c ∈ name, isNameChar c = true)
    (h : piece ∈ namePiece column name) : piece.Named := by
  intro _
  simp only [namePiece] at h
  split at h
  · cases h
  · next hne =>
    rw [List.mem_singleton.1 h]
    exact ⟨by simpa using hne, hname⟩

theorem Scan.TextCut.named (h : TextCut column cs pieces) : ∀ piece ∈ pieces, piece.Named := by
  induction h with
  | word column hword => exact fun _ hpiece => named_wordPiece hpiece
  | @dollar column word rest more hword _ ih =>
    have hvalue : Piece.Named ⟨.value, word ++ ['$'], column⟩ := by
      intro hkind
      cases hkind
    exact List.forall_mem_cons.2 ⟨hvalue, ih⟩
  | reference hword hname hrest _ ih =>
    exact List.forall_mem_append.2
      ⟨fun _ hpiece => named_wordPiece hpiece, List.forall_mem_cons.2 ⟨fun _ => hname, ih⟩⟩
  | blank hword hc _ ih =>
    exact List.forall_mem_append.2 ⟨fun _ hpiece => named_wordPiece hpiece, ih⟩

theorem Scan.OperandCut.named (h : OperandCut column cs piece) : piece.Named := by
  cases h with
  | digits hne hdigits =>
    intro hkind
    cases hkind
  | reference hname => exact fun _ => hname

theorem Scan.NumberCut.named (h : NumberCut column cs pieces) : ∀ piece ∈ pieces, piece.Named := by
  induction h with
  | last hlead hpiece htrail => exact List.forall_mem_singleton.2 hpiece.named
  | @link column lead text gap rest operand more op hlead hpiece hgap _ ih =>
    have hsign : ∀ column, Piece.Named ⟨.operator op, [op.char], column⟩ := by
      intro column hkind
      cases hkind
    exact List.forall_mem_cons.2 ⟨hpiece.named, List.forall_mem_cons.2 ⟨hsign _, ih⟩⟩

/-- The identifiers of a line are names. -/
theorem Scan.LineCut.named (h : LineCut cs pieces) : ∀ piece ∈ pieces, piece.Named := by
  cases h with
  | empty hcs => exact List.forall_mem_nil _
  | @statement keyword lead gap name space tail more _ _ hname _ _ _ htail =>
    have hword : Piece.Named ⟨.keyword keyword, keyword.word.toList, lead.length⟩ := by
      intro hkind
      cases hkind
    have hequal : ∀ column, Piece.Named ⟨.equal, ['='], column⟩ := by
      intro column hkind
      cases hkind
    refine List.forall_mem_append.2
      ⟨List.forall_mem_cons.2 ⟨hword, fun _ hpiece => named_namePiece hname hpiece⟩, ?_⟩
    cases htail with
    | nothing keyword => exact List.forall_mem_nil _
    | text hvalue => exact List.forall_mem_cons.2 ⟨hequal _, hvalue.named⟩
    | number hvalue => exact List.forall_mem_cons.2 ⟨hequal _, hvalue.named⟩

end Names

/-! ## Statements of a source -/

/-- A text whose words have no line feeds. -/
inductive TextExpr.OneLine : TextExpr → Prop
  | literal (span : Span) {text : String} (hfree : '\n' ∉ text.toList) :
      OneLine (.literal span text)
  | reference (span : Span) (name : String) : OneLine (.reference span name)
  | concat (span : Span) {left right : TextExpr} (hleft : left.OneLine) (hright : right.OneLine) :
      OneLine (.concat span left right)

/-- A statement that sets a name, if it sets anything, and to a value without line feeds. -/
inductive Statement.Sound : Statement → Prop
  | text (span nameSpan : Span) {name : String} {value : TextExpr} (hname : IsName name.toList)
      (hvalue : value.OneLine) : Sound (.text span (.named nameSpan name) value)
  | number (span nameSpan : Span) {name : String} {value : NumberExpr}
      (hname : IsName name.toList) (hvalue : value.Proper) :
      Sound (.number span (.named nameSpan name) value)
  | input (span nameSpan : Span) {name : String} (hname : IsName name.toList) :
      Sound (.input span (.named nameSpan name))
  | output (span : Span) (target : Target) : Sound (.output span target)

theorem oneLine_of_textTree {tokens : List Token} {value : TextExpr} (h : TextTree tokens value)
    (hfree : ∀ token ∈ tokens, '\n' ∉ token.lexeme.toList) : value.OneLine := by
  have hleafLine : ∀ {token : Token} {leaf : TextExpr}, textLeaf? token = some leaf →
      '\n' ∉ token.lexeme.toList → leaf.OneLine := by
    intro token leaf hleaf hlexeme
    rcases textLeaf?_eq_some_iff.1 hleaf with ⟨-, rfl⟩ | ⟨-, rfl⟩
    · exact .literal _ hlexeme
    · exact .reference _ _
  induction h with
  | leaf hleaf => exact hleafLine hleaf (hfree _ List.mem_cons_self)
  | concat hleaf _ ih =>
    obtain ⟨hfirst, hrest⟩ := List.forall_mem_cons.1 hfree
    exact .concat _ (hleafLine hleaf hfirst) (ih hrest)

theorem sound_of_lineTree {tokens : List Token} {parsed : Statement} (h : LineTree tokens parsed)
    (hnames : ∀ token ∈ tokens, token.kind = .identifier → IsName token.lexeme.toList)
    (hfree : ∀ token ∈ tokens, '\n' ∉ token.lexeme.toList) : parsed.Sound := by
  have hsecond : ∀ {first name : Token} {rest : List Token}, tokens = first :: name :: rest →
      name.kind = .identifier → IsName name.lexeme.toList := by
    rintro first name rest rfl hkind
    exact hnames name (List.mem_cons_of_mem _ List.mem_cons_self) hkind
  cases h with
  | emptyText hfirst hname => exact .text _ _ (hsecond rfl hname) (.literal _ List.not_mem_nil)
  | text hfirst hname hequal hvalue =>
    refine .text _ _ (hsecond rfl hname) (oneLine_of_textTree hvalue ?_)
    intro token htoken
    exact hfree token (by simp [htoken])
  | zeroNumber hfirst hname => exact .number _ _ (hsecond rfl hname) (.literal (by decide))
  | number hfirst hname hequal hleaf hchain =>
    exact .number _ _ (hsecond rfl hname)
      (proper_of_chainTree hchain (proper_of_numberLeaf hleaf))
  | input hfirst hname => exact .input _ _ (hsecond rfl hname)
  | output hfirst hname => exact .output _ _

/-- The statements of a source are sound. -/
theorem sound_of_ofSource {source : String} {statements : List Statement}
    (h : Statement.ofSource source = .ok statements) :
    ∀ statement ∈ statements, statement.Sound := by
  intro statement hstatement
  obtain ⟨tokens, htree⟩ := ofSource_eq_ok_iff.1 h
  obtain ⟨line, hline, pieces, hcut, hparsed, -⟩ := htree.exists_lineTree hstatement
  have hfree := newline_not_mem_of_mem_placeLines hline
  apply sound_of_lineTree hparsed
  · intro token htoken hkind
    obtain ⟨piece, hpiece, rfl⟩ := List.mem_map.1 htoken
    rw [Piece.place, String.toList_ofList]
    exact hcut.named piece hpiece hkind
  · intro token htoken
    exact newline_not_mem_of_mem_tokens hfree hcut htoken

/-! ## Namespaces -/

/-- A number of 64 bits, or a text without line feeds. -/
def Value.Sound : Value → Prop
  | .number n => Integer.InRange n
  | .text s => '\n' ∉ s.toList

theorem Value.Sound.newline_not_mem_render {value : Value} (h : value.Sound) :
    '\n' ∉ value.render.toList := by
  cases value with
  | number n => exact Integer.newline_not_mem_render n
  | text text => exact h

namespace Namespace

/-- A namespace in order: its numbers have 64 bits, its texts have no line feeds, and its names are
names, each of them there once. -/
structure Sound (space : Namespace) : Prop where
  values : ∀ entry ∈ space.entries, entry.2.Sound
  isName : ∀ name ∈ space.names, IsName name.toList
  nodup : space.names.Nodup

theorem mem_entries_of_get? {space : Namespace} {name : String} {value : Value}
    (h : space.get? name = some value) : (name, value) ∈ space.entries := by
  obtain ⟨entries⟩ := space
  simp only [get?] at h
  induction entries with
  | nil => cases h
  | cons entry entries ih =>
    obtain ⟨other, old⟩ := entry
    by_cases hother : other = name
    · rw [valueAmong?, if_pos hother] at h
      cases h
      rw [hother]
      exact List.mem_cons_self
    · rw [valueAmong?, if_neg hother] at h
      exact List.mem_cons_of_mem _ (ih h)

theorem mem_entries_set {space : Namespace} {name : String} {value : Value}
    {entry : String × Value} (h : entry ∈ (space.set name value).entries) :
    entry = (name, value) ∨ entry ∈ space.entries := by
  obtain ⟨entries⟩ := space
  simp only [set] at h
  induction entries with
  | nil => exact Or.inl (List.mem_singleton.1 h)
  | cons first entries ih =>
    obtain ⟨other, old⟩ := first
    by_cases hother : other = name
    · rw [setEntry, if_pos hother, hother] at h
      exact (List.mem_cons.1 h).imp id (List.mem_cons_of_mem _)
    · rw [setEntry, if_neg hother] at h
      rcases List.mem_cons.1 h with rfl | h
      · exact Or.inr List.mem_cons_self
      · exact (ih h).imp id (List.mem_cons_of_mem _)

theorem Sound.get? {space : Namespace} (h : space.Sound) {name : String} {value : Value}
    (hget : space.get? name = some value) : value.Sound :=
  h.values _ (mem_entries_of_get? hget)

theorem Sound.lookup {space : Namespace} (h : space.Sound) {name : String} {span : Span}
    {value : Value} (hlookup : space.lookup name span = .ok value) : value.Sound := by
  simp only [Namespace.lookup] at hlookup
  split at hlookup
  · next found hget =>
    cases hlookup
    exact h.get? hget
  · cases hlookup

theorem Sound.inRange {space : Namespace} (h : space.Sound) : space.InRange := by
  rintro ⟨name, value⟩ hentry
  cases value with
  | number n => exact h.values _ hentry
  | text text => trivial

/-- A sound namespace stays sound when a name is set to a sound value. -/
theorem Sound.set {space : Namespace} (h : space.Sound) {name : String} {value : Value}
    (hname : IsName name.toList) (hvalue : value.Sound) : (space.set name value).Sound := by
  refine ⟨?_, ?_, ?_⟩
  · intro entry hentry
    rcases mem_entries_set hentry with rfl | hentry
    · exact hvalue
    · exact h.values entry hentry
  · intro other hother
    obtain ⟨entry, hentry, rfl⟩ := List.mem_map.1 hother
    rcases mem_entries_set hentry with rfl | hentry
    · exact hname
    · exact h.isName _ (List.mem_map_of_mem hentry)
  · rw [names_set]
    split
    · exact h.nodup
    · next hnew => exact List.concat_eq_append ▸ h.nodup.concat hnew

end Namespace

/-- In a sound namespace the value of a text whose words have no line feeds has none. -/
theorem TextExpr.OneLine.newline_not_mem_eval {space : Namespace} (hspace : space.Sound)
    {room : Nat} {expr : TextExpr} (h : expr.OneLine) {text : String}
    (heval : expr.eval space room = .ok text) : '\n' ∉ text.toList := by
  induction h generalizing room text with
  | literal span hfree =>
    obtain ⟨room, rfl⟩ := exists_room heval
    cases heval
    exact hfree
  | reference span name =>
    obtain ⟨room, rfl⟩ := exists_room heval
    obtain ⟨value, hlookup, hrender⟩ := bind_eq_ok_iff.1 heval
    cases hrender
    exact (hspace.lookup hlookup).newline_not_mem_render
  | concat span _ _ ihleft ihright =>
    obtain ⟨room, rfl⟩ := exists_room heval
    simp only [TextExpr.eval, bind_eq_ok_iff] at heval
    obtain ⟨left, hleft, right, hright, hjoin⟩ := heval
    have hl := ihleft hleft
    have hr := ihright hright
    split at hjoin
    · cases hjoin
      simp [hl, hr]
    · cases hjoin
      simp [hl, hr]

/-! ## Inputs that bring lines -/

/-- What is left of a line is without line feeds when its end is dropped. -/
theorem Text.newline_not_mem_dropLineEnd {line : List Char} (h : '\n' ∉ line.dropLast) :
    '\n' ∉ dropLineEnd line := by
  rcases List.eq_nil_or_concat line with rfl | ⟨front, last, rfl⟩
  · exact List.not_mem_nil
  · rw [List.concat_eq_append, List.dropLast_concat] at h
    simp only [List.concat_eq_append, dropLineEnd, List.getLast?_concat, List.dropLast_concat]
    split
    · split
      · exact fun hmem => h (List.mem_of_mem_dropLast hmem)
      · exact h
    · next hlast =>
      rw [List.mem_append, List.mem_singleton, not_or]
      exact ⟨h, fun hnewline => hlast (congrArg some hnewline.symm)⟩

/-- An input each read of which brings at most one line. -/
def Input.ByLines (input : Input) : Prop :=
  ∀ text, .line text ∈ input.events → '\n' ∉ dropLineEnd text.toList

theorem Input.byLines_ofText (text : List Char) : (Input.ofText text).ByLines := by
  intro line hline
  obtain ⟨cs, hcs, hevent⟩ := List.mem_map.1 hline
  cases hevent
  rw [String.toList_ofList]
  exact newline_not_mem_dropLineEnd (newline_not_mem_dropLast hcs)

theorem Input.ByLines.read {input : Input} (h : input.ByLines) : input.read.2.ByLines := by
  obtain ⟨events, failing⟩ := input
  cases events with
  | nil => cases failing <;> exact h
  | cons event events =>
    have hrest : Input.ByLines ⟨events, failing⟩ := fun text htext =>
      h text (List.mem_cons_of_mem _ htext)
    cases event <;> exact hrest

theorem Input.ByLines.newline_not_mem {input : Input} (h : input.ByLines) {text : String}
    (hread : input.read.1 = .ok text) : '\n' ∉ dropLineEnd text.toList := by
  obtain ⟨events, failing⟩ := input
  cases events with
  | nil =>
    cases failing with
    | none =>
      cases hread
      exact List.not_mem_nil
    | some failure => cases hread
  | cons event events =>
    cases event with
    | line line =>
      cases hread
      exact h _ List.mem_cons_self
    | failure failure => cases hread

/-! ## Statements -/

namespace Session

/-- A session in order: its namespace is sound and its input brings lines. -/
structure Sound (session : Session) : Prop where
  space : session.space.Sound
  input : session.input.ByLines

theorem Sound.assign {session : Session} (h : session.Sound) (span : Span) {name : String}
    (hname : IsName name.toList) {value : Except Failure Value}
    (hvalue : ∀ result, value = .ok result → result.Sound) :
    (session.assign (.named span name) value).1.Sound := by
  cases value with
  | error failure => exact h
  | ok result => exact ⟨h.space.set hname (hvalue result rfl), h.input⟩

/-- What a read brings for a variable is a text of one line. -/
theorem Sound.received {session : Session} (h : session.Sound) (target : Target) {value : Value}
    (hvalue : Session.received target session.input.read.1 = .ok value) : value.Sound := by
  cases hread : session.input.read.1 with
  | error failure =>
    rw [hread] at hvalue
    cases hvalue
  | ok line =>
    rw [hread] at hvalue
    simp only [Session.received] at hvalue
    split at hvalue
    · cases hvalue
    · cases hvalue
      simp only [Value.Sound, String.toList_ofList]
      exact h.input.newline_not_mem hread

/-- A sound statement keeps a session sound, whether it goes well or not. -/
theorem Sound.execute {session : Session} (h : session.Sound) {statement : Statement}
    (hstatement : statement.Sound) : (session.execute statement).1.Sound := by
  cases hstatement with
  | text span nameSpan hname hvalue =>
    apply h.assign nameSpan hname
    intro result hresult
    obtain ⟨text, heval, rfl⟩ := map_eq_ok_iff.1 hresult
    exact hvalue.newline_not_mem_eval h.space heval
  | number span nameSpan hname hvalue =>
    apply h.assign nameSpan hname
    intro result hresult
    obtain ⟨n, heval, rfl⟩ := map_eq_ok_iff.1 hresult
    exact hvalue.inRange_eval h.space.inRange heval
  | input span nameSpan hname =>
    have hread : Session.Sound { session with input := session.input.read.2 } :=
      ⟨h.space, h.input.read⟩
    exact hread.assign nameSpan hname fun result hresult => h.received _ hresult
  | output span target =>
    simp only [Session.execute]
    split
    · exact ⟨h.space, h.input⟩
    · exact h

end Session

/-! ## Lines that are written -/

/-- The second text is the first with some lines added, each of them ended by a line feed. -/
def AddsLines (count : Nat) (before after : String) : Prop :=
  ∃ lines : List String, lines.length = count ∧ (∀ line ∈ lines, '\n' ∉ line.toList) ∧
    after = before ++ String.join (lines.map (· ++ "\n"))

theorem addsLines_zero (text : String) : AddsLines 0 text text :=
  ⟨[], rfl, List.forall_mem_nil _, String.append_empty.symm⟩

theorem addsLines_one {line : String} (hfree : '\n' ∉ line.toList) (text : String) :
    AddsLines 1 text (text ++ (line ++ "\n")) := by
  refine ⟨[line], rfl, List.forall_mem_singleton.2 hfree, ?_⟩
  simp [String.join_cons]

theorem AddsLines.trans {first second : Nat} {before middle after : String}
    (h : AddsLines first before middle) (hmore : AddsLines second middle after) :
    AddsLines (first + second) before after := by
  obtain ⟨lines, rfl, hfree, rfl⟩ := h
  obtain ⟨more, rfl, hfreeMore, rfl⟩ := hmore
  refine ⟨lines ++ more, List.length_append, List.forall_mem_append.2 ⟨hfree, hfreeMore⟩, ?_⟩
  rw [List.map_append, String.join_append, String.append_assoc]

/-- Whether a statement writes a variable. -/
def Statement.writes : Statement → Bool
  | output _ _ => true
  | _ => false

namespace Session

theorem output_assign (session : Session) (target : Target) (value : Except Failure Value) :
    (session.assign target value).1.output = session.output := by
  simp only [assign]
  split
  · rfl
  · split <;> rfl

/-- An `Output` that goes well adds one line, and other statements add none. -/
theorem Sound.addsLines_execute {session after : Session} (h : session.Sound)
    {statement : Statement} (hexecute : session.execute statement = (after, none)) :
    AddsLines statement.writes.toNat session.output.written after.output.written := by
  have hassigned : ∀ (middle : Session) {target : Target} {value : Except Failure Value},
      middle.output = session.output → middle.assign target value = (after, none) →
        AddsLines 0 session.output.written after.output.written := by
    intro middle target value hmiddle hassign
    have houtput := middle.output_assign target value
    rw [hassign, hmiddle] at houtput
    rw [houtput]
    exact addsLines_zero _
  cases statement with
  | text span target value => exact hassigned session rfl hexecute
  | number span target value => exact hassigned session rfl hexecute
  | input span target =>
    exact hassigned { session with input := session.input.read.2 } rfl hexecute
  | output span target =>
    simp only [Session.execute] at hexecute
    split at hexecute
    · next value hvalue =>
      obtain ⟨name, -, hlookup⟩ := bind_eq_ok_iff.1 hvalue
      simp only [writeLine, Prod.mk.injEq, Option.map_eq_none_iff] at hexecute
      obtain ⟨rfl, haccepted⟩ := hexecute
      have hwritten := Output.written_of_write (Prod.ext rfl haccepted)
      rw [hwritten]
      exact addsLines_one (h.space.lookup hlookup).newline_not_mem_render _
    · cases hexecute
  | misplaced span kind => cases hexecute

/-! ## Runs -/

/-- Sound statements keep a session sound, and add one line for each `Output` that goes well. -/
theorem Sound.run {session : Session} (h : session.Sound) {statements : List Statement}
    (hstatements : ∀ statement ∈ statements, statement.Sound) :
    (session.run statements).1.Sound ∧
      AddsLines ((session.completed statements).countP Statement.writes) session.output.written
        (session.run statements).1.output.written := by
  induction statements generalizing session with
  | nil => exact ⟨h, addsLines_zero _⟩
  | cons statement rest ih =>
    obtain ⟨hfirst, hrest⟩ := List.forall_mem_cons.1 hstatements
    have hstep := h.execute hfirst
    simp only [Session.run, completed]
    cases hexecute : session.execute statement with
    | mk after failure =>
      rw [hexecute] at hstep
      cases failure with
      | none =>
        obtain ⟨hsound, hlines⟩ := ih hstep hrest
        refine ⟨hsound, ?_⟩
        have hadded := (h.addsLines_execute hexecute).trans hlines
        rw [List.countP_cons, Nat.add_comm]
        generalize statement.writes = writes at hadded ⊢
        cases writes <;> exact hadded
      | some failure =>
        refine ⟨hstep, ?_⟩
        rw [(execute_failed hexecute).2]
        exact addsLines_zero _

/-- The sessions that come up when sources are given one after the other to a session that starts
without variables and reads a text line by line. -/
inductive Reachable (text : List Char) (output : Output) : Session → Prop
  | fresh (room : Nat) : Reachable text output (.fresh (.ofText text) output room)
  | interpret {session : Session} (hsession : Reachable text output session) (source : String) :
      Reachable text output (session.interpret source).1

theorem Reachable.sound {text : List Char} {output : Output} {session : Session}
    (h : session.Reachable text output) : session.Sound := by
  induction h with
  | fresh room =>
    refine ⟨⟨List.forall_mem_nil _, List.forall_mem_nil _, List.nodup_nil⟩, ?_⟩
    exact Input.byLines_ofText text
  | @interpret session _ source ih =>
    simp only [Session.interpret]
    split
    · next statements hsource => exact (ih.run (sound_of_ofSource hsource)).1
    · exact ih

end Session

/-- In every session that comes up the namespace is sound: its numbers have 64 bits, its texts have
no line feeds, and its names are names, each of them there once. A program adds one line for each
`Output` that goes well, and adds it when that statement is executed. -/
theorem sound_of_reachable {text : List Char} {output : Output} {session : Session}
    (h : session.Reachable text output) :
    session.space.Sound ∧
      ∀ source statements, Statement.ofSource source = .ok statements →
        AddsLines ((session.completed statements).countP Statement.writes) session.output.written
            (session.interpret source).1.output.written ∧
          ∀ before span target rest, statements = before ++ .output span target :: rest →
            ∀ middle, session.run before = (middle, none) →
              middle.space.Sound ∧
                ∀ after, middle.execute (.output span target) = (after, none) →
                  AddsLines 1 middle.output.written after.output.written := by
  refine ⟨h.sound.space, ?_⟩
  intro source statements hsource
  have hstatements := sound_of_ofSource hsource
  refine ⟨?_, ?_⟩
  · rw [interpret_of_ok session hsource]
    exact (h.sound.run hstatements).2
  · rintro before span target rest rfl middle hbefore
    have hmiddle := (h.sound.run (List.forall_mem_append.1 hstatements).1).1
    rw [hbefore] at hmiddle
    exact ⟨hmiddle.space, fun after hexecute => hmiddle.addsLines_execute hexecute⟩

/-- A source that fails after it has set and written something, in a session that reads a line with
a carriage return at its end. -/
theorem sound_of_reachable_sum :
    ∃ session, Session.Reachable ['7', '\r', '\n', 'x'] (.fresh .unlimited) session ∧
      session.space = ⟨[("a", .text "7"), ("b", .number 8)]⟩ ∧ session.space.Sound ∧
      AddsLines 1 "" session.output.written := by
  have hsource : Statement.ofSource "Input a\nZahl b = $a$ + 1\nOutput b\nOutput c" = .ok
      [.input ⟨1, 0, 7⟩ (.named ⟨1, 6, 7⟩ "a"),
       .number ⟨2, 8, 24⟩ (.named ⟨2, 13, 14⟩ "b")
         (.binary ⟨2, 18, 24⟩ "+" (.reference ⟨2, 18, 19⟩ "a") (.literal ⟨2, 23, 24⟩ 1)),
       .output ⟨3, 25, 33⟩ (.named ⟨3, 32, 33⟩ "b"),
       .output ⟨4, 34, 42⟩ (.named ⟨4, 41, 42⟩ "c")] := by cbv
  have hfresh : Session.Reachable ['7', '\r', '\n', 'x'] (.fresh .unlimited) _ := .fresh 990
  have hafter := hfresh.interpret "Input a\nZahl b = $a$ + 1\nOutput b\nOutput c"
  refine ⟨_, hafter, ?_, (sound_of_reachable hafter).1, ?_⟩
  · rw [interpret_of_ok _ hsource]
    cbv
  · convert ((sound_of_reachable hfresh).2 _ _ hsource).1 using 1
    · cbv
    · rfl

end LineScript
