import LineScript.Proofs.Session.Accumulator
import LineScript.Proofs.Session.Streams
import LineScript.Proofs.Session.TextJoin

/-!
# What a failing program points at

A statement that fails is blamed on a part of its tree, and the parts of a tree carry the spans of
the tokens they were made of, or spans that were put together from these. `Failure.PointsAt` says
that a failure is blamed on one token, and that a variable that is not set is blamed on its own
name. Main statement: `pointsAt_run_of_sourceTree`, a run of the statements of a program fails in
this way, or with what a stream brought up, which is no diagnostic if the streams are quiet
(`Session.Quiet`).
-/

set_option autoImplicit false

namespace LineScript

open Parse Scan Text

/-! ## The wording of a variable that is not set -/

theorem unset_message (name : String) :
    (ExecutionFault.unset name).message = "variable `" ++ name ++ "` not set" := rfl

theorem unset_message_injective {name other : String}
    (h : (ExecutionFault.unset name).message = (ExecutionFault.unset other).message) :
    name = other := by
  rw [unset_message, unset_message] at h
  have hlists := congrArg String.toList h
  simp only [String.toList_append] at hlists
  exact String.toList_injective (List.append_cancel_left (List.append_cancel_right hlists))

/-- A message that starts with another letter. -/
inductive StartsOther : String → Prop
  | literal {message : String} {c : Char} (hhead : message.toList.head? = some c) (hc : c ≠ 'v') :
      StartsOther message
  | append {front back : String} (hfront : StartsOther front) : StartsOther (front ++ back)

theorem StartsOther.exists_head? {message : String} (h : StartsOther message) :
    ∃ c, message.toList.head? = some c ∧ c ≠ 'v' := by
  induction h with
  | literal hhead hc => exact ⟨_, hhead, hc⟩
  | append _ ih =>
    obtain ⟨c, hhead, hc⟩ := ih
    exact ⟨c, by simp [hhead], hc⟩

theorem StartsOther.ne_unset {message : String} (h : StartsOther message) (name : String) :
    message ≠ (ExecutionFault.unset name).message := by
  rintro rfl
  obtain ⟨c, hhead, hc⟩ := h.exists_head?
  rw [unset_message, String.toList_append, String.toList_append, List.head?_append,
    List.head?_append] at hhead
  exact hc (Option.some.inj hhead).symm

theorem LexFault.startsOther (fault : LexFault) : StartsOther fault.message := by
  cases fault with
  | unknownStatement word => exact .append (.append (.literal rfl (by decide)))
  | missingEquals => exact .literal rfl (by decide)
  | extraWord word keyword => exact .append (.append (.append (.append (.literal rfl (by decide)))))
  | missingOperator word => exact .append (.append (.literal rfl (by decide)))
  | inputEnds => exact .literal rfl (by decide)
  | lineEnds => exact .literal rfl (by decide)
  | notANumber word => exact .append (.append (.literal rfl (by decide)))
  | emptyReference => exact .literal rfl (by decide)
  | namelessReference => exact .literal rfl (by decide)
  | unclosedReference name => exact .append (.append (.literal rfl (by decide)))
  | reopenedReference => exact .literal rfl (by decide)

theorem ParseFault.startsOther (fault : ParseFault) : StartsOther fault.message := by
  cases fault with
  | notAStatement found => exact .append (.literal rfl (by decide))
  | missingName keyword found => exact .append (.append (.append (.literal rfl (by decide))))
  | missingEquals found => exact .append (.literal rfl (by decide))
  | missingText found => exact .append (.literal rfl (by decide))
  | missingNumber found => exact .append (.literal rfl (by decide))
  | notAnInteger lexeme => exact .append (.append (.literal rfl (by decide)))
  | trailing found => exact .append (.literal rfl (by decide))
  | inputEnds => exact .literal rfl (by decide)

/-- No other fault of a statement has the wording of a variable that is not set. -/
theorem ExecutionFault.startsOther {fault : ExecutionFault} (h : ∀ name, fault ≠ .unset name) :
    StartsOther fault.message := by
  cases fault with
  | unset name => exact absurd rfl (h name)
  | notANumber name => exact .append (.append (.literal rfl (by decide)))
  | divisionByZero => exact .literal rfl (by decide)
  | notNumeric kind => exact .append (.append (.literal rfl (by decide)))
  | notTextual kind => exact .append (.append (.literal rfl (by decide)))
  | notExecutable kind => exact .append (.literal rfl (by decide))
  | unreadable name reason => exact .append (.append (.append (.literal rfl (by decide))))
  | inputEnds name => exact .append (.append (.literal rfl (by decide)))
  | unwritable name reason => exact .append (.append (.append (.literal rfl (by decide))))

theorem eq_unset_of_message {fault : ExecutionFault} {name : String}
    (h : fault.message = (ExecutionFault.unset name).message) : fault = .unset name := by
  by_contra hne
  refine StartsOther.ne_unset (ExecutionFault.startsOther ?_) name h
  rintro other rfl
  exact hne (congrArg _ (unset_message_injective h))

/-! ## Failures and tokens -/

/-- If a failure is shown, it is shown at one of the tokens; and if it is about a variable that is
not set, then at the name of that variable. -/
def Failure.PointsAt (tokens : List Token) (failure : Failure) : Prop :=
  ∀ diagnostic, failure.diagnostic? = some diagnostic →
    ∃ token ∈ tokens, diagnostic.span = token.span ∧
      ∀ name, diagnostic.message = (ExecutionFault.unset name).message → token.lexeme = name

theorem Failure.PointsAt.mono {tokens more : List Token} {failure : Failure}
    (h : failure.PointsAt tokens) (hsubset : tokens ⊆ more) : failure.PointsAt more := by
  intro diagnostic hdiagnostic
  obtain ⟨token, htoken, hfacts⟩ := h diagnostic hdiagnostic
  exact ⟨token, hsubset htoken, hfacts⟩

theorem pointsAt_of_diagnostic?_eq_none (tokens : List Token) {failure : Failure}
    (h : failure.diagnostic? = none) : failure.PointsAt tokens := by
  intro diagnostic hdiagnostic
  rw [h] at hdiagnostic
  cases hdiagnostic

theorem pointsAt_blame {tokens : List Token} {token : Token} (htoken : token ∈ tokens)
    {fault : ExecutionFault} (hname : ∀ name, fault = .unset name → token.lexeme = name) :
    (Failure.blame fault token.span).PointsAt tokens := by
  intro diagnostic hdiagnostic
  cases hdiagnostic
  exact ⟨token, htoken, rfl, fun name hmessage => hname name (eq_unset_of_message hmessage)⟩

/-! ## Quiet streams -/

/-- An input that brings up no diagnostic. -/
structure Input.Quiet (input : Input) : Prop where
  events : ∀ failure, .failure failure ∈ input.events → failure.diagnostic? = none
  failing : ∀ failure, input.failing = some failure → failure.diagnostic? = none

/-- An output that brings up no diagnostic. -/
def Output.Quiet (output : Output) : Prop :=
  ∀ plan, output.policy = .planned plan →
    ∀ failure, some failure ∈ plan → failure.diagnostic? = none

/-- A session whose streams bring up no diagnostics. -/
structure Session.Quiet (session : Session) : Prop where
  input : session.input.Quiet
  output : session.output.Quiet

/-- A session is quiet if none of the failures that its streams can bring is shown. -/
theorem Session.quiet_iff {session : Session} :
    session.Quiet ↔ ∀ failure, session.Brings failure → failure.diagnostic? = none := by
  constructor
  · intro h failure hbrings
    cases hbrings with
    | input hinput =>
      cases hinput with
      | event hevent => exact h.input.events failure hevent
      | failing hfailing => exact h.input.failing failure hfailing
    | output houtput =>
      cases houtput with
      | planned hpolicy hplan => exact h.output _ hpolicy failure hplan
      | encoded hpolicy fault => rfl
  · intro h
    refine ⟨⟨?_, ?_⟩, ?_⟩
    · intro failure hevent
      exact h failure (.input (.event hevent))
    · intro failure hfailing
      exact h failure (.input (.failing hfailing))
    · intro plan hpolicy failure hplan
      exact h failure (.output (.planned hpolicy hplan))

/-! ## Statements -/

/-- The failure of a stream is told at the name of the statement that used it, or as it is. -/
theorem pointsAt_tell {tokens : List Token} {name : Token} (hname : name ∈ tokens)
    {cause : String → String → ExecutionFault} (hcause : ∀ a b other, cause a b ≠ .unset other)
    (failure : Failure) :
    (Session.tell (target name) cause failure).PointsAt tokens ∨
      Session.tell (target name) cause failure = failure := by
  cases failure with
  | mishap mishap =>
    simp only [Session.tell]
    split
    · exact .inl (pointsAt_blame hname fun other hunset => absurd hunset (hcause _ _ other))
    · exact .inr rfl
  | _ => exact .inr rfl

theorem pointsAt_readInto {session : Session} {tokens : List Token} {name : Token}
    (hname : name ∈ tokens) {failure : Failure}
    (hfails : (session.readInto (target name)).2 = some failure) :
    failure.PointsAt tokens ∨ session.Brings failure := by
  have hread : ∀ other, session.input.read.1 = .error other → session.Brings other :=
    fun other hother => .input (Input.brings_of_read hother)
  simp only [Session.readInto] at hfails
  generalize session.input.read = brought at hread hfails
  obtain ⟨line, input⟩ := brought
  cases line with
  | error other =>
    cases hfails
    refine (pointsAt_tell hname (by simp) other).imp_right fun htold => ?_
    rw [htold]
    exact hread other rfl
  | ok line =>
    simp only [Session.received] at hfails
    split at hfails
    · cases hfails
      exact .inl (pointsAt_blame hname fun other hunset => by cases hunset)
    · cases hfails

theorem pointsAt_writeLine {session : Session} {tokens : List Token} {name : Token}
    (hname : name ∈ tokens) {text : String} {failure : Failure}
    (hfails : (session.writeLine (target name) text).2 = some failure) :
    failure.PointsAt tokens ∨ session.Brings failure := by
  simp only [Session.writeLine, Option.map_eq_some_iff] at hfails
  obtain ⟨other, hother, rfl⟩ := hfails
  refine (pointsAt_tell hname (by simp) other).imp_right fun htold => ?_
  rw [htold]
  exact .output (Output.brings_of_write hother)

theorem pointsAt_unreadable {space : Namespace} {operand : Token} {failure : Failure}
    (h : Accumulator.Unreadable space operand failure) {tokens : List Token}
    (hoperand : operand ∈ tokens) : failure.PointsAt tokens := by
  cases h with
  | unset hkind hget =>
    apply pointsAt_blame hoperand
    intro name hname
    cases hname
    rfl
  | notANumber hkind hget hread => exact pointsAt_blame hoperand fun name hname => by cases hname
  | tooManyDigits hkind hget hsign hdigits hmany => exact pointsAt_of_diagnostic?_eq_none _ rfl

/-- The accumulator machine blames its operands only. -/
theorem pointsAt_stops {space : Namespace} {first : Token} {links : List Accumulator.Link}
    {failure : Failure} (h : Accumulator.Stops space first links failure) :
    failure.PointsAt (first :: links.flatMap Accumulator.Link.tokens) := by
  have hmem : ∀ {done rest : List Accumulator.Link} {link : Accumulator.Link},
      links = done ++ link :: rest →
        link.operand ∈ first :: links.flatMap Accumulator.Link.tokens := by
    rintro done rest link rfl
    simp [Accumulator.Link.tokens]
  cases h with
  | first hfirst => exact pointsAt_unreadable hfirst List.mem_cons_self
  | operand hlinks hdone hoperand => exact pointsAt_unreadable hoperand (hmem hlinks)
  | zeroDivisor hlinks hdone hop hzero =>
    exact pointsAt_blame (hmem hlinks) fun name hname => by cases hname

/-- A statement that is made up by the tokens of a line and fails points at one of them, or it fails
with what a stream brings. -/
theorem pointsAt_execute {session : Session} {number offset : Nat} {cs : List Char}
    {pieces : List Piece} {tokens : List Token} {statement : Statement}
    (hcut : LineCut cs pieces) (htokens : pieces.map (Piece.place number offset) = tokens)
    (htree : LineTree tokens statement) {failure : Failure}
    (hfails : (session.execute statement).2 = some failure) :
    failure.PointsAt tokens ∨ session.Brings failure := by
  have hdeep : ∀ tokens, (Failure.mishap .tooDeep).PointsAt tokens :=
    fun tokens => pointsAt_of_diagnostic?_eq_none tokens rfl
  cases htree with
  | emptyText hfirst hname =>
    simp only [Session.execute] at hfails
    cases hroom : session.room with
    | zero =>
      rw [hroom] at hfails
      cases hfails
      exact .inl (hdeep _)
    | succ room =>
      rw [hroom] at hfails
      cases hfails
  | zeroNumber hfirst hname =>
    simp only [Session.execute] at hfails
    cases hroom : session.room with
    | zero =>
      rw [hroom] at hfails
      cases hfails
      exact .inl (hdeep _)
    | succ room =>
      rw [hroom] at hfails
      cases hfails
  | @text first name equal rest value hfirst hname hequal hvalue =>
    rcases TextJoin.failure_of_execute_textTree hvalue hfails with rfl | ⟨piece, hpiece, rfl⟩
    · exact .inl (hdeep _)
    · left
      apply pointsAt_blame (by simp [hpiece])
      intro name hname
      cases hname
      rfl
  | @number first name equal operand rest leaf value hfirst hname hequal hleaf hchain =>
    have hdigits := Accumulator.digitsIfValue_of_lineCut hcut htokens hfirst
    obtain ⟨links, rfl, -, heval⟩ := Accumulator.exists_machine hleaf hchain
      fun token htoken => hdigits token (by simp_all)
    simp only [Session.execute, heval] at hfails
    split at hfails
    · cases hrun : Accumulator.run session.space operand links with
      | ok n =>
        rw [hrun] at hfails
        cases hfails
      | error other =>
        rw [hrun] at hfails
        cases hfails
        left
        apply (pointsAt_stops (Accumulator.run_eq_error_iff.1 hrun)).mono
        intro token htoken
        exact List.mem_cons_of_mem _ (List.mem_cons_of_mem _ (List.mem_cons_of_mem _ htoken))
    · cases hfails
      exact .inl (hdeep _)
  | @input first name hfirst hname => exact pointsAt_readInto (by simp) hfails
  | @output first name hfirst hname =>
    -- Before anything is written the variable is looked up, and its name is to blame.
    simp only [Session.execute, Session.valueOf] at hfails
    split at hfails
    · exact pointsAt_writeLine (by simp) hfails
    · next other hvalue =>
      cases hfails
      rcases bind_eq_error_iff.1 hvalue with hnone | ⟨found, hfound, hlookup⟩
      · cases hnone
      · cases hfound
        simp only [Namespace.lookup] at hlookup
        split at hlookup
        · cases hlookup
        · cases hlookup
          have hname : name ∈ [first, name] := by simp
          left
          apply pointsAt_blame hname
          intro other hother
          cases hother
          rfl

/-! ## Runs -/

/-- A run in which each statement fails at one of some tokens, or with what a stream brings, fails
so itself. -/
theorem pointsAt_run {tokens : List Token} {statements : List Statement} {session after : Session}
    {failure : Failure}
    (hstep : ∀ statement ∈ statements, ∀ (session : Session) (failure : Failure),
      (session.execute statement).2 = some failure →
        failure.PointsAt tokens ∨ session.Brings failure)
    (hrun : session.run statements = (after, some failure)) :
    failure.PointsAt tokens ∨ session.Brings failure := by
  induction statements generalizing session with
  | nil => cases hrun
  | cons statement rest ih =>
    simp only [Session.run] at hrun
    split at hrun
    · next middle hexecute =>
      have hrest := ih (fun other hother => hstep other (List.mem_cons_of_mem _ hother)) hrun
      refine hrest.imp_right fun hbrings => ?_
      have hafter : (session.execute statement).1.Brings failure := by rwa [hexecute]
      exact hafter.of_execute
    · next middle other hexecute =>
      cases hrun
      exact hstep statement List.mem_cons_self session failure (by rw [hexecute])

/-- A program that fails when it is run points at one of its tokens, or it fails with what a stream
brings. -/
theorem pointsAt_run_of_sourceTree {lines : List PlacedLine} {tokens : List Token}
    {statements : List Statement} (htree : SourceTree lines tokens statements)
    {session after : Session} {failure : Failure}
    (hrun : session.run statements = (after, some failure)) :
    failure.PointsAt tokens ∨ session.Brings failure := by
  refine pointsAt_run ?_ hrun
  intro statement hstatement session failure hfails
  obtain ⟨line, -, pieces, hcut, hline, hsubset⟩ := htree.exists_lineTree hstatement
  exact (pointsAt_execute hcut rfl hline hfails).imp_left fun hpoints => hpoints.mono hsubset

end LineScript
