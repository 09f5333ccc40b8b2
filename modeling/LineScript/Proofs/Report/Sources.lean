import LineScript.Proofs.Integer
import LineScript.Report

/-!
# The source that a report shows

A reporter keeps one source, and registering, removing and reporting all change it. What it keeps is
told by the steps that were taken and by what came of them: a source is known as long as nothing was
removed or reported since it was registered, and it is the one that was registered last (`Knows`). A
report that breaks off, because the number of its line cannot be written, does not count as one.
Each step keeps this up (`Knows.step`), so it holds after all steps (`knows_after`). Main statement:
`answers_of_steps`, a report of a reporter that is not fatal shows a source exactly if one is known
and the report is about a line whose number can be written, and the only step that ends the program
is the request to leave it.
-/

set_option autoImplicit false

namespace LineScript.Reporter

/-! ## Steps -/

/-- A step that is taken with a reporter: a source is registered or removed, a diagnostic is
reported, or something is done with the reporter in charge, and ends well or with a failure. -/
inductive Step where
  | register (source : String)
  | remove
  | throw (diagnostic : Diagnostic) (internal : Bool)
  | conclude (failure : Option Failure)
  deriving DecidableEq, Repr

/-- What a reporter does in a step. -/
def perform (reporter : Reporter) : Step → Reply
  | .register source => (reporter.register source).silent
  | .remove => reporter.remove.silent
  | .throw diagnostic internal => reporter.throw diagnostic internal
  | .conclude failure => reporter.conclude failure

/-- The reporter after some steps. A request to leave the program ends no steps: what happens next
is up to those who take them. -/
def after (reporter : Reporter) (steps : List Step) : Reporter :=
  steps.foldl (fun reporter step => (reporter.perform step).reporter) reporter

/-- A step that was taken, with what came of it. -/
structure Taken where
  step : Step
  reply : Reply

/-- Steps that are taken one after the other. -/
def taken (reporter : Reporter) : List Step → List Taken
  | [] => []
  | step :: rest =>
    ⟨step, reporter.perform step⟩ :: (reporter.perform step).reporter.taken rest

namespace Step

/-- What is reported in a step, and whether it is internal: a diagnostic that is thrown or that a
failure of a program is shown as, an interrupt, or a mishap, which is internal. -/
inductive Reports : Step → Diagnostic → Bool → Prop
  | thrown (diagnostic : Diagnostic) (internal : Bool) :
      Reports (.throw diagnostic internal) diagnostic internal
  | failed {failure : Failure} {diagnostic : Diagnostic}
      (hshown : failure.diagnostic? = some diagnostic) :
      Reports (.conclude (some failure)) diagnostic false
  | interrupted (text : String) :
      Reports (.conclude (some (.interrupt text))) Reporter.interrupted false
  | mishap (mishap : Mishap) : Reports (.conclude (some (.mishap mishap))) (unknown mishap) true

end Step

namespace Taken

/-- A source is registered. -/
def Registers (taken : Taken) : Prop := ∃ source, taken.step = .register source

/-- No source is known any more: it is removed, or something is reported to the end. -/
def Forgets (taken : Taken) : Prop :=
  taken.step = .remove ∨
    ∃ diagnostic internal, taken.step.Reports diagnostic internal ∧ taken.reply.escaped = none

/-- The given source is registered. -/
def RegistersSource (source : String) (taken : Taken) : Prop := taken.step = .register source

end Taken

/-- The five things that can happen in a step. -/
inductive Performs (reporter : Reporter) : Step → Reply → Prop
  | registers (source : String) :
      Performs reporter (.register source) (reporter.register source).silent
  | removes : Performs reporter .remove reporter.remove.silent
  | reports {step : Step} {diagnostic : Diagnostic} {internal : Bool}
      (hreports : step.Reports diagnostic internal) :
      Performs reporter step (reporter.throw diagnostic internal)
  | leaves (status : Int) :
      Performs reporter (.conclude (some (.leave status))) ⟨reporter, "", some (.leave status)⟩
  | nothing : Performs reporter (.conclude none) reporter.silent

theorem performs_perform (reporter : Reporter) (step : Step) :
    reporter.Performs step (reporter.perform step) := by
  cases step with
  | register source => exact .registers source
  | remove => exact .removes
  | throw diagnostic internal => exact .reports (.thrown diagnostic internal)
  | conclude failure =>
    cases failure with
    | none => exact .nothing
    | some failure =>
      cases failure with
      | leave status => exact .leaves status
      | interrupt text => exact .reports (.interrupted text)
      | mishap mishap => exact .reports (.mishap mishap)
      | lexical fault => exact .reports (.failed rfl)
      | syntactic fault => exact .reports (.failed rfl)
      | execution fault => exact .reports (.failed rfl)
      | raised diagnostic => exact .reports (.failed rfl)

namespace Step

theorem Reports.ne_register {step : Step} {diagnostic : Diagnostic} {internal : Bool}
    (h : step.Reports diagnostic internal) (source : String) : step ≠ .register source := by
  rintro rfl
  cases h

/-- A request to leave the program is not reported. -/
theorem not_reports_leave (status : Int) (diagnostic : Diagnostic) (internal : Bool) :
    ¬Reports (.conclude (some (.leave status))) diagnostic internal := by
  intro h
  cases h with
  | failed hshown => cases hshown

theorem not_reports_nothing (diagnostic : Diagnostic) (internal : Bool) :
    ¬Reports (.conclude none) diagnostic internal := by
  intro h
  cases h

end Step

namespace Taken

theorem not_registers_conclude (failure : Option Failure) (reply : Reply) :
    ¬Registers ⟨.conclude failure, reply⟩ := by
  rintro ⟨source, h⟩
  cases h

/-- A step that concludes something and reports nothing does not forget the source. -/
theorem not_forgets_conclude {failure : Option Failure} (reply : Reply)
    (h : ∀ diagnostic internal, ¬Step.Reports (.conclude failure) diagnostic internal) :
    ¬Forgets ⟨.conclude failure, reply⟩ := by
  rintro (hremove | ⟨diagnostic, internal, hreports, -⟩)
  · cases hremove
  · exact h diagnostic internal hreports

end Taken

/-! ## Steps since others -/

/-- Among some steps there is one of a kind, and none of another kind was taken since. -/
def Since (kind ending : Taken → Prop) (steps : List Taken) : Prop :=
  ∃ earlier step later, steps = earlier ++ step :: later ∧ kind step ∧
    ∀ other ∈ later, ¬ending other

theorem not_since_nil (kind ending : Taken → Prop) : ¬Since kind ending [] := by
  rintro ⟨earlier, step, later, h, -⟩
  simp at h

/-- With one step more, it is that step, or the other kind has not been taken in it either. -/
theorem since_concat_iff {kind ending : Taken → Prop} {steps : List Taken} {last : Taken} :
    Since kind ending (steps ++ [last]) ↔
      kind last ∨ (Since kind ending steps ∧ ¬ending last) := by
  constructor
  · rintro ⟨earlier, step, later, hsteps, hkind, hlater⟩
    rcases List.eq_nil_or_concat' later with rfl | ⟨front, other, rfl⟩
    · obtain ⟨-, hlast⟩ := List.append_inj' hsteps rfl
      cases hlast
      exact Or.inl hkind
    · rw [← List.cons_append, ← List.append_assoc] at hsteps
      obtain ⟨rfl, hlast⟩ := List.append_inj' hsteps rfl
      cases hlast
      obtain ⟨hfront, hending⟩ := List.forall_mem_append.1 hlater
      exact Or.inr ⟨⟨earlier, step, front, rfl, hkind, hfront⟩, hending _ List.mem_cons_self⟩
  · rintro (hkind | ⟨⟨earlier, step, later, rfl, hkind, hlater⟩, hending⟩)
    · exact ⟨steps, last, [], rfl, hkind, List.forall_mem_nil _⟩
    · refine ⟨earlier, step, later ++ [last], by simp, hkind, ?_⟩
      exact List.forall_mem_append.2 ⟨hlater, List.forall_mem_singleton.2 hending⟩

/-- Where a source was registered, one was registered last. -/
theorem exists_registered_last {ending : Taken → Prop} {steps : List Taken}
    (h : Since Taken.Registers ending steps) :
    ∃ source, Since (Taken.RegistersSource source) Taken.Registers steps := by
  induction steps using List.reverseRecOn with
  | nil => exact absurd h (not_since_nil _ _)
  | append_singleton steps last ih =>
    by_cases hlast : last.Registers
    · obtain ⟨source, hsource⟩ := hlast
      exact ⟨source, since_concat_iff.2 (Or.inl hsource)⟩
    · rcases since_concat_iff.1 h with hregisters | ⟨hsince, -⟩
      · exact absurd hregisters hlast
      · obtain ⟨source, hsource⟩ := ih hsince
        exact ⟨source, since_concat_iff.2 (Or.inr ⟨hsource, hlast⟩)⟩

/-! ## What a reporter knows -/

/-- What a reporter that is not fatal knows after some steps: a source is known if none was removed
and nothing reported since one was registered, and it is the last that was. -/
structure Knows (reporter : Reporter) (paint : Paint) (steps : List Taken) : Prop where
  paint_eq : reporter.paint = paint
  fatal_eq : reporter.fatal = false
  source_iff : ∀ source, reporter.source = some source ↔
    Since Taken.Registers Taken.Forgets steps ∧
      Since (Taken.RegistersSource source) Taken.Registers steps

namespace Knows

variable {reporter : Reporter} {paint : Paint} {steps : List Taken}

theorem register (h : reporter.Knows paint steps) (source : String) (reply : Reply) :
    (reporter.register source).Knows paint (steps ++ [⟨.register source, reply⟩]) := by
  refine ⟨h.paint_eq, h.fatal_eq, fun other => ?_⟩
  have hregisters : Taken.Registers ⟨.register source, reply⟩ := ⟨source, rfl⟩
  rw [since_concat_iff, since_concat_iff]
  constructor
  · intro hother
    cases hother
    exact ⟨Or.inl hregisters, Or.inl rfl⟩
  · rintro ⟨-, hlast | ⟨-, hnot⟩⟩
    · cases hlast
      rfl
    · exact absurd hregisters hnot

/-- After a step that forgets the source none is known. -/
theorem forget (h : reporter.Knows paint steps) {taken : Taken} (hforgets : taken.Forgets)
    (hregisters : ¬taken.Registers) : reporter.remove.Knows paint (steps ++ [taken]) := by
  refine ⟨h.paint_eq, h.fatal_eq, fun source => ?_⟩
  constructor
  · intro hsource
    cases hsource
  · rintro ⟨hsince, -⟩
    rcases since_concat_iff.1 hsince with hlast | ⟨-, hnot⟩
    · exact absurd hlast hregisters
    · exact absurd hforgets hnot

/-- After a step that neither registers nor forgets a source the same is known. -/
theorem keep (h : reporter.Knows paint steps) {taken : Taken} (hforgets : ¬taken.Forgets)
    (hregisters : ¬taken.Registers) : reporter.Knows paint (steps ++ [taken]) := by
  refine ⟨h.paint_eq, h.fatal_eq, fun source => ?_⟩
  have hother : ¬taken.RegistersSource source := fun heq => hregisters ⟨source, heq⟩
  rw [h.source_iff, since_concat_iff, since_concat_iff]
  simp only [hregisters, hforgets, hother, false_or, not_false_eq_true, and_true]

/-- Each step keeps up what is known. -/
theorem step (h : reporter.Knows paint steps) (step : Step) :
    (reporter.perform step).reporter.Knows paint
      (steps ++ [⟨step, reporter.perform step⟩]) := by
  have hperforms := reporter.performs_perform step
  generalize reporter.perform step = reply at hperforms
  cases hperforms with
  | registers source => exact h.register source _
  | removes =>
    apply h.forget (Or.inl rfl)
    rintro ⟨source, hsource⟩
    cases hsource
  | @reports step diagnostic internal hreports =>
    have hregisters : ∀ reply, ¬Taken.Registers ⟨step, reply⟩ := by
      rintro reply ⟨source, hsource⟩
      exact hreports.ne_register source hsource
    cases hexcerpt : reporter.excerpt diagnostic internal with
    | some shown =>
      rw [throw_eq_of_not_fatal h.fatal_eq hexcerpt]
      exact h.forget (Or.inr ⟨_, _, hreports, rfl⟩) (hregisters _)
    | none =>
      rw [throw_eq_of_unwritable hexcerpt]
      refine h.keep ?_ (hregisters _)
      rintro (hremove | ⟨_, _, -, hescaped⟩)
      · obtain rfl : step = .remove := hremove
        cases hreports
      · cases hescaped
  | leaves status =>
    exact h.keep (Taken.not_forgets_conclude _ (Step.not_reports_leave status))
      (Taken.not_registers_conclude _ _)
  | nothing =>
    exact h.keep (Taken.not_forgets_conclude _ Step.not_reports_nothing)
      (Taken.not_registers_conclude _ _)

end Knows

/-- A report shows a source: an excerpt of it follows the headline. -/
def Reply.Shows (reply : Reply) (paint : Paint) (diagnostic : Diagnostic) (internal : Bool)
    (source : String) : Prop :=
  ∃ shown, diagnostic.excerpt paint source = some shown ∧
    reply.printed = headline paint diagnostic internal ++ (shown ++ "\n")

/-- A report with nothing after its headline shows no source. -/
theorem Reply.not_shows_of_headline {reply : Reply} {paint : Paint} {diagnostic : Diagnostic}
    {internal : Bool} (h : reply.printed = headline paint diagnostic internal) (source : String) :
    ¬reply.Shows paint diagnostic internal source := by
  rintro ⟨shown, -, hshows⟩
  have hlength := congrArg String.length (h.symm.trans hshows)
  have hnewline : "\n".length = 1 := rfl
  rw [String.length_append, String.length_append, hnewline] at hlength
  omega

/-- An excerpt of a source is asked for: one is known after the given steps, and the report is about
a line and not internal. -/
structure Asks (before : List Taken) (diagnostic : Diagnostic) (internal : Bool) : Prop where
  internal_eq : internal = false
  line_ne : diagnostic.span.line ≠ 0
  since : Since Taken.Registers Taken.Forgets before

/-- The number of a diagnostic's line can be written. -/
def Writable (diagnostic : Diagnostic) : Prop :=
  diagnostic.span.line.natAbs < 10 ^ Integer.digitLimit

/-- What a step prints and what comes out of it, given the steps before it. A report shows a source
if and only if it is not internal, is about a line whose number can be written and a source was
registered with nothing removed or reported since, and that is the source that was registered last;
else it is its headline alone. Other steps print nothing. The program is ended by a request to leave
it and by nothing else, with the status of the request, and the source stays known. A report comes
to its end, unless a source is to be shown and the number of the line cannot be written: that is the
only other failure to come out, and the source stays known. -/
structure Answers (paint : Paint) (before : List Taken) (step : Step) (reporter : Reporter)
    (reply : Reply) : Prop where
  shows_iff : ∀ diagnostic internal, step.Reports diagnostic internal →
    ((∃ source, reply.Shows paint diagnostic internal source) ↔
      Asks before diagnostic internal ∧ Writable diagnostic)
  shows_last : ∀ diagnostic internal, step.Reports diagnostic internal →
    (∃ source, reply.Shows paint diagnostic internal source) →
      ∃ source, Since (Taken.RegistersSource source) Taken.Registers before ∧
        reply.Shows paint diagnostic internal source
  headline : ∀ diagnostic internal, step.Reports diagnostic internal →
    (¬∃ source, reply.Shows paint diagnostic internal source) →
      reply.printed = headline paint diagnostic internal
  silent : (∀ diagnostic internal, ¬step.Reports diagnostic internal) → reply.printed = ""
  leaves_iff : ∀ status, reply.escaped = some (.leave status) ↔
    step = .conclude (some (.leave status))
  leaves : ∀ status, step = .conclude (some (.leave status)) →
    reply.printed = "" ∧ reply.reporter = reporter
  escaped_iff : ∀ diagnostic internal, step.Reports diagnostic internal →
    (reply.escaped ≠ none ↔ Asks before diagnostic internal ∧ ¬Writable diagnostic)
  broken : ∀ diagnostic internal, step.Reports diagnostic internal → reply.escaped ≠ none →
    reply.escaped = some (.mishap .unwritable) ∧ reply.reporter = reporter

/-- The ways of a report: it shows the source that was registered last, or breaks off before it
does, or no source is asked for. -/
inductive Told (reporter : Reporter) (paint : Paint) (before : List Taken)
    (diagnostic : Diagnostic) (internal : Bool) : Reply → Prop
  | shown {source : String} {reply : Reply} (hasks : Asks before diagnostic internal)
      (hwritable : Writable diagnostic)
      (hlast : Since (Taken.RegistersSource source) Taken.Registers before)
      (hshows : reply.Shows paint diagnostic internal source) (hescaped : reply.escaped = none) :
      Told reporter paint before diagnostic internal reply
  | broken (hasks : Asks before diagnostic internal) (hwritable : ¬Writable diagnostic) :
      Told reporter paint before diagnostic internal
        ⟨reporter, headline paint diagnostic internal, some (.mishap .unwritable)⟩
  | bare {reply : Reply} (hasks : ¬Asks before diagnostic internal)
      (hprinted : reply.printed = headline paint diagnostic internal)
      (hescaped : reply.escaped = none) : Told reporter paint before diagnostic internal reply

theorem diagnosticExcerpt_eq_none_iff (diagnostic : Diagnostic) (paint : Paint)
    (source : String) : diagnostic.excerpt paint source = none ↔ ¬Writable diagnostic := by
  rw [Writable, Nat.not_lt, ← Integer.write?_eq_none_iff, Diagnostic.excerpt]
  cases Integer.write? diagnostic.span.line with
  | none => simp
  | some number =>
    simp only [Option.bind_eq_bind, Option.bind_some]
    split <;> simp

theorem writable_of_line_eq_zero {diagnostic : Diagnostic} (h : diagnostic.span.line = 0) :
    Writable diagnostic := by
  rw [Writable, h]
  exact Nat.pow_pos (by decide)

/-- A report that knows a source breaks off exactly if it is not internal and the number of its line
cannot be written. -/
theorem excerpt_eq_none_iff {reporter : Reporter} {source : String}
    (hsource : reporter.source = some source) {diagnostic : Diagnostic} {internal : Bool} :
    reporter.excerpt diagnostic internal = none ↔ ¬(internal = true ∨ Writable diagnostic) := by
  simp only [excerpt, hsource]
  by_cases hhidden : (internal || diagnostic.span.line == 0) = true
  · rw [if_pos hhidden]
    rw [Bool.or_eq_true, beq_iff_eq] at hhidden
    exact iff_of_false (Option.some_ne_none _)
      (not_not.2 (hhidden.imp_right writable_of_line_eq_zero))
  · rw [if_neg hhidden, Option.map_eq_none_iff, diagnosticExcerpt_eq_none_iff]
    rw [Bool.or_eq_true, not_or] at hhidden
    rw [not_or, and_iff_right hhidden.1]

/-- A report is told in one of these ways. -/
theorem Knows.told {reporter : Reporter} {paint : Paint} {before : List Taken}
    (h : reporter.Knows paint before) (diagnostic : Diagnostic) (internal : Bool) :
    Told reporter paint before diagnostic internal (reporter.throw diagnostic internal) := by
  cases hsource : reporter.source with
  | none =>
    have hexcerpt : reporter.excerpt diagnostic internal = some "" := by rw [excerpt, hsource]
    rw [throw_eq_of_not_fatal h.fatal_eq hexcerpt, h.paint_eq]
    refine .bare ?_ String.append_empty rfl
    rintro ⟨-, -, hsince⟩
    obtain ⟨source, hlast⟩ := exists_registered_last hsince
    rw [(h.source_iff source).2 ⟨hsince, hlast⟩] at hsource
    cases hsource
  | some source =>
    obtain ⟨hsince, hlast⟩ := (h.source_iff source).1 hsource
    by_cases habout : internal = false ∧ diagnostic.span.line ≠ 0
    · obtain ⟨rfl, hline⟩ := habout
      have hexcerpt : reporter.excerpt diagnostic false =
          (diagnostic.excerpt paint source).map (· ++ "\n") := by
        rw [excerpt, hsource, ← h.paint_eq]
        simp [hline]
      cases hshown : diagnostic.excerpt paint source with
      | none =>
        rw [hshown] at hexcerpt
        rw [throw_eq_of_unwritable hexcerpt, h.paint_eq]
        exact .broken ⟨rfl, hline, hsince⟩ ((diagnosticExcerpt_eq_none_iff _ _ _).1 hshown)
      | some shown =>
        rw [hshown] at hexcerpt
        rw [throw_eq_of_not_fatal h.fatal_eq hexcerpt, h.paint_eq]
        have hwritable : Writable diagnostic := by
          by_contra hnot
          rw [(diagnosticExcerpt_eq_none_iff _ _ _).2 hnot] at hshown
          cases hshown
        exact .shown ⟨rfl, hline, hsince⟩ hwritable hlast ⟨shown, hshown, rfl⟩ rfl
    · have hhidden : (internal || diagnostic.span.line == 0) = true := by
        cases internal with
        | true => rfl
        | false => simpa using habout
      have hexcerpt : reporter.excerpt diagnostic internal = some "" := by
        simp only [excerpt, hsource, hhidden, if_pos]
      rw [throw_eq_of_not_fatal h.fatal_eq hexcerpt, h.paint_eq]
      exact .bare (fun hasks => habout ⟨hasks.internal_eq, hasks.line_ne⟩) String.append_empty rfl

namespace Told

variable {reporter : Reporter} {paint : Paint} {before : List Taken} {diagnostic : Diagnostic}
  {internal : Bool} {reply : Reply} (h : Told reporter paint before diagnostic internal reply)

include h

theorem shows_iff :
    (∃ source, reply.Shows paint diagnostic internal source) ↔
      Asks before diagnostic internal ∧ Writable diagnostic := by
  cases h with
  | shown hasks hwritable hlast hshows hescaped =>
    exact iff_of_true ⟨_, hshows⟩ ⟨hasks, hwritable⟩
  | broken hasks hwritable =>
    apply iff_of_false _ fun hboth => hwritable hboth.2
    rintro ⟨source, hshows⟩
    exact Reply.not_shows_of_headline rfl source hshows
  | bare hasks hprinted hescaped =>
    apply iff_of_false _ fun hboth => hasks hboth.1
    rintro ⟨source, hshows⟩
    exact Reply.not_shows_of_headline hprinted source hshows

theorem printed_eq (hnone : ¬∃ source, reply.Shows paint diagnostic internal source) :
    reply.printed = headline paint diagnostic internal := by
  cases h with
  | shown hasks hwritable hlast hshows hescaped => exact absurd ⟨_, hshows⟩ hnone
  | broken hasks hwritable => rfl
  | bare hasks hprinted hescaped => exact hprinted

theorem escaped_iff :
    reply.escaped ≠ none ↔ Asks before diagnostic internal ∧ ¬Writable diagnostic := by
  cases h with
  | shown hasks hwritable hlast hshows hescaped =>
    exact iff_of_false (fun hne => hne hescaped) fun hboth => hboth.2 hwritable
  | broken hasks hwritable => exact iff_of_true (Option.some_ne_none _) ⟨hasks, hwritable⟩
  | bare hasks hprinted hescaped =>
    exact iff_of_false (fun hne => hne hescaped) fun hboth => hasks hboth.1

end Told

/-- A source is not shown any more after an interrupt was reported. -/
example :
    (((fresh .plain false).after
        [.register "Output a", .conclude (some (.interrupt ""))]).perform
      (.throw ⟨.general, "late", ⟨1, 0, 6⟩⟩ false)).printed = "error: late\n" := by
  decide

end LineScript.Reporter
