import LineScript.Duration
import LineScript.Session

/-!
# Journals

A journal tells what was done: how many tokens a source has, how many statements, which statement
is executed next, and how long a task took. The entries about a source are told on request only.
-/

set_option autoImplicit false

namespace LineScript

/-- A note of something that was done. -/
inductive Journal.Entry where
  | scanned (tokens lines : Nat)
  | parsed (statements : Nat)
  | executing (line : Int) (kind : NodeKind)
  | took (task : String) (ticks : Int)
  deriving DecidableEq, Repr

namespace Journal

/-- The wording of an entry. -/
def Entry.message : Entry → String
  | scanned tokens lines => s!"lexed {tokens} tokens over {lines} lines"
  | parsed statements => s!"parsed {statements} statements"
  | executing line kind => s!"line {Integer.render line}: executing {kind.label}"
  | took task ticks => s!"Task '{task}' took {Duration.render ticks}"

/-- The part of the program that an entry comes from. -/
def Entry.origin : Entry → String
  | scanned _ _ => "redlang.lang.lexical"
  | parsed _ => "redlang.lang.syntax"
  | executing _ _ => "redlang.lang.session"
  | took _ _ => "redlang.main"

/-- Whether an entry is told only in a verbose journal. -/
def Entry.isDetail : Entry → Bool
  | took _ _ => false
  | _ => true

/-- The line that tells an entry. A verbose journal tells all entries and where they come from. -/
def Entry.render (verbose : Bool) (entry : Entry) : String :=
  if verbose then s!"[{entry.origin}] {entry.message}\n"
  else if entry.isDetail then ""
  else s!"{entry.message}\n"

/-- The lines that tell some entries. -/
def render (verbose : Bool) (entries : List Entry) : String :=
  String.join (entries.map (Entry.render verbose))

end Journal

namespace Session

/-- The statements that a run starts to execute: all up to the first that fails, and that one. -/
def attempted (session : Session) : List Statement → List Statement
  | [] => []
  | statement :: rest =>
    match session.execute statement with
    | (after, none) => statement :: after.attempted rest
    | (_, some _) => [statement]

/-- The entries of a scanned source. -/
def scanEntries (source : String) (tokens : List Token) : List Journal.Entry :=
  [.scanned tokens.length (Text.lines source.toList).length]

/-- The entries of parsed tokens. -/
def parseEntries (statements : List Statement) : List Journal.Entry :=
  [.parsed statements.length]

/-- The entries of a run. -/
def runEntries (session : Session) (statements : List Statement) : List Journal.Entry :=
  (session.attempted statements).map fun statement =>
    .executing statement.span.line statement.kind

/-- The entries of a source that is interpreted. -/
def interpretEntries (session : Session) (source : String) : List Journal.Entry :=
  match Token.scan source with
  | .error _ => []
  | .ok tokens =>
    scanEntries source tokens ++
      match Statement.parse tokens with
      | .error _ => []
      | .ok statements => parseEntries statements ++ session.runEntries statements

end Session

end LineScript
