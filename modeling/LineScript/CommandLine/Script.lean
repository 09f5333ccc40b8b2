import LineScript.Session.Journal

/-!
# Scripts

A script is run in stages: its file is read, its source is scanned and parsed, and its statements
are executed in a session of their own. The first stage that fails is the last. How the bytes of a
file are come by and what encodings there are is left open: a script is run over any function from
paths to bytes, and any function from names to decoders.
-/

set_option autoImplicit false

namespace LineScript.CommandLine

/-- Why a path leads to no file. -/
inductive PathFault where
  | missing
  | notADirectory
  | isADirectory
  | nameTooLong
  | other (number : Nat) (words : String)
  deriving DecidableEq, Repr

namespace PathFault

/-- The system's number for a fault. -/
def number : PathFault → Nat
  | missing => 2
  | notADirectory => 20
  | isADirectory => 21
  | nameTooLong => 36
  | other number _ => number

/-- The system's words for a fault. -/
def words : PathFault → String
  | missing => "No such file or directory"
  | notADirectory => "Not a directory"
  | isADirectory => "Is a directory"
  | nameTooLong => "File name too long"
  | other _ words => words

/-- The message about a path. -/
def message (fault : PathFault) (path : String) : String :=
  s!"[Errno {fault.number}] {fault.words}: {Text.quoted path}"

end PathFault

/-- A way to come by the bytes of the file at a path. -/
abbrev Opener := String → Except PathFault (List UInt8)

/-- The text that bytes stand for in an encoding. -/
abbrev Decoder := List UInt8 → Except Mishap (List Char)

/-- The encoding that has a name, or the mishap that none has. -/
abbrev Codecs := String → Except Mishap Decoder

/-- The encodings that come with the program. -/
def knownCodecs : Codecs := fun name =>
  match Text.Encoding.ofName? name with
  | none => .error (.foreign "LookupError" s!"unknown encoding: {name}")
  | some encoding => .ok fun bytes =>
    (encoding.decode bytes).mapError fun fault => .undecodable fault.message

/-- The diagnostic of a script that cannot be read. -/
def unreadable (path reason : String) : Failure :=
  .raised ⟨.general, s!"'{path}' could not be read: {reason}", .zero⟩

/-- The failure of a name that holds a zero character. -/
def embeddedZero (what : String) : Failure :=
  .mishap (.foreign "ValueError" s!"embedded null {what}")

/-- The failure of an encoding that is asked for without a name. -/
def namelessEncoding : Failure :=
  .mishap (.foreign "TypeError" "open() argument 'encoding' must be str or None, not list")

/-- The text of a script, with all line ends made line feeds. The file is opened before the name of
its encoding is looked at. -/
def readScript (opener : Opener) (codecs : Codecs) (path : String) (encoding : Option String) :
    Except Failure (List Char) :=
  match encoding with
  | none => .error namelessEncoding
  | some name =>
    if '\x00' ∈ name.toList then .error (embeddedZero "character")
    else if '\x00' ∈ path.toList then .error (embeddedZero "byte")
    else
      match opener path with
      | .error fault => .error (unreadable path (fault.message path))
      | .ok bytes =>
        match codecs name >>= (· bytes) with
        | .error mishap =>
          if mishap.isFileTrouble then .error (unreadable path mishap.text)
          else .error (.mishap mishap)
        | .ok text => .ok (Text.normalizeNewlines text)

/-- A part of the work on a script: its name, what it notes in the journal, and whether it came to
its end. -/
structure Stage where
  task : String
  entries : List Journal.Entry
  done : Bool
  deriving DecidableEq, Repr

/-- A script that was run: its stages, its source if that could be read, the session it leaves, and
the failure that ended it, if there was one. -/
structure ScriptRun where
  stages : List Stage
  source : Option String
  session : Session
  failure : Option Failure
  deriving DecidableEq, Repr

/-- Runs a source as a script, once it was read. -/
def runSource (source : String) (input : Input) (room : Nat) : ScriptRun :=
  let session := Session.fresh input (.fresh .unlimited) room
  let reading : Stage := ⟨"Reading File", [], true⟩
  match Token.scan source with
  | .error fault =>
    ⟨[reading, ⟨"Lexing", [], false⟩], some source, session, some (.lexical fault)⟩
  | .ok tokens =>
    let scanning : Stage := ⟨"Lexing", Session.scanEntries source tokens, true⟩
    match Statement.parse tokens with
    | .error failure =>
      ⟨[reading, scanning, ⟨"Parsing", [], false⟩], some source, session,
        some failure.toFailure⟩
    | .ok statements =>
      let parsing : Stage := ⟨"Parsing", Session.parseEntries statements, true⟩
      let (after, failure) := session.run statements
      let running : Stage :=
        ⟨"Interpreting", session.runEntries statements, failure.isNone⟩
      ⟨[reading, scanning, parsing, running], some source, after, failure⟩

/-- Runs the script at a path. -/
def runScript (opener : Opener) (codecs : Codecs) (path : String) (encoding : Option String)
    (input : Input) (room : Nat) : ScriptRun :=
  match readScript opener codecs path encoding with
  | .error failure =>
    ⟨[⟨"Reading File", [], false⟩], none, .fresh input (.fresh .unlimited) room, some failure⟩
  | .ok text => runSource (String.ofList text) input room

end LineScript.CommandLine
