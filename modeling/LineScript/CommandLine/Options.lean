import LineScript.Text.Alphanumeric
import LineScript.Text.Quoted

/-!
# Options

The arguments of the program: at most one file and some flags. Arguments are sorted into words
first. A long flag may be cut short and may have its value after an equals sign; short flags may
stand together in one word; after `--` every argument is an operand. Then the words are taken from
left to right. Words that have no use are collected and refused at the end, after everything else
was found in order; a call for help is answered at once.
-/

set_option autoImplicit false

namespace LineScript.CommandLine

/-- What the arguments ask for. An encoding that is `none` was asked for without a name. -/
structure Options where
  file : Option String
  verbose : Bool
  timings : Bool
  encoding : Option String
  deriving DecidableEq, Repr

/-- The options of a call without arguments. -/
def Options.default : Options := ⟨none, false, false, some "utf-8"⟩

/-- The flags. -/
inductive Flag where
  | help
  | verbose
  | timings
  | encoding
  deriving DecidableEq, Repr

namespace Flag

/-- Every flag. -/
def all : List Flag := [help, verbose, timings, encoding]

/-- The long form of a flag. -/
def long : Flag → String
  | help => "--help"
  | verbose => "--verbose"
  | timings => "--timings"
  | encoding => "--encoding"

/-- The letter of a flag's short form. -/
def letter? : Flag → Option Char
  | help => some 'h'
  | verbose => some 'v'
  | timings => some 't'
  | encoding => none

/-- How messages call a flag. -/
def title (flag : Flag) : String :=
  match flag.letter? with
  | some letter => String.ofList ['-', letter, '/'] ++ flag.long
  | none => flag.long

/-- The flag with a letter. -/
def ofLetter? (letter : Char) : Option Flag :=
  all.find? fun flag => flag.letter? == some letter

/-- The flag that a text spells out, and whether it is the short form. -/
def ofSpelling? (text : List Char) : Option (Flag × Bool) :=
  match text with
  | ['-', letter] => (ofLetter? letter).map (·, true)
  | text => (all.find? fun flag => flag.long.toList == text).map (·, false)

end Flag

/-- Why arguments are refused. -/
inductive UsageFault where
  | ambiguous (argument : String)
  | ignoredValue (flag : Flag) (value : String)
  | missingValue (flag : Flag)
  | unrecognized (arguments : List String)
  deriving DecidableEq, Repr

/-- The wording of a refusal. -/
def UsageFault.message : UsageFault → String
  | ambiguous argument =>
    s!"ambiguous option: {argument} could match " ++
      String.intercalate ", " (Flag.all.map Flag.long)
  | ignoredValue flag value =>
    s!"argument {flag.title}: ignored explicit argument {Text.quoted value}"
  | missingValue flag => s!"argument {flag.title}: expected one argument"
  | unrecognized arguments =>
    "unrecognized arguments: " ++ String.intercalate " " arguments

/-! ## Words -/

/-- What an argument is. A flag may bring a value along, and its short form brings along what
follows it in the same word. -/
inductive Word where
  | operand (text : String)
  | separator
  | option (flag : Flag) (short : Bool) (value : Option String)
  | unknown (text : String)
  deriving DecidableEq, Repr

namespace Word

/-- A text up to its first equals sign, and what follows that, if there is one. -/
def splitEquals (text : List Char) : List Char × Option (List Char) :=
  match text.dropWhile (· != '=') with
  | [] => (text, none)
  | _ :: value => (text.takeWhile (· != '='), some value)

/-- Whether a text is a number below zero: a minus sign and digits, maybe with a point before the
last of them, maybe with a line feed at the end. -/
def isNegativeNumber (text : List Char) : Bool :=
  match text with
  | '-' :: body =>
    let body := if body.getLast? = some '\n' then body.dropLast else body
    match body.dropWhile Text.isDecimal with
    | [] => !body.isEmpty
    | '.' :: fraction => !fraction.isEmpty && fraction.all Text.isDecimal
    | _ => false
  | _ => false

/-- The word of an argument that no flag is found for. -/
def ofOther (text : List Char) : Word :=
  if isNegativeNumber text || text.contains ' ' then .operand (String.ofList text)
  else .unknown (String.ofList text)

/-- The word of an argument with two dashes: the only flag whose long form starts with it. -/
def ofLong (text : List Char) : Except UsageFault Word :=
  let (name, value) := splitEquals text
  match Flag.all.filter fun flag => name.isPrefixOf flag.long.toList with
  | [] => .ok (ofOther text)
  | [flag] => .ok (.option flag false (value.map String.ofList))
  | _ => .error (.ambiguous (String.ofList text))

/-- The word of an argument with one dash: the flag of its first letter. -/
def ofShort (text : List Char) : Word :=
  match text with
  | '-' :: letter :: rest =>
    match Flag.ofLetter? letter with
    | some flag => .option flag true (some (String.ofList rest))
    | none => ofOther text
  | text => ofOther text

/-- The word of an argument that starts with a dash and is no flag's full spelling. -/
def ofDashed (text : List Char) : Except UsageFault Word :=
  match splitEquals text with
  | (name, some value) =>
    match Flag.ofSpelling? name with
    | some (flag, short) => .ok (.option flag short (some (String.ofList value)))
    | none => if ['-', '-'].isPrefixOf text then ofLong text else .ok (ofShort text)
  | (_, none) => if ['-', '-'].isPrefixOf text then ofLong text else .ok (ofShort text)

/-- The word of an argument. -/
def ofArgument (argument : String) : Except UsageFault Word :=
  match argument.toList with
  | ['-'] => .ok (.operand argument)
  | '-' :: rest =>
    match Flag.ofSpelling? ('-' :: rest) with
    | some (flag, short) => .ok (.option flag short none)
    | none => ofDashed ('-' :: rest)
  | _ => .ok (.operand argument)

/-- The words of arguments. After the separator there are only operands. -/
def ofArguments : List String → Except UsageFault (List Word)
  | [] => .ok []
  | argument :: rest =>
    if argument = "--" then .ok (.separator :: rest.map .operand)
    else do
      let word ← ofArgument argument
      let words ← ofArguments rest
      .ok (word :: words)

end Word

/-! ## Taking the words -/

/-- What the arguments come to. -/
inductive Request where
  | help
  | run (options : Options)
  deriving DecidableEq, Repr

/-- The words taken so far: the options, whether a file can still be given, and the arguments that
have no use. -/
structure Intake where
  options : Options
  wantsFile : Bool
  extras : List String
  deriving DecidableEq, Repr

namespace Intake

/-- Nothing taken. -/
def start : Intake := ⟨.default, true, []⟩

/-- Takes a file. -/
def takeFile (intake : Intake) (file : String) : Intake :=
  { intake with options := { intake.options with file := some file }, wantsFile := false }

/-- Sets an argument aside. -/
def setAside (intake : Intake) (argument : String) : Intake :=
  { intake with extras := intake.extras ++ [argument] }

/-- Takes a flag without a value. -/
def takeFlag (intake : Intake) : Flag → Intake
  | .verbose => { intake with options := { intake.options with verbose := true } }
  | .timings => { intake with options := { intake.options with timings := true } }
  | _ => intake

/-- Takes an encoding. The value `--` is no name. -/
def takeEncoding (intake : Intake) (name : String) : Intake :=
  let encoding := if name = "--" then none else some name
  { intake with options := { intake.options with encoding := encoding } }

/-- The flags that stand together in one word after a flag without a value. -/
def together (flag : Flag) : List Char → Except UsageFault (List Flag)
  | [] => .ok [flag]
  | letter :: rest =>
    match Flag.ofLetter? letter with
    | none => .error (.ignoredValue flag (String.ofList (letter :: rest)))
    | some next => do
      let flags ← together next rest
      .ok (flag :: flags)

/-- The flags without a value that a word holds. -/
def flagsOf (flag : Flag) (short : Bool) (value : Option String) :
    Except UsageFault (List Flag) :=
  match value with
  | none => .ok [flag]
  | some value =>
    if short && value != "" then together flag value.toList
    else .error (.ignoredValue flag value)

/-- Takes the words from left to right. -/
def takeWords (intake : Intake) : List Word → Except UsageFault Request
  | [] =>
    if intake.extras.isEmpty then .ok (.run intake.options)
    else .error (.unrecognized intake.extras)
  | .operand file :: .separator :: rest =>
    if intake.wantsFile then (intake.takeFile file).takeWords rest
    else ((intake.setAside file).setAside "--").takeWords rest
  | .operand file :: rest =>
    if intake.wantsFile then (intake.takeFile file).takeWords rest
    else (intake.setAside file).takeWords rest
  | .separator :: .operand file :: rest =>
    if intake.wantsFile then (intake.takeFile file).takeWords rest
    else ((intake.setAside "--").setAside file).takeWords rest
  | .separator :: rest =>
    if intake.wantsFile then intake.takeWords rest
    else (intake.setAside "--").takeWords rest
  | .unknown argument :: rest => (intake.setAside argument).takeWords rest
  | .option .encoding _ (some value) :: rest => (intake.takeEncoding value).takeWords rest
  | .option .encoding _ none :: .operand value :: rest =>
    (intake.takeEncoding value).takeWords rest
  | .option .encoding _ none :: _ => .error (.missingValue .encoding)
  | .option flag short value :: rest => do
    let flags ← flagsOf flag short value
    if flags.contains .help then .ok .help
    else (flags.foldl takeFlag intake).takeWords rest

end Intake

/-- What arguments ask for, or why they are refused. -/
def Request.ofArguments (arguments : List String) : Except UsageFault Request := do
  let words ← Word.ofArguments arguments
  Intake.start.takeWords words

/-! ## Texts -/

/-- The usage of the program in one line. -/
def usage : String :=
  "usage: red [-h] [-v] [-t] [--encoding ENCODING] [file]\n"

/-- The answer to a call for help. -/
def helpText : String :=
  usage ++
  "\nInterpreter for the red scripting language.\n" ++
  "\npositional arguments:\n" ++
  "  file                 file to interpret and run (if empty, goes to command-\n" ++
  "                       line mode)\n" ++
  "\noptions:\n" ++
  "  -h, --help           show this help message and exit\n" ++
  "  -v, --verbose        log lexer, parser and interpreter activity\n" ++
  "  -t, --timings        report how long each stage took\n" ++
  "  --encoding ENCODING  encoding of the script file (default: utf-8)\n"

/-- What is said about arguments that are refused. -/
def UsageFault.report (fault : UsageFault) : String :=
  usage ++ s!"red: error: {fault.message}\n"

end LineScript.CommandLine
