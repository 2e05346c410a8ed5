import TensorGraph.Text.Quoted

/-!
Arguments of the command line, one by one: which of them are flags, under which spelling, and with
which value attached. A long spelling may be shortened as long as one flag is left.
-/

namespace TensorGraph.CommandLine

open Text

/-- What a flag is about. -/
inductive Flag where
  | help
  | format
  | direction
  | validate
  | debug
deriving DecidableEq, Repr

/-- A spelling of a flag. A switch has one that turns it on and one that turns it off. -/
structure Spelling where
  text : String
  flag : Flag
  on : Bool
deriving DecidableEq, Repr

/-- All spellings, in the order in which messages list them. -/
def spellings : List Spelling :=
  [⟨"-h", .help, true⟩, ⟨"--help", .help, true⟩, ⟨"--format", .format, true⟩,
    ⟨"--rankdir", .direction, true⟩, ⟨"--validate", .validate, true⟩,
    ⟨"--no-validate", .validate, false⟩, ⟨"--debug", .debug, true⟩,
    ⟨"--no-debug", .debug, false⟩]

/-- The name of a flag in messages: all its spellings. -/
def Flag.name (f : Flag) : String :=
  String.intercalate "/" ((spellings.filter (·.flag = f)).map Spelling.text)

/-- Whether a flag is followed by a value. -/
def Flag.takesValue : Flag → Bool
  | .format => true
  | .direction => true
  | _ => false

/-- What is wrong with the arguments. -/
inductive UsageError where
  | ambiguous (argument : String) (candidates : List String)
  | missingValue (flag : Flag)
  | unwantedValue (flag : Flag) (value : String)
  | badChoice (flag : Flag) (value : String) (choices : List String)
  | missingFile
  | leftOver (arguments : List String)
deriving Repr

def UsageError.message : UsageError → String
  | ambiguous argument candidates =>
    "ambiguous option: " ++ argument ++ " could match " ++ String.intercalate ", " candidates
  | missingValue flag => "argument " ++ flag.name ++ ": expected one argument"
  | unwantedValue flag value =>
    "argument " ++ flag.name ++ ": ignored explicit argument " ++ quoted value
  | badChoice flag value choices =>
    "argument " ++ flag.name ++ ": invalid choice: " ++ quoted value ++ " (choose from " ++
      String.intercalate ", " (choices.map quoted) ++ ")"
  | missingFile => "the following arguments are required: file"
  | leftOver arguments => "unrecognized arguments: " ++ String.intercalate " " arguments

/-- What an argument is taken for. -/
inductive Argument where
  | plain (text : String)
  | flag (spelling : Spelling) (attached : Option String)
  /-- A flag that does not exist. -/
  | unknown (text : String)
  /-- The mark behind which every argument is plain. -/
  | endMark
deriving Repr

/-- A text before its first equals sign, and what follows the sign. -/
def splitEquals (s : String) : String × Option String :=
  let cs := s.toList
  match cs.dropWhile (· ≠ '=') with
  | [] => (s, none)
  | _ :: value => (String.ofList (cs.takeWhile (· ≠ '=')), some (String.ofList value))

/-- The flags that a text may be short for. Behind two dashes a value follows an equals sign;
behind one dash a single letter is the flag and the rest its value. -/
def candidates (s : String) : List (Spelling × Option String) :=
  if s.startsWith "--" then
    let (name, value) := splitEquals s
    (spellings.filter (·.text.startsWith name)).map fun spelling => (spelling, value)
  else
    let letter := String.ofList (s.toList.take 2)
    spellings.filterMap fun spelling =>
      if spelling.text = letter then some (spelling, some (String.ofList (s.toList.drop 2)))
      else if spelling.text.startsWith s then some (spelling, none)
      else none

/-- Whether a text is a number below zero, which is no flag. -/
def isNegativeNumber (s : String) : Bool :=
  match s.toList with
  | '-' :: rest =>
    let whole := rest.takeWhile Char.isDigit
    match rest.dropWhile Char.isDigit with
    | [] => !whole.isEmpty
    | '.' :: fraction => !fraction.isEmpty && fraction.all Char.isDigit
    | _ => false
  | _ => false

/-- What an argument is taken for, if no end mark stands before it. A text that names no flag is
plain if it is a number or holds a space. -/
def Argument.ofText (s : String) : Except UsageError Argument :=
  let (name, value) := splitEquals s
  match spellings.find? (·.text = s), spellings.find? (·.text = name) with
  | some spelling, _ => .ok (.flag spelling none)
  | none, some spelling => .ok (.flag spelling value)
  | none, none =>
    if !s.startsWith "-" || s = "-" then .ok (.plain s)
    else if s = "--" then .ok .endMark
    else match candidates s with
      | [(spelling, attached)] => .ok (.flag spelling attached)
      | [] => .ok (if isNegativeNumber s || s.contains ' ' then .plain s else .unknown s)
      | several => .error (.ambiguous s (several.map fun candidate => candidate.1.text))

def Argument.ofTexts : List String → Except UsageError (List Argument)
  | [] => .ok []
  | s :: rest => do
    match ← ofText s with
    | .endMark => return .endMark :: rest.map .plain
    | argument => return argument :: (← ofTexts rest)

end TensorGraph.CommandLine
