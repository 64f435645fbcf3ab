import Ambient.Declaration.Output
import Ambient.Link.Check

/-!
# The command line

Three commands: one writes the declarations of a document, one translates a single type, and one
checks the links of a document.  A command is read from its arguments, and running it on some files
and pages gives everything it shows and writes.
-/

namespace Ambient

namespace CommandLine

/-! ### Reading arguments -/

/-- An option of a command. -/
structure Flag where
  long : Text
  short : Option Char := none
  takesValue : Bool := true

/-- What is given on a command line: the options with their values, and the other arguments. -/
structure Arguments where
  options : List (Text × Text) := []
  others : List Text := []

namespace Arguments

/-- The arguments behind one more option. -/
def withOption (name value : Text) (a : Arguments) : Arguments :=
  { a with options := (name, value) :: a.options }

/-- The value of an option that is given; the last one counts. -/
def value? (a : Arguments) (name : Text) : Option Text :=
  a.options.reverse.lookup name

/-- Whether an option is given. -/
def has (a : Arguments) (name : Text) : Bool :=
  (a.value? name).isSome

end Arguments

/-- The options of a group of letters, and the last one if it still waits for its value. -/
def letters? (flags : List Flag) : Text → Option (List (Text × Text) × Option Text)
  | [] => some ([], none)
  | c :: cs =>
    match flags.find? fun f => f.short = some c with
    | none => none
    | some f =>
      if f.takesValue then
        if cs.isEmpty then some ([], some f.long) else some ([(f.long, cs)], none)
      else (letters? flags cs).map fun l => ((f.long, []) :: l.1, l.2)

/-- What one argument gives: an option, perhaps with its value, a group of letters, or neither. -/
inductive Item
  | option (name : Text) (value : Text)
  /-- An option whose value is the next argument. -/
  | waiting (before : List (Text × Text)) (name : Text)
  | group (options : List (Text × Text))
  | other
  /-- The end of the options. -/
  | stop
  | mistake

/-- What an argument gives. -/
def item (flags : List Flag) (argument : Text) : Item :=
  if argument = "--" then .stop
  else if argument.head? = some '-' && 1 < argument.length then
    let (name, value) := Text.cutAt '=' argument
    match flags.find? (fun f => f.long = name), value with
    | some f, some v => if f.takesValue then .option f.long v else .mistake
    | some f, none => if f.takesValue then .waiting [] f.long else .option f.long []
    | none, _ =>
      if Text.startsWith "--" argument then .mistake
      else
        match letters? flags (argument.drop 1) with
        | some (options, some name) => .waiting options name
        | some (options, none) => .group options
        | none => .mistake
  else .other

/-- The arguments of a command with the given options. -/
def arguments? (flags : List Flag) : List Text → Option Arguments
  | [] => some {}
  | argument :: rest =>
    match item flags argument, rest with
    | .stop, rest => some { others := rest }
    | .other, rest => (arguments? flags rest).map fun a => { a with others := argument :: a.others }
    | .option name value, rest => (arguments? flags rest).map (Arguments.withOption name value)
    | .group options, rest =>
      (arguments? flags rest).map fun a => { a with options := options ++ a.options }
    | .waiting before name, value :: rest =>
      (arguments? flags rest).map fun a =>
        { a with options := before ++ (name, value) :: a.options }
    | .waiting _ _, [] => none
    | .mistake, _ => none

/-! ### Commands -/

/-- What is to be done. -/
inductive Command
  /-- Writes the declarations of a document, and the configuration of a linter. -/
  | build (source output settings lint : Option Text)
  /-- Translates the type of a member. -/
  | translate (type name : Text) (isStatic mayBeConstructor : Bool) (owner settings : Option Text)
  /-- Checks the links of a document. -/
  | checkLinks (source settings : Option Text)
  | help
deriving Repr

/-- The option that asks for help. -/
def helpFlag : Flag := { long := "--help", takesValue := false }

/-- The option that names a file of settings. -/
def settingsFlag : Flag := { long := "--config" }

/-- The option that asks for more messages. -/
def verboseFlag : Flag := { long := "--verbose", short := some 'v', takesValue := false }

/-- The options of the command that builds. -/
def buildFlags : List Flag := [
  { long := "--output", short := some 'o' }, settingsFlag, { long := "--lint-config" },
  verboseFlag, helpFlag]

/-- The options of the command that translates. -/
def translateFlags : List Flag := [
  { long := "--name", short := some 'n' }, { long := "--static", takesValue := false },
  { long := "--constructor", takesValue := false }, { long := "--owner" }, settingsFlag, helpFlag]

/-- The options of the command that checks links. -/
def checkFlags : List Flag := [settingsFlag, verboseFlag, helpFlag]

/-- The command that builds, with the given arguments. -/
def build? (a : Arguments) : Option Command :=
  if a.has "--help" then some .help
  else if 1 < a.others.length then none
  else
    some (.build a.others.head? (a.value? "--output") (a.value? "--config")
      (a.value? "--lint-config"))

/-- The command that translates, with the given arguments. -/
def translate? (a : Arguments) : Option Command :=
  if a.has "--help" then some .help
  else
    match a.others, a.value? "--name" with
    | [type], some name =>
      some (.translate type name (a.has "--static") (a.has "--constructor") (a.value? "--owner")
        (a.value? "--config"))
    | _, _ => none

/-- The command that checks links, with the given arguments. -/
def check? (a : Arguments) : Option Command :=
  if a.has "--help" then some .help
  else if 1 < a.others.length then none
  else some (.checkLinks a.others.head? (a.value? "--config"))

/-- The command with a name and arguments. -/
def named? (name : Text) (rest : List Text) : Option Command :=
  if name = "build" then (arguments? buildFlags rest).bind build?
  else if name = "translate" then (arguments? translateFlags rest).bind translate?
  else if name = "check-urls" then (arguments? checkFlags rest).bind check?
  else none

/-- The command that a command line gives; there is none if it is malformed. -/
def command? : List Text → Option Command
  | [] => none
  | name :: rest =>
    if name = "--help" then some .help
    else if name = "--" then
      match rest with
      | [] => none
      | name :: rest => named? name rest
    else named? name rest

/-- The file of settings that a command names. -/
def Command.settings : Command → Option Text
  | .build _ _ settings _ => settings
  | .translate _ _ _ _ _ settings => settings
  | .checkLinks _ settings => settings
  | .help => none

/-- The place of the document that a command is about, under some settings. -/
def Command.source? (settings : Settings) : Command → Option Text
  | .build source _ _ _ => some (settings.sourceOf source)
  | .checkLinks source _ => some (settings.sourceOf source)
  | .translate .. | .help => none

/-! ### Results -/

/-- A message to the user. -/
inductive Notice
  | failed (message : Text)
  | wroteDeclarations (count : Nat) (path : Text)
  | wroteLint (path : Text)
  | allResolve (pages : Nat)
  | invalidLinks (reports : List Link.Report)
deriving Repr

namespace Notice

/-- A text between tags that name its colour. -/
def coloured (colour t : Text) : Text :=
  '[' :: colour ++ ']' :: t ++ "[/" ++ colour ++ [']']

/-- The line of a message, where `paint` puts a text in a colour; a list of invalid links is a
table. -/
def line? (paint : Text → Text → Text) : Notice → Option Text
  | .failed message => some (paint "red" ("Error: " ++ message))
  | .wroteDeclarations count path =>
    some (paint "green" ("Wrote " ++ Text.ofNat count ++ " declarations to:") ++ ' ' :: path)
  | .wroteLint path => some (paint "green" "Wrote lint configuration to:" ++ ' ' :: path)
  | .allResolve pages =>
    some (paint "green" ("All links on " ++ Text.ofNat pages ++ " pages resolve."))
  | .invalidLinks _ => none

/-- The heading of the table of invalid links. -/
def tableTitle : Text := "Invalid Links"

/-- The names of its columns. -/
def tableColumns : List Text := ["Page", "Problem"]

/-- The rows about one page. -/
def reportRows (r : Link.Report) : List (List Text) :=
  (if r.isUnreachable then [[r.page, "not an http(s) link"]] else [])
    ++ r.missing.map fun a => [r.page, '#' :: a ++ " not found"]

/-- The rows of the table of invalid links. -/
def tableRows : Notice → List (List Text)
  | .invalidLinks reports => reports.flatMap reportRows
  | _ => []

end Notice

/-- What running a command shows and writes. -/
structure Result where
  exit : Nat := 0
  output : Text := []
  notices : List Notice := []
  /-- The files that are written, with their content. -/
  written : Table Text := []
  /-- The failure that no message tells of. -/
  crash : Option Failure := none

namespace Result

/-- A command line that is malformed. -/
def misuse : Result := { exit := 2 }

/-- A run that is stopped.  Failures of the documents and the settings are told; those of values in
the wrong place are not. -/
def stopped (failure : Failure) : Result :=
  match failure with
  | .sample .. | .aliasing .. | .settings _ | .fetch _ =>
    { exit := 1, notices := [.failed (failure.message?.getD [])] }
  | _ => { exit := 1, crash := some failure }

/-- The result of a run that may be stopped. -/
def ofExcept : Except Failure Result → Result
  | .ok r => r
  | .error failure => stopped failure

end Result

/-! ### Running -/

/-- A path that is given and not empty. -/
def namedPath (path : Option Text) : Option Text :=
  path.bind fun p => if p.isEmpty then none else some p

/-- The result of writing an output. -/
def written (o : Output) (settings : Settings) (output lint : Option Text) : Result :=
  let shown : Result :=
    match namedPath output with
    | some path =>
      { notices := [.wroteDeclarations o.names.length path]
        written := [(File.plainPath path, o.text)] }
    | none => { output := o.text }
  match namedPath lint with
  | some path =>
    let content := Json.fileText (some "  ") (lintConfiguration o.names settings.reserved)
    { shown with
      notices := shown.notices ++ [.wroteLint path]
      written := Table.insert shown.written (File.plainPath path) content }
  | none => shown

/-- Runs a command that is well formed. -/
def runCommand (files : Table Text) (pages : Table Page) : Command → Except Failure Result
  | .build source output path lint => do
    let settings ← Settings.loadOrDefault files path
    let document ← Document.load settings files pages source
    let o ← (Output.ofDocument settings document).run.value
    return written o settings output lint
  | .translate type name isStatic mayBeConstructor owner path => do
    let settings ← Settings.loadOrDefault files path
    let c := settings.circumstances name ((namedPath owner).getD name)
    let s := Signature.translate { c with isStatic, mayBeConstructor } type
    return { output := s.render ++ ['\n'] }
  | .checkLinks source path => do
    let settings ← Settings.loadOrDefault files path
    let document ← Document.load settings files pages source
    let reports ← Link.check pages (.object document)
    let invalid := reports.filter fun r => !r.isValid
    if invalid.isEmpty then return { notices := [.allResolve reports.length] }
    return { exit := 1, notices := [.invalidLinks invalid] }
  | .help => return {}

/-- Runs a command line.  A file of settings that is named has to be there. -/
def run (files : Table Text) (pages : Table Page) (line : List Text) : Result :=
  match command? line with
  | none => .misuse
  | some command =>
    if command.settings.elim false fun path => !File.isPresent files path then .misuse
    else .ofExcept (runCommand files pages command)

end CommandLine

end Ambient
