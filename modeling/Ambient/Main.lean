import Ambient.CommandLine

/-!
# The program

Reads the files that a command line names, runs it on them, and shows and writes what comes of it.
Pages are out of reach from here, so that a document has to be a file.
-/

namespace Ambient

namespace CommandLine

/-- How the program is used. -/
def usage : Text :=
  "Usage: ambient build [-o OUTPUT] [--config FILE] [--lint-config FILE] [-v] [SOURCE]\n"
    ++ "       ambient translate -n NAME [--static] [--constructor] [--owner OWNER]"
    ++ " [--config FILE] TYPE\n"
    ++ "       ambient check-urls [--config FILE] [-v] [SOURCE]"

/-- The files with the one under a path, if it can be read. -/
def withFile (files : Table Text) (path : Text) : IO (Table Text) := do
  try
    let content ← IO.FS.readFile (String.ofList path)
    return Table.insert files (File.plainPath path) content.toList
  catch _ => return files

/-- The files that a command is about: its settings and its document. -/
def filesOf (command : Command) : IO (Table Text) := do
  let files ← command.settings.elim (pure []) (withFile [])
  match Settings.loadOrDefault files command.settings with
  | .error _ => return files
  | .ok settings => (command.source? settings).elim (pure files) (withFile files)

/-- Shows a message. -/
def showNotice (n : Notice) : IO Unit :=
  match n.line? fun _ t => t with
  | some t => IO.println (String.ofList t)
  | none => do
    IO.println (String.ofList Notice.tableTitle)
    for row in Notice.tableColumns :: n.tableRows do
      IO.println (String.ofList (Text.joinWith "  " row))

/-- Writes a file and makes the directory that it is in. -/
def writeText (path content : Text) : IO Unit := do
  let directory := Text.dropEndWhile (· ≠ '/') path
  if !directory.isEmpty then IO.FS.createDirAll (String.ofList directory)
  IO.FS.writeFile (String.ofList path) (String.ofList content)

/-- Shows and writes a result. -/
def showResult (r : Result) : IO Unit := do
  for (path, content) in r.written do
    writeText path content
  IO.print (String.ofList r.output)
  for n in r.notices do
    showNotice n
  if let some failure := r.crash then
    IO.eprintln (String.ofList (failure.message?.getD "The document is malformed."))

/-- Runs a command line and gives its exit code. -/
def program (line : List Text) : IO UInt32 := do
  match command? line with
  | none =>
    IO.eprintln (String.ofList usage)
    return 2
  | some .help =>
    IO.println (String.ofList usage)
    return 0
  | some command =>
    let r := run (← filesOf command) [] line
    showResult r
    return r.exit.toUInt32

end CommandLine

end Ambient

/-- Runs the program on the arguments it is given. -/
def main (args : List String) : IO UInt32 :=
  Ambient.CommandLine.program (args.map String.toList)
