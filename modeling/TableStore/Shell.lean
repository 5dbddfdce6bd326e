import TableStore.Grid
import TableStore.Session.Run
import TableStore.Text.Blank
import TableStore.Text.Utf8

/-!
# The shell

The shell runs one statement given as an argument, or reads lines and runs each as a statement. A
line is read without the blanks at its ends: `exit` ends the shell, `.tables` lists the tables, a
line without anything else is passed over, and any other line is a statement.

* `Shell.Options` — the arguments.
* `Shell.Line`, `Shell.lines` — what a line asks for, and the lines of an input.
* `Shell.transcript` — what the shell writes while it reads lines, and how it ends.
* `Shell.run` — a whole run: what is written, and the exit code.
-/

namespace TableStore.Shell

/-! ## Arguments -/

/-- What the arguments ask for. -/
structure Options where
  /-- The one statement to run; without it, lines are read. -/
  statement : Option String
  /-- Whether replies are written as JSON. -/
  json : Bool
  /-- The name of the catalog, if one is given. -/
  catalog : Option String
  deriving DecidableEq, Repr

namespace Options

/-- No arguments. -/
def unset : Options :=
  ⟨none, false, none⟩

/-- Takes the one statement to run, which may be given once. -/
def withStatement? (options : Options) (text : String) : Option Options :=
  if options.statement.isSome then none else some { options with statement := some text }

/-- Takes the name of the catalog, which may be given once. -/
def withCatalog? (options : Options) (name : String) : Option Options :=
  if options.catalog.isSome then none else some { options with catalog := some name }

/-- Asks for JSON, which may be done once. -/
def withJson? (options : Options) : Option Options :=
  if options.json then none else some { options with json := true }

/-- What follows `lead` in an argument that starts with it. -/
def after? (lead argument : String) : Option String :=
  (lead.toList.isPrefixOf? argument.toList).map String.ofList

/-- What an argument asks for that holds its own value. A short option may have an equals sign
before its value. -/
def withAttached? (options : Options) (argument : String) : Option Options :=
  match after? "--execute=" argument, after? "--catalog=" argument, after? "-e" argument with
  | some text, _, _ => options.withStatement? text
  | _, some name, _ => options.withCatalog? name
  | _, _, some text => options.withStatement? ((after? "=" text).getD text)
  | _, _, _ => none

/-- Whether an argument may be the value of the option before it: it does not look like an option.
-/
def isValue (argument : String) : Bool :=
  argument == "-" || (after? "-" argument).isNone

/-- Takes arguments one by one. Two dashes alone end the options, and nothing may follow them. -/
def read (options : Options) : List String → Option Options
  | [] => some options
  | argument :: rest =>
    if argument = "--" then (if rest.isEmpty then some options else none)
    else if argument = "--json" then (options.withJson?).bind (·.read rest)
    else if argument = "-e" || argument = "--execute" || argument = "--catalog" then
      match rest with
      | [] => none
      | value :: rest =>
        if !isValue value then none
        else if argument = "--catalog" then (options.withCatalog? value).bind (·.read rest)
        else (options.withStatement? value).bind (·.read rest)
    else (options.withAttached? argument).bind (·.read rest)

/-- The catalog to start with, which is empty. -/
def start (options : Options) : Catalog :=
  .empty (options.catalog.getD "main")

end Options

/-! ## Replies -/

/-- How a reply is written: as indented JSON, or as its message and its rows. -/
def shown (json : Bool) (reply : Reply) : String :=
  if json then Json.write .indented reply.json ++ "\n"
  else
    ((reply.message.map (· ++ "\n")).getD "") ++ ((reply.rows.map (Grid.render · ++ "\n")).getD "")

/-! ## Lines -/

/-- What a line asks for. -/
inductive Line where
  /-- The line is not UTF-8. -/
  | unreadable
  | blank
  | exit
  | tables
  | statement (text : String)
  deriving DecidableEq, Repr

/-- What a line asks for, given its bytes. -/
def Line.ofBytes (bytes : List UInt8) : Line :=
  match Utf8.text? bytes with
  | none => .unreadable
  | some text =>
    let trimmed := Text.trim text
    if trimmed = "" then .blank
    else if trimmed = "exit" then .exit
    else if trimmed = ".tables" then .tables
    else .statement trimmed

/-- The lines of an input, each with the line feed that ends it. -/
def lines : List UInt8 → List (List UInt8)
  | [] => []
  | byte :: rest =>
    if byte = 0x0a then [byte] :: lines rest
    else
      match lines rest with
      | [] => [[byte]]
      | line :: others => (byte :: line) :: others

/-- What stands before each line. -/
def prompt : String := "db> "

/-- How reading lines ends. -/
inductive Ending where
  | endOfInput
  | exit
  /-- A line is not UTF-8. -/
  | unreadable
  deriving DecidableEq, Repr

/-- What comes of a line: the catalog and what is written, or the end. -/
inductive Reaction where
  | goOn (catalog : Catalog) (output : String)
  | stop (ending : Ending)

/-- What comes of a line. -/
def react (json : Bool) (catalog : Catalog) : Line → Reaction
  | .unreadable => .stop .unreadable
  | .exit => .stop .exit
  | .blank => .goOn catalog ""
  | .tables => .goOn catalog (String.join (catalog.tableNames.map (· ++ "\n")))
  | .statement text =>
    let step := catalog.execute text
    .goOn step.catalog (shown json step.reply)

/-- What is written behind the last prompt. -/
def Ending.output : Ending → String
  | .endOfInput => "\n"
  | .exit | .unreadable => ""

/-- What comes of reading lines. -/
structure Transcript where
  catalog : Catalog
  output : String
  ending : Ending

/-- Reads lines one by one, with a prompt before each and before the end of the input. -/
def transcript (json : Bool) (catalog : Catalog) : List Line → Transcript
  | [] => ⟨catalog, prompt ++ Ending.endOfInput.output, .endOfInput⟩
  | line :: rest =>
    match react json catalog line with
    | .stop ending => ⟨catalog, prompt ++ ending.output, ending⟩
    | .goOn catalog' output =>
      let others := transcript json catalog' rest
      { others with output := prompt ++ output ++ others.output }

/-! ## Runs -/

/-- What a run leaves behind. -/
structure Outcome where
  output : String
  complaint : String
  exitCode : UInt8
  deriving DecidableEq, Repr

/-- The complaint about arguments that are not understood. -/
def usage : String :=
  "usage: [-e SQL] [--json] [--catalog NAME]\n"

/-- Runs one statement; the exit code tells whether it succeeded. -/
def runStatement (json : Bool) (catalog : Catalog) (text : String) : Outcome :=
  let reply := (catalog.execute text).reply
  ⟨shown json reply, "", if reply.success then 0 else 1⟩

/-- The complaint and the exit code of an ending. -/
def Ending.verdict : Ending → String × UInt8
  | .endOfInput | .exit => ("", 0)
  | .unreadable => ("I/O error: stream did not contain valid UTF-8\n", 1)

/-- Reads the lines of an input. -/
def runLines (json : Bool) (catalog : Catalog) (input : List UInt8) : Outcome :=
  let whole := transcript json catalog ((lines input).map Line.ofBytes)
  ⟨whole.output, whole.ending.verdict.1, whole.ending.verdict.2⟩

/-- A whole run. With a statement among the arguments the input is not read. -/
def run (arguments : List String) (input : List UInt8) : Outcome :=
  match Options.unset.read arguments with
  | none => ⟨"", usage, 2⟩
  | some options =>
    match options.statement with
    | some text => runStatement options.json options.start text
    | none => runLines options.json options.start input

end TableStore.Shell
