import NoteQuery.Capability
import NoteQuery.Command.Arguments
import NoteQuery.Console.Markup
import NoteQuery.Console.Table
import NoteQuery.Note.Vault
import NoteQuery.Query.DefinitionText
import NoteQuery.Query.Export
import NoteQuery.Query.Run
import NoteQuery.Reference
import NoteQuery.Settings.Read

/-!
The command line: it queries the notes of a vault and shows a table, writes the result in one of the
export formats, lists the functions of expressions, or tells which plugins a vault has. A command
says what it shows and how it ends; a result that goes to a file comes along with it. Failures that
have a wording are told, all others only end the command.
-/

namespace NoteQuery

inductive Command where
  | query (vault base : String) (view : Option String) (limit page pageSize : Option Nat)
  | write (vault base format : String) (view output : Option String)
  | functions
  | plugins (vault : String) (names : List String) (configFolder : String)
  deriving Repr

namespace Command

/-- What the program calls itself; its variables begin with it. -/
def program : String := "notebase"

def version : String := "0.1.0"

def consoleWidth : Nat := 400

inductive Start where
  | misused
  | version
  | help
  | command (logLevel : Option String) (name : String) (arguments : List String)
  deriving Repr

def helpOption : OptionName := ⟨["--help"], false⟩

def startOptions : List OptionName :=
  [⟨["--log-level"], true⟩, ⟨["--version", "-v"], false⟩, helpOption]

def names : List String := ["query", "export", "functions", "capabilities"]

def Start.ofArguments (arguments : List String) : Start :=
  match readArguments startOptions false arguments with
  | none => .misused
  | some a =>
    if a.has "--version" then .version
    else if a.has "--help" then .help
    else
      match a.rest with
      | [] => .misused
      | name :: rest =>
        if names.contains name then .command (a.value? "--log-level") name rest else .misused

private def count? (a : Arguments) (name : String) : Option (Option Nat) :=
  match a.value? name with
  | none => some none
  | some text => (countOf? text).map some

private def query? (a : Arguments) : Option Command := do
  let limit ← count? a "--limit"
  let page ← count? a "--page"
  let pageSize ← count? a "--page-size"
  match a.rest with
  | [vault, base] => some (.query vault base (a.value? "--view") limit page pageSize)
  | _ => none

private def write? (a : Arguments) : Option Command :=
  match a.rest with
  | [vault, base] =>
    some (.write vault base ((a.value? "--format").getD "csv") (a.value? "--view")
      (a.value? "--output"))
  | _ => none

private def plugins? (a : Arguments) : Option Command :=
  match a.rest with
  | vault :: name :: names =>
    some (.plugins vault (name :: names) ((a.value? "--config-dir").getD ".obsidian"))
  | _ => none

def shape (name : String) : List OptionName × (Arguments → Option Command) :=
  match name with
  | "query" =>
    ([⟨["--view"], true⟩, ⟨["--limit"], true⟩, ⟨["--page"], true⟩, ⟨["--page-size"], true⟩], query?)
  | "export" =>
    ([⟨["--format", "-f"], true⟩, ⟨["--view"], true⟩, ⟨["--output", "-o"], true⟩], write?)
  | "functions" => ([], fun a => if a.rest.isEmpty then some .functions else none)
  | _ => ([⟨["--config-dir"], true⟩], plugins?)

/-- The command of a name with its own arguments; none when they are misused. `none` inside stands
for a plea for help. -/
def ofArguments? (name : String) (arguments : List String) : Option (Option Command) :=
  let (options, make) := shape name
  match readArguments (helpOption :: options) true arguments with
  | none => none
  | some a => if a.has "--help" then some none else (make a).map some

/-- How a command ends: its exit code, what it shows, and a text for a file. -/
structure Outcome where
  exitCode : Nat
  output : String
  file : Option (Path × String) := none
  deriving Repr

namespace Outcome

def misused : Outcome := ⟨2, "", none⟩

def broken : Outcome := ⟨1, "", none⟩

def ofMarkup (exitCode : Nat) (text : String) : Outcome :=
  match Markup.shown? text with
  | some shown => ⟨exitCode, Console.shownText consoleWidth shown, none⟩
  | none => broken

def failed (message : String) : Outcome := ofMarkup 1 ("[red]Error: " ++ message ++ "[/red]")

def ofTable (t : Console.Table) : Option String := do
  let title ← Markup.shown? t.title
  let header ← t.header.mapM Markup.shown?
  let rows ← t.rows.mapM fun row => row.mapM Markup.shown?
  some (Console.Table.text ⟨title, header, rows⟩)

def shown (t : Console.Table) (below : List String) : Outcome :=
  match ofTable t with
  | some text => ⟨0, text ++ String.join (below.map (Console.shownText consoleWidth)), none⟩
  | none => broken

/-- Puts the file on a disk. A file that cannot be there breaks the command. -/
def store (o : Outcome) (disk : Disk) : Outcome × Disk :=
  match o.file with
  | none => (o, disk)
  | some (path, text) =>
    match disk.write? path text with
    | some disk => (o, disk)
    | none => (broken, disk)

end Outcome

inductive Trouble where
  | told (message : String)
  | untold
  deriving DecidableEq, Repr

namespace Trouble

def outcome : Trouble → Outcome
  | told message => .failed message
  | untold => .broken

/-- A fault is told only if a value has no form of the kind that is asked for; that is so for whole
numbers too long to be written. -/
def ofFault : Fault → Trouble
  | .badValue => told ("Exceeds the limit (" ++ toString Numeral.maxDigits ++
      " digits) for integer string conversion; use sys.set_int_max_str_digits() to increase the limit")
  | _ => untold

def ofFailure : Failure → Trouble
  | .error e => told e.message
  | .fault f => ofFault f

def ofRunError : RunError → Trouble
  | .source (.frontMatter _) => untold
  | .source (.fault f) => ofFault f
  | .failed f => ofFailure f
  | e => told e.message

end Trouble

structure Surface where
  disk : Disk
  environment : List (String × String)
  present : Moment

def readDefinition (disk : Disk) (base : String) : Except Trouble Definition :=
  let path := Path.ofText base
  match disk.readText path with
  | .error (.notText e) => .error (.told e.message)
  | .error failure =>
    .error (.told (DefinitionError.unreadable path.text (failure.message path.text)).message)
  | .ok text =>
    match Definition.ofText text with
    | .ok d => .ok d
    | .error (.definition e) => .error (.told e.message)
    | .error (.failure _) => .error .untold

def runQuery (s : Surface) (settings : Settings) (vault base : String) (view : Option String)
    (options : Options) : Except Trouble ResultSet := do
  let definition ← readDefinition s.disk base
  let source := (Vault.ofFolder vault settings.extensions).source s.disk
  match ((definition.run view settings options s.present source none).run []).1 with
  | .ok result => .ok result
  | .error e => .error (.ofRunError e)

/-- The columns of a result: its view's, or the properties of its first document. -/
def columnsOf (r : ResultSet) : List String := r.columns (r.preferred {})

def tableOf (r : ResultSet) (limit : Option Nat) : Except Fault (Console.Table × String) := do
  let documents := match limit with
    | some n => r.documents.take n
    | none => r.documents
  let columns := columnsOf r
  let rows ← documents.mapM fun d => do
    .ok (d.path :: (← columns.mapM fun c => (d.properties.get c).display))
  let title := (r.view.map View.name).getD "All documents"
  let skipped := if r.skipped = 0 then "" else " (" ++ toString r.skipped ++ " skipped)"
  .ok (⟨title, "Path" :: columns, rows⟩,
    toString documents.length ++ " of " ++ toString r.total ++ " matching documents" ++ skipped)

def functionTable : Console.Table where
  title := "Expression functions"
  header := ["Category", "Syntax", "Description"]
  rows := Reference.Category.all.flatMap fun category =>
    (Reference.ofCategory category).map fun f => [category.name, f.usage, f.description]

def pluginTable (plugins : Plugins) (names : List String) : Console.Table where
  title := "Plugins"
  header := ["Plugin", "Installed", "Enabled", "Version"]
  rows := names.map fun name =>
    let status := plugins.status name
    let mark (holds : Bool) : String := if holds then "[green]yes[/green]" else "no"
    [status.name, mark status.installed, mark status.enabled, status.version.getD ""]

/-- Options for a page; its numbers have been checked. -/
private def pageOptions (page pageSize : Option Nat) : Except Trouble Options :=
  match Options.ofParts (page.map Int.ofNat) (pageSize.map Int.ofNat) none none with
  | .ok options => .ok options
  | .error e => .error (.told e.message)

private def showQuery (s : Surface) (settings : Settings) (vault base : String)
    (view : Option String) (limit page pageSize : Option Nat) : Outcome :=
  match do runQuery s settings vault base view (← pageOptions page pageSize) with
  | .error trouble => trouble.outcome
  | .ok result =>
    match tableOf result limit with
    | .ok (table, below) => .shown table [below]
    | .error _ => .broken

private def showResult (s : Surface) (settings : Settings) (vault base format : String)
    (view output : Option String) : Outcome :=
  match Format.all.find? (·.name == Text.lower format) with
  | none => .failed (ExportError.unsupportedText format)
  | some kind =>
    match runQuery s settings vault base view {} with
    | .error trouble => trouble.outcome
    | .ok result =>
      match result.render kind (columnsOf result), output with
      | .error f, _ => (Trouble.ofFault f).outcome
      | .ok text, none => ⟨0, text ++ "\n", none⟩
      | .ok text, some output =>
        let path := Path.ofText output
        let told := Outcome.ofMarkup 0 ("Exported " ++ toString result.documents.length ++
          " documents to " ++ path.text)
        { told with file := some (path, text ++ "\n") }

private def showPlugins (s : Surface) (vault : String) (names : List String)
    (configFolder : String) : Outcome :=
  let path := Path.ofText vault
  if s.disk.isFolder path then
    .shown (pluginTable (.ofVault s.disk vault configFolder) names) []
  else .failed (StoreError.noVault path.text).message

def outcome (s : Surface) (settings : Settings) : Command → Outcome
  | .query vault base view limit page pageSize =>
    showQuery s settings vault base view limit page pageSize
  | .write vault base format view output =>
    showResult s settings vault base format view output
  | .functions => .shown functionTable []
  | .plugins vault names configFolder => showPlugins s vault names configFolder

def logLevels : List String :=
  ["TRACE", "DEBUG", "INFO", "SUCCESS", "WARNING", "ERROR", "CRITICAL"]

def usage : String :=
  "Usage: " ++ program ++ " [OPTIONS] COMMAND [ARGS]...\n\nCommands: " ++
    ", ".intercalate names ++ "\n"

def run (s : Surface) (arguments : List String) : Outcome :=
  match Start.ofArguments arguments with
  | .misused => .misused
  | .version => ⟨0, program ++ " version: " ++ version ++ "\n", none⟩
  | .help => ⟨0, usage, none⟩
  | .command logLevel name rest =>
    match Settings.read program [] s.environment with
    | .error _ => .broken
    | .ok settings =>
      let level := match logLevel with
        | some level => if level.isEmpty then settings.logLevel else level
        | none => settings.logLevel
      if logLevels.contains level then
        match ofArguments? name rest with
        | none => .misused
        | some none => ⟨0, usage, none⟩
        | some (some command) => command.outcome s settings
      else .broken

end Command

end NoteQuery
