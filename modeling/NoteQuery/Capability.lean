import NoteQuery.FileTree
import NoteQuery.Json.Read
import NoteQuery.Value.Text

/-!
What companions of a vault can do, told by their names and versions. A fixed table names them, or
the files in a vault's configuration folder do: one lists the plugins that are enabled, and each
installed plugin has a manifest. Files that cannot be read say nothing.
-/

namespace NoteQuery

abbrev CapabilityTable := List (String × Option String)

namespace CapabilityTable

def has (t : CapabilityTable) (name : String) : Bool := (t.lookup name).isSome

def version? (t : CapabilityTable) (name : String) : Option String := (t.lookup name).join

end CapabilityTable

/-- Plugins as the files of a configuration folder tell. -/
structure Plugins where
  disk : Disk
  folder : Path

structure PluginStatus where
  name : String
  installed : Bool
  enabled : Bool
  version : Option String
  deriving DecidableEq, Repr

namespace Plugins

def ofVault (disk : Disk) (vault configFolder : String) : Plugins :=
  ⟨disk, (Path.ofText vault).join (Path.ofText configFolder)⟩

def json? (p : Plugins) (path : Path) : Option Value :=
  (p.disk.readText path).toOption.bind Json.ofText?

def enabled (p : Plugins) : List String :=
  match p.json? (p.folder.child "community-plugins.json") with
  | some (.list items) =>
    (items.filterMap fun v =>
      match v with
      | .text name => some name
      | _ => none).eraseDups
  | _ => []

def manifest? (p : Plugins) (name : String) : Option Entries :=
  match p.json? (((p.folder.child "plugins").join (Path.ofText name)).child "manifest.json") with
  | some (.map entries) => some entries
  | _ => none

def has (p : Plugins) (name : String) : Bool := p.enabled.contains name

def version? (p : Plugins) (name : String) : Option String :=
  if p.has name then
    match ((p.manifest? name).getD []).get "version" with
    | .null => none
    | v => v.plainText.toOption
  else none

def status (p : Plugins) (name : String) : PluginStatus where
  name := name
  installed := (p.manifest? name).isSome
  enabled := p.has name
  version := p.version? name

end Plugins

end NoteQuery
