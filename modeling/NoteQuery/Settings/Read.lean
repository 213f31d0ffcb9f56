import NoteQuery.Checked
import NoteQuery.Json.Read
import NoteQuery.Settings.Basic
import NoteQuery.Text.Case

/-!
Settings from given fields and from variables of the environment. A given field counts before a
variable. The name of a variable is the field's name behind the program's name, in any letter case;
lists are written in it as JSON.
-/

namespace NoteQuery

inductive SettingsError where
  | malformedVariable
  | invalid (problems : List Problem)
  deriving Repr

namespace Settings

open Checked

def listFields : List String :=
  ["date_property_names", "date_property_substrings", "content_extensions"]

def fieldNames : List String :=
  ["log_level", "date_coercion"] ++ listFields ++ ["formula_cache_scope", "yield_every"]

def ofVariable? (program field : String) (environment : List (String × String)) : Option String :=
  (environment.reverse.find? fun (name, _) => Text.lower name == program ++ "_" ++ field).map
    Prod.snd

def fromEnvironment (program : String) (environment : List (String × String)) :
    List String → Option Entries
  | [] => some []
  | field :: fields => do
    let rest ← fromEnvironment program environment fields
    match ofVariable? program field environment with
    | none => some rest
    | some text =>
      if listFields.contains field then do
        let v ← Json.ofText? text
        some ((field, v) :: rest)
      else some ((field, .text text) :: rest)

def keeps : List (String × Keep) := [("query", .query), ("persistent", .persistent)]

def ofEntries (entries : Entries) : Checked Settings :=
  let d : Settings := {}
  (both (fieldOr entries ["log_level"] d.logLevel text)
    (both (fieldOr entries ["date_coercion"] d.dateCoercion truth)
      (both (fieldOr entries ["date_property_names"] d.dateNames (list text))
        (both (fieldOr entries ["date_property_substrings"] d.dateFragments (list text))
          (both (fieldOr entries ["content_extensions"] d.extensions (list text))
            (both (fieldOr entries ["formula_cache_scope"] d.keep (choice keeps))
              (fieldOr entries ["yield_every"] d.yieldEvery (wholeFrom 1)))))))).map
    fun (logLevel, dateCoercion, dateNames, dateFragments, extensions, keep, yieldEvery) =>
      { logLevel, dateCoercion, dateNames, dateFragments, extensions, keep, yieldEvery }

def read (program : String) (given : Entries) (environment : List (String × String)) :
    Except SettingsError Settings :=
  match fromEnvironment program environment fieldNames with
  | none => .error .malformedVariable
  | some found =>
    match ofEntries (Entries.putAll found given) with
    | .ok s => .ok s
    | .error problems => .error (.invalid problems)

def entries (s : Settings) : Entries := [
  ("log_level", .text s.logLevel),
  ("date_coercion", .bool s.dateCoercion),
  ("date_property_names", .texts s.dateNames),
  ("date_property_substrings", .texts s.dateFragments),
  ("content_extensions", .texts s.extensions),
  ("formula_cache_scope", .text s.keep.text),
  ("yield_every", .int s.yieldEvery)]

end Settings

end NoteQuery
