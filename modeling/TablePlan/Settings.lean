import TablePlan.Plan.Join
import TablePlan.Toml.Document

/-!
Settings of the program, from a TOML document: the kind of joins that name none, and what is
logged. Sections and members that are not known are ignored.
-/

namespace TablePlan

structure Settings where
  /-- The default kind of join, as it is written. -/
  joinKindText : String
  logFilter : Option String
  deriving DecidableEq, Repr

inductive SettingsError where
  | fileNotFound (path : String)
  | malformed
  | unknownJoinKind (text : String)
  deriving DecidableEq, Repr

namespace SettingsError

def message : SettingsError → String
  | .fileNotFound path => s!"Config file not found: {path}"
  | .malformed => "Failed to parse config file"
  | .unknownJoinKind text =>
    s!"Invalid configuration: compile.default_join_type: unknown join type '{text}'"

end SettingsError

namespace Settings

def default : Settings := ⟨"inner", none⟩

/-- The text under a name in a section; none if the section or the member is missing. A section may
be a list of its members in order, the wanted one first. -/
def sectionText? (document : List (String × Toml.Value)) (sectionName name : String) :
    Except SettingsError (Option String) :=
  match document.lookup sectionName with
  | none | some (.moment _) | some (.array []) => .ok none
  | some (.table members) => textOf (members.lookup name)
  | some (.array (first :: _)) => textOf (some first)
  | _ => .error .malformed
where
  textOf : Option Toml.Value → Except SettingsError (Option String)
    | none => .ok none
    | some (.string text) => .ok (some text)
    | some _ => .error .malformed

def joinKind (s : Settings) : Except SettingsError JoinKind :=
  match JoinKind.ofText? s.joinKindText with
  | some kind => .ok kind
  | none => .error (.unknownJoinKind s.joinKindText)

def ofText (text : String) : Except SettingsError Settings := do
  let some document := Toml.Value.ofText? text | .error .malformed
  let kind ← sectionText? document "compile" "default_join_type"
  let filter ← sectionText? document "log" "filter"
  let settings : Settings := ⟨kind.getD default.joinKindText, filter⟩
  let _ ← settings.joinKind
  return settings

/-- The settings in a file; its text is none if there is no such file. -/
def ofFile (path : String) : (text : Option String) → Except SettingsError Settings
  | some text => ofText text
  | none => .error (.fileNotFound path)

def localPath : String := "tablesmith.toml"

/-- The settings of the named file, else those of the local file if there is one, else the defaults.
`file?` gives the text of a file. -/
def load (named : Option String) (file? : String → Option String) :
    Except SettingsError Settings :=
  match named with
  | some path => ofFile path (file? path)
  | none => match file? localPath with
    | some text => ofText text
    | none => .ok default

end Settings

end TablePlan
