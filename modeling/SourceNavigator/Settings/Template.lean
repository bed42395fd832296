import SourceNavigator.Settings.Load
import SourceNavigator.World.Edit

/-!
# A settings file to start from

The text of a settings file that holds every setting with its built-in value, under a comment that
tells what it is for.
-/

namespace SourceNavigator.Settings

open Data (Datum)
open SourceNavigator.Path (Route)

/-- The settings of the template with their comments, in order. -/
def templateSections : List (String × String) :=
  [("root", "Moodle source tree to navigate"), ("engine", "ripgrep settings"),
   ("limits", "Output limits"), ("source_extension", "Files shown in directory trees"),
   ("usage_directories", "Directories searched for usage examples"),
   ("log_level", "Logging level (DEBUG, INFO, WARNING, ERROR)")]

mutual

/-- The lines of an entry; `margin` stands before each of them. -/
def entryLines (margin name : String) : Datum → List String
  | .map entries => (margin ++ name ++ ":") :: mapLines (margin ++ "  ") entries
  | .list items => (margin ++ name ++ ":") :: items.map fun d => margin ++ "- " ++ d.shown
  | d => [margin ++ name ++ ": " ++ d.shown]

def mapLines (margin : String) : List (Datum × Datum) → List String
  | [] => []
  | (k, v) :: rest => entryLines margin k.shown v ++ mapLines margin rest

end

/-- The values that the template shows. -/
def templateValues : List (Datum × Datum) := (.text "root", .text "~/moodle") :: builtIn

/-- The lines of one setting of the template. -/
def templateLines (name comment : String) : List String :=
  ("# " ++ comment) :: entryLines "" name ((Datum.lookup name templateValues).getD .null) ++ [""]

def template : String :=
  Text.glueStrings "\n"
    (["# codenav configuration",
      "# The root can also be set with --moodle-path or the " ++ rootVariable ++
        " environment variable",
      ""] ++ templateSections.flatMap fun (name, comment) => templateLines name comment)

/-! ## Writing the template -/

def directoryOf (file : Route) : Route := ⟨file.anchor, file.names.dropLast⟩

def templateFailure (file : Route) : World.Trouble → Failure
  | .system e => .configuration ("Cannot write template to " ++ file.text ++ ": " ++ e.message)
  | .nulCharacter => .nulCharacter

/-- Writes the template to a route, with the directories above it: the world after that, and the
failure that it ran into, if any. -/
def writeTemplate (w : World) (file : Route) : World × Option Failure :=
  match w.ensureDir (directoryOf file) with
  | (w, some t) => (w, some (templateFailure file t))
  | (w, none) =>
    match w.putFile file (Text.Utf8.encode template.toList) with
    | .ok w => (w, none)
    | .error t => (w, some (templateFailure file t))

end SourceNavigator.Settings
