import TestData.Files.System
import TestData.Settings.Format

namespace TestData
namespace Settings

/-!
# Finding settings

Settings are looked for in a directory and then in the directories above it.  The
nearest directory with a settings file decides; a file that cannot be used is an
error and never a reason to look elsewhere.  In what form the settings are written does
not matter for the search.
-/

/-- The names of settings files, in the order in which a directory is searched. -/
def fileNames : List String :=
  [".stubr.json", "stubr.json"]

/-- The settings file in a directory. -/
def fileIn? (files : FileSystem) (directory : Path) : Option Path :=
  (fileNames.map directory.join).find? files.isFile

/-- The settings file for a start directory: that of the nearest directory that has one. -/
def find? (files : FileSystem) (start : Path) : Option Path :=
  start.ancestors.findSome? (fileIn? files)

/-- The settings in a file. -/
def Reader.load (reader : Reader) (files : FileSystem) (path : Path) :
    Except StubError Settings := do
  reader.parse (← files.readText path)

/-- The settings for a start directory; without a settings file nothing is set. -/
def Reader.discover (reader : Reader) (files : FileSystem) (start : Path) :
    Except StubError Settings :=
  match find? files start with
  | some path => reader.load files path
  | none => .ok default

/-- A new chain by the settings for a start directory. -/
def Reader.chainFor (reader : Reader) (files : FileSystem) (start : Path) :
    Except StubError (Step Chain) :=
  (reader.discover files start).map chain

/-- The settings in a JSON file. -/
def load (files : FileSystem) (path : Path) : Except StubError Settings :=
  json.load files path

/-- Write settings to a file. -/
def save (settings : Settings) (tree : FileTree) (path : Path) : Except StubError FileTree :=
  tree.writeText path settings.render

/-- A new chain by the JSON settings for a start directory. -/
def chainFor (files : FileSystem) (start : Path) : Except StubError (Step Chain) :=
  json.chainFor files start

end Settings
end TestData
