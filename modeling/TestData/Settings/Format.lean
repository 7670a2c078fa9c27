import TestData.Settings.Basic
import TestData.Text.Json

namespace TestData

/-!
# Settings as JSON

Settings are written as a JSON object with two spaces of indent, in a fixed order
and without what is not set.  Reading is more tolerant: members may come in any
order and unknown ones are passed over, null means "not set", an enumerated value
may be wrapped in an object, and the four values may also come as an array.
-/

namespace Settings

open Text (Json)

/-! ## Reading -/

/-- The text of a string value. -/
def readText? : Json → Option String
  | .string written => (Json.decode? written).map String.ofList
  | _ => none

/-- The name of an enumerated value, by itself or as an object that maps it to null. -/
def readName? : Json → Option String
  | .string written => (Json.decode? written).map String.ofList
  | .object [(written, .null)] => (Json.decode? written).map String.ofList
  | _ => none

/-- A natural number of at most 64 bits, written as an integer. -/
def readWord? : Json → Option UInt64
  | .number written => do
      let value ← Json.natural? written
      if value < UInt64.size then return .ofNat value else none
  | _ => none

/-- A value that may be null for "not set". -/
def readOptional? {α : Type} (read : Json → Option α) : Json → Option (Option α)
  | .null => some none
  | value => (read value).map some

def readBaseline? (value : Json) : Option Baseline :=
  (readName? value).bind Baseline.ofName?

def readMode? (value : Json) : Option OptionalMode :=
  (readName? value).bind OptionalMode.ofName?

/-- The only value of a name; `some none` if there is no value, nothing if there are several. -/
def member? (members : List (String × Json)) (name : String) : Option (Option Json) :=
  match members.filter fun entry => entry.1 == name with
  | [] => some none
  | [(_, value)] => some (some value)
  | _ => none

/-- The value of a name read as asked for, or a default if there is no value. -/
def readMember? {α : Type} (members : List (String × Json)) (name : String) (default : α)
    (read : Json → Option α) : Option α := do
  match ← member? members name with
  | some value => read value
  | none => return default

/-- The members of an object with their names decoded. -/
def decodeNames? : List (List Char × Json) → Option (List (String × Json))
  | [] => some []
  | (written, value) :: members => do
      let name ← Json.decode? written
      return (String.ofList name, value) :: (← decodeNames? members)

/-- The settings a JSON value stands for. -/
def ofJson? : Json → Option Settings
  | .object members => do
      let members ← decodeNames? members
      let baseline ← readMember? members "baseline" .full readBaseline?
      let size ← readMember? members "collection_size" none (readOptional? readWord?)
      let mode ← readMember? members "optional_mode" none (readOptional? readMode?)
      let seed ← readMember? members "random_seed" none (readOptional? readWord?)
      return ⟨baseline, size, mode, seed⟩
  | .array [baseline, size, mode, seed] => do
      return ⟨← readBaseline? baseline, ← readOptional? readWord? size,
        ← readOptional? readMode? mode, ← readOptional? readWord? seed⟩
  | _ => none

/-- Settings are read as JSON. -/
def json : Reader := fun text =>
  (Json.ofString? text).bind ofJson?

/-- The settings a JSON text stands for. -/
def parse (text : String) : Except StubError Settings :=
  json.parse text

/-! ## Writing -/

/-- A quoted name; the names that are written need no escapes. -/
def quoted (name : String) : String :=
  "\"" ++ name ++ "\""

/-- The members that are set, in order, with their values as written. -/
def members (settings : Settings) : List (String × String) :=
  [("baseline", quoted settings.baseline.name)]
    ++ (settings.collectionSize.map fun size => ("collection_size", toString size.toNat)).toList
    ++ (settings.optionalMode.map fun mode => ("optional_mode", quoted mode.name)).toList
    ++ (settings.randomSeed.map fun seed => ("random_seed", toString seed.toNat)).toList

/-- The text of settings. -/
def render (settings : Settings) : String :=
  "\x7b\n" ++ ",\n".intercalate (settings.members.map fun (name, value) =>
    "  " ++ quoted name ++ ": " ++ value) ++ "\n\x7d"

end Settings
end TestData
