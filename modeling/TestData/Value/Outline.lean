import TestData.Text.Quoted
import TestData.Value.Basic

namespace TestData

/-!
# Values as text

Short texts for values: a text value in quotes, any other object by the name of the
type of its content, and the plain text of contents that are numbers or times.
-/

/-- The name of the type that contents of a form have. -/
def Form.typeName : Form → String
  | .number kind => kind.name
  | .text => "alloc::string::String"
  | .truth => "bool"
  | .character => "char"
  | .unit => "()"
  | .list => "alloc::vec::Vec<stubr_core::value::Value>"
  | .deque => "alloc::collections::vec_deque::VecDeque<stubr_core::value::Value>"
  | .entries => "alloc::vec::Vec<(stubr_core::value::Value, stubr_core::value::Value)>"
  | .option => "core::option::Option<stubr_core::value::Value>"
  | .chain => "stubr_core::stubber::Stubber"
  | .atomicFlag => "core::sync::atomic::Atomic<bool>"
  | .atomicNumber kind => "core::sync::atomic::Atomic<" ++ kind.name ++ ">"
  | .instant => "std::time::SystemTime"
  | .duration => "core::time::Duration"
  | .made => "instance"

/-- The tag and the text of a content that is a number, a cell with one, or a time. -/
def Content.scalar? : Content → Option (String × String)
  | .number kind amount => some (kind.name, toString amount)
  | .atomicFlag flag => some ("atomic_bool", toString flag)
  | .atomicNumber kind amount => some ("atomic_" ++ kind.name, toString amount)
  | .instant seconds => some ("system_time", toString seconds)
  | .duration nanoseconds => some ("duration", toString nanoseconds)
  | _ => none

/-- The text of a value. -/
def Value.outline : Value → String
  | .null => "Value(null)"
  | .object _ (.text characters) => "Value(" ++ Text.quote characters ++ ")"
  | .object _ content => "Value(<" ++ content.form.typeName ++ ">)"

end TestData
