import TestData.Type.Basic

namespace TestData
namespace Class

/-!
# Well-known classes

The classes that the ready-made strategies serve by name.
-/

/-- The class of texts. -/
def string : Class := named "alloc::string::String"

/-- The class of the value that carries no information. -/
def unit : Class := named "()"

/-- The class of handles on a chain of strategies. -/
def chain : Class := named "stubr_core::stubber::Stubber"

def vec : Class := generic "alloc::vec::Vec" ["T"]

def vecDeque : Class := generic "alloc::collections::vec_deque::VecDeque" ["T"]

def hashSet : Class := generic "std::collections::hash::set::HashSet" ["T"]

def btreeSet : Class := generic "alloc::collections::btree::set::BTreeSet" ["T"]

def option : Class := generic "core::option::Option" ["T"]

def hashMap : Class := generic "std::collections::hash::map::HashMap" ["K", "V"]

def btreeMap : Class := generic "alloc::collections::btree::map::BTreeMap" ["K", "V"]

def atomicBool : Class := named "core::sync::atomic::Atomic<bool>"

def atomicI32 : Class := named "core::sync::atomic::Atomic<i32>"

def atomicI64 : Class := named "core::sync::atomic::Atomic<i64>"

def atomicUsize : Class := named "core::sync::atomic::Atomic<usize>"

def systemTime : Class := named "std::time::SystemTime"

def duration : Class := named "core::time::Duration"

/-- The names of the primitive classes. -/
def primitiveNames : List String :=
  ["bool", "char"] ++ NumberKind.all.map NumberKind.name

/-- The well-known classes by the short names they can be referred to by. -/
def references : List (String × Class) :=
  [("object", object), ("String", string), ("Stubber", chain), ("unit", unit),
   ("str", named "str"), ("Vec", vec), ("VecDeque", vecDeque), ("HashSet", hashSet),
   ("BTreeSet", btreeSet), ("Option", option), ("HashMap", hashMap), ("BTreeMap", btreeMap),
   ("AtomicBool", atomicBool), ("AtomicI32", atomicI32), ("AtomicI64", atomicI64),
   ("AtomicUsize", atomicUsize), ("SystemTime", systemTime), ("Duration", duration)]
  ++ primitiveNames.map fun name => (name, primitive name)

/-- The class a name refers to: a well-known class, or else a class without members. -/
def ofReference (name : String) : Class :=
  (references.lookup name).getD (named name)

end Class
end TestData
