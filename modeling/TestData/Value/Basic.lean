namespace TestData

/-!
# Stub values

The data a stub is made of.  A value is either null or an object, and an object
has an identity besides its content: two values are the same value exactly when
they have the same identity, whatever their contents are.  Identities are plain
numbers, handed out by the store of a run.
-/

/-- The numeric primitives a class descriptor can name. -/
inductive NumberKind where
  | i8 | i16 | i32 | i64 | i128 | isize
  | u8 | u16 | u32 | u64 | u128 | usize
  | f32 | f64
  deriving DecidableEq, Repr, Inhabited

/-- The name under which a class descriptor refers to the kind. -/
def NumberKind.name : NumberKind → String
  | .i8 => "i8" | .i16 => "i16" | .i32 => "i32" | .i64 => "i64" | .i128 => "i128"
  | .isize => "isize"
  | .u8 => "u8" | .u16 => "u16" | .u32 => "u32" | .u64 => "u64" | .u128 => "u128"
  | .usize => "usize"
  | .f32 => "f32" | .f64 => "f64"

/-- All numeric kinds, in the order of their names in the documentation. -/
def NumberKind.all : List NumberKind :=
  [.i8, .i16, .i32, .i64, .i128, .isize, .u8, .u16, .u32, .u64, .u128, .usize, .f32, .f64]

/-- The numeric kind of a name, if there is one. -/
def NumberKind.ofName? (name : String) : Option NumberKind :=
  NumberKind.all.find? fun kind => kind.name = name

mutual

/-- A stub value: null, or an object with an identity and a content. -/
inductive Value where
  | null
  | object (identity : Nat) (content : Content)

/--
What an object holds.  `made` is an instance of a described class: it knows the
member that made it and the arguments it was made from.  `chain` is a handle on
a chain of strategies and shows only how many strategies the chain has.
-/
inductive Content where
  | number (kind : NumberKind) (amount : Int)
  | text (characters : String)
  | truth (flag : Bool)
  | character (symbol : Char)
  | unit
  | list (items : List Value)
  | deque (items : List Value)
  | entries (pairs : List (Value × Value))
  | option (item : Option Value)
  | chain (length : Nat)
  | atomicFlag (flag : Bool)
  | atomicNumber (kind : NumberKind) (amount : Int)
  | instant (seconds : Nat)
  | duration (nanoseconds : Nat)
  | made (className maker : String) (arguments : List Value)

end

instance : Inhabited Value := ⟨.null⟩
instance : Inhabited Content := ⟨.unit⟩

/-- The form of a content: what it is, without what is in it. -/
inductive Form where
  | number (kind : NumberKind)
  | text
  | truth
  | character
  | unit
  | list
  | deque
  | entries
  | option
  | chain
  | atomicFlag
  | atomicNumber (kind : NumberKind)
  | instant
  | duration
  | made
  deriving DecidableEq, Repr, Inhabited

def Content.form : Content → Form
  | .number kind _ => .number kind
  | .text _ => .text
  | .truth _ => .truth
  | .character _ => .character
  | .unit => .unit
  | .list _ => .list
  | .deque _ => .deque
  | .entries _ => .entries
  | .option _ => .option
  | .chain _ => .chain
  | .atomicFlag _ => .atomicFlag
  | .atomicNumber kind _ => .atomicNumber kind
  | .instant _ => .instant
  | .duration _ => .duration
  | .made .. => .made

namespace Value

/-- The identity of an object; null has none. -/
def identity? : Value → Option Nat
  | .null => none
  | .object identity _ => some identity

/-- The content of an object; null has none. -/
def content? : Value → Option Content
  | .null => none
  | .object _ content => some content

def isNull : Value → Bool
  | .null => true
  | .object .. => false

/-- Two values are the same if both are null or both are the one object. -/
def same (a b : Value) : Bool :=
  a.identity? == b.identity?

@[simp]
theorem same_refl (a : Value) : a.same a = true := by
  simp [same]

theorem same_comm (a b : Value) : a.same b = b.same a := by
  simp only [same]
  exact Bool.beq_comm

theorem same_trans {a b c : Value} (first : a.same b = true) (second : b.same c = true) :
    a.same c = true := by
  simp only [same, beq_iff_eq] at *
  exact first.trans second

/-- The form of an object's content; null has none. -/
def form? (value : Value) : Option Form :=
  value.content?.map Content.form

/-- The text a value holds, if it holds a text. -/
def text? : Value → Option String
  | .object _ (.text characters) => some characters
  | _ => none

end Value

end TestData
