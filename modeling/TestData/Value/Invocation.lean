import TestData.Value.Basic

namespace TestData

/-!
# Invoking members

A described constructor, method or field setter is called through a function on
values.  Such a function does not run anything itself: it says what the call
comes to, and the run it is part of carries that out.  This keeps descriptors
plain data and leaves identities and notes to the store.
-/

/-- How an object was used: through a call of a method or by setting a field. -/
inductive Use where
  | call
  | set
  deriving DecidableEq, Repr, Inhabited

/-- One line in the notes of an object: the use, the member and the arguments. -/
structure Note where
  use : Use
  member : String
  arguments : List Value
  deriving Inhabited

/-- A note that is to be kept for the object with this identity. -/
structure Entry where
  identity : Nat
  note : Note
  deriving Inhabited

/--
What a call comes to: an existing value, a new object with the given content, a
note for an object (the call itself then returns a new unit), or a failure.
-/
inductive Reply where
  | existing (value : Value)
  | fresh (content : Content)
  | noted (entry : Entry)
  | failed (message : String)
  deriving Inhabited

/-- What setting a field comes to: a failure, or success with an optional note. -/
abbrev SetterReply := Except String (Option Entry)

abbrev ConstructorInvoker := List Value → Reply
abbrev MethodInvoker := Option Value → List Value → Reply
abbrev FieldSetter := Value → Value → SetterReply

namespace Invoker

/-- The identity of a value that is an instance of a described class. -/
def instanceIdentity? : Value → Option Nat
  | .object identity (.made ..) => some identity
  | _ => none

/-- Every call makes a new instance from the arguments. -/
def making (className maker : String) (arguments : List Value) : Reply :=
  .fresh (.made className maker arguments)

/-- Every call fails with the same message. -/
def failing (message : String) (_arguments : List Value) : Reply :=
  .failed message

/-- Every call hands back the same value. -/
def returning (value : Value) (_arguments : List Value) : Reply :=
  .existing value

/-- A call hands back one of its arguments. -/
def argument (index : Nat) (arguments : List Value) : Reply :=
  match arguments[index]? with
  | some value => .existing value
  | none => .failed ("no argument " ++ toString index)

/-- A call is noted at the receiver, which has to be an instance. -/
def recording (member : String) (receiver : Option Value) (arguments : List Value) : Reply :=
  match receiver.bind instanceIdentity? with
  | some identity => .noted ⟨identity, ⟨.call, member, arguments⟩⟩
  | none => .failed "receiver is not an instance"

/-- A setter that always fails with the same message. -/
def refusing (message : String) (_target _value : Value) : SetterReply :=
  .error message

/-- A setter whose use is noted at the target, which has to be an instance. -/
def recordingSetter (member : String) (target value : Value) : SetterReply :=
  match instanceIdentity? target with
  | some identity => .ok (some ⟨identity, ⟨.set, member, [value]⟩⟩)
  | none => .error "target is not an instance"

end Invoker

end TestData
