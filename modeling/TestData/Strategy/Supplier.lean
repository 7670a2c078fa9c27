import TestData.Strategy.Basic

namespace TestData

/-!
# Ready-made suppliers and enhancers

Suppliers turn a site and a sequence number into a value, enhancers a finished stub
into another one.  The ones given here make the number, the site or a text visible
in the value, or fail on purpose.
-/

/-- What a supplied strategy asks for a value. -/
abbrev Supplier := Site → UInt64 → Action

namespace Supplier

/-- The content that shows a sequence number. -/
def numberContent (number : UInt64) : Content :=
  .number .u64 number.toNat

/-- The sequence number itself. -/
def number : Supplier :=
  fun _ number => .giveNew (numberContent number)

/-- A text followed by the sequence number. -/
def numbered (start : String) : Supplier :=
  fun _ number => .giveNew (.text (start ++ toString number.toNat))

/-- The sequence number and the site. -/
def describing : Supplier :=
  fun site number => .giveNew (.text (toString number.toNat ++ ": " ++ site.display))

/-- The sequence number, except for some numbers, which fail. -/
def failingOn (numbers : List Nat) : Supplier :=
  fun _ number =>
    if number.toNat ∈ numbers then
      .fail (.config ("supplier failed at " ++ toString number.toNat))
    else .giveNew (numberContent number)

/-- A list of the sequence number and a stub of the given type. -/
def pairedWith (type : TypeExpr) : Supplier :=
  fun site number =>
    .make (numberContent number) fun first =>
      .require ⟨type, site⟩ fun second => .giveNew (.list [first, second])

end Supplier

namespace Enhancer

/-- A text becomes a new text with an ending; other values stay as they are. -/
def append (ending : String) : Enhancer :=
  .custom fun _ _ value =>
    match value.text? with
    | some start => .giveNew (.text (start ++ ending))
    | none => .give value

/-- Every value is replaced by a text that tells the type and the site. -/
def describing : Enhancer :=
  .custom fun site type _ => .giveNew (.text (type.display ++ " @ " ++ site.display))

/-- Every value is refused with a message. -/
def failing (message : String) : Enhancer :=
  .custom fun site type _ => .fail (.produce type site message)

end Enhancer
end TestData
