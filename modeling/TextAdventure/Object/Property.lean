import TextAdventure.Decimal.Binary64
import TextAdventure.Handle
import TextAdventure.SortedMap

/-!
# Properties

An object and an adventure carry properties: named values, in the order of their names.
-/

namespace TextAdventure

/-- The value of a property. -/
inductive PropertyValue where
  | text (value : String)
  | integer (value : Int64)
  | float (value : Binary64)
  | boolean (value : Bool)
  | list (items : List PropertyValue)
  /-- Another object of the adventure. -/
  | object (handle : Handle)

instance : Inhabited PropertyValue := ⟨.boolean false⟩

/-- Named values, ascending by name. -/
abbrev Properties := SortedMap String PropertyValue

namespace PropertyValue

mutual

/-- The objects that a value names, from left to right. -/
def references : PropertyValue → List Handle
  | .object handle => [handle]
  | .list items => referencesList items
  | _ => []

/-- The objects that the values of a list name, from left to right. -/
def referencesList : List PropertyValue → List Handle
  | [] => []
  | item :: items => item.references ++ referencesList items

end

mutual

/-- The texts inside a value, from left to right. -/
def texts : PropertyValue → List String
  | .text value => [value]
  | .list items => textsList items
  | _ => []

/-- The texts inside the values of a list, from left to right. -/
def textsList : List PropertyValue → List String
  | [] => []
  | item :: items => item.texts ++ textsList items

end

end PropertyValue

/-- The objects that properties name, in the order of the properties. -/
def Properties.references (properties : Properties) : List Handle :=
  properties.values.flatMap PropertyValue.references

end TextAdventure
