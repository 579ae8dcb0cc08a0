import TextAdventure.Decimal.Scaling
import TextAdventure.Json.Reader
import TextAdventure.Object.Basic

/-!
# Objects from documents

Reading inverts the document of an object and is more tolerant: members may come in any order,
unknown members are skipped, and a record may also be given as the array of its fields. A value that
is read may not be nested deeper than 127 containers; what is skipped is not looked at.
-/

namespace TextAdventure

namespace Json

/-- The text of a document that is one. -/
def toString? : Json → Option String
  | .string raw => (unescape raw).map String.ofList
  | _ => none

/-- The number of a document that is a natural number below a bound. -/
def toNat? (bound : Nat) : Json → Option Nat
  | .number literal => do
    let n ← literal.whole?
    if literal.negative = false ∧ n < bound then some n else none
  | _ => none

/-- The items of an array, each read the same way. -/
def toList? {α : Type} (read : Json → Option α) : Json → Option (List α)
  | .array items => items.mapM read
  | _ => none

/-- Null, or a value. -/
def toOption? {α : Type} (read : Json → Option α) : Json → Option (Option α)
  | .null => some none
  | value => (read value).map some

/-- The members of an object with their names and values read; a repeated name keeps its last
value. -/
def toMap? {κ β : Type} [Ord κ] [Std.TransOrd κ] (readName : List Char → Option κ)
    (readValue : Json → Option β) : Json → Option (SortedMap κ β)
  | .object members => do
    let entries ← members.mapM fun (name, value) => do
      return (← readName name, ← readValue value)
    return SortedMap.ofList entries
  | _ => none

/-- One of a set of names, given as a text, or as the only member of an object whose value is
null. -/
def toName? {α : Type} (ofName? : String → Option α) : Json → Option α
  | .string raw => (unescape raw).bind fun name => ofName? (String.ofList name)
  | .object [(raw, .null)] => (unescape raw).bind fun name => ofName? (String.ofList name)
  | _ => none

/-- The values of the members of that name. -/
def valuesOf (name : String) (members : List (String × Json)) : List Json :=
  members.filterMap fun (other, value) => if other = name then some value else none

/-- The fields of a record, which are named members of an object or the items of an array. A missing
member is `none`; a repeated one makes the record unreadable. -/
def fields? (names : List String) : Json → Option (List (Option Json))
  | .array items => if items.length = names.length then some (items.map some) else none
  | .object members => do
    let members ← members.mapM fun (raw, value) => do
      return (String.ofList (← unescape raw), value)
    names.mapM fun name =>
      match valuesOf name members with
      | [] => some none
      | [value] => some (some value)
      | _ => none
  | _ => none

end Json

namespace PropertyValue

/-- Integers lie below this number, and not below minus this number. -/
def integerBound : Nat := 0x8000000000000000

mutual

/-- Reads the value of a property that is nested at most `depth` lists deep. A number without point
and exponent that fits is an integer and any other number is a float; minus zero is a float. -/
def ofDocument? : (depth : Nat) → Json → Option PropertyValue
  | _, .string raw => (Json.unescape raw).map fun text => .text (String.ofList text)
  | _, .number literal =>
    match literal.whole?, literal.negative with
    | some n, false =>
      if n < integerBound then some (.integer (Int64.ofInt n)) else literal.toBinary64?.map .float
    | some n, true =>
      if 0 < n ∧ n ≤ integerBound then some (.integer (Int64.ofInt (-n)))
      else literal.toBinary64?.map .float
    | none, _ => literal.toBinary64?.map .float
  | _, .bool value => some (.boolean value)
  | depth + 1, .array items => (ofDocuments? depth items).map .list
  | 0, .array _ => none
  | _, .null => none
  | _, .object _ => none

/-- Reads the values of a list. -/
def ofDocuments? : (depth : Nat) → List Json → Option (List PropertyValue)
  | _, [] => some []
  | depth, item :: items => do
    let value ← ofDocument? depth item
    let values ← ofDocuments? depth items
    return value :: values

end

/-- How deep lists may be nested inside the properties of an object. -/
def maxDepth : Nat := 125

end PropertyValue

/-- Reads a handle. -/
def Handle.ofDocument? (j : Json) : Option Handle := (j.toNat? UInt64.size).map Handle.mk

/-- Reads a list of handles. -/
def Handle.listOfDocument? (j : Json) : Option (List Handle) := j.toList? Handle.ofDocument?

/-- Reads a handle that is the name of a member: a natural number without sign and leading zeros. -/
def Handle.ofMemberName? (raw : List Char) : Option Handle :=
  match Json.readNumber raw with
  | some (literal, []) => Handle.ofDocument? (.number literal)
  | _ => none

/-- Reads a text that is the name of a member. -/
def Json.memberText? (raw : List Char) : Option String := (Json.unescape raw).map String.ofList

/-- Reads properties. -/
def Properties.ofDocument? (j : Json) : Option Properties :=
  j.toMap? Json.memberText? (PropertyValue.ofDocument? PropertyValue.maxDepth)

/-- Reads exits. -/
def exitsOfDocument? (j : Json) : Option (SortedMap Direction Handle) :=
  j.toMap? (fun raw => (Json.memberText? raw).bind Direction.ofName?) Handle.ofDocument?

/-- Reads a description block. -/
def Descriptions.ofDocument? (j : Json) : Option Descriptions := do
  match ← j.fields? ["first_entry", "default", "when_picked_up", "custom"] with
  | [some firstEntry, some usual, some whenPickedUp, some custom] =>
    return {
      firstEntry := ← firstEntry.toString?
      usual := ← usual.toString?
      whenPickedUp := ← whenPickedUp.toMap? Handle.ofMemberName? Json.toString?
      custom := ← custom.toMap? Json.memberText? Json.toString? }
  | _ => none

/-- Reads a room. -/
def Room.ofDocument? (j : Json) : Option Room := do
  match ← j.fields? ["title", "descriptions", "exits", "exit_descriptions", "items"] with
  | [some title, some descriptions, some exits, some exitDescriptions, some items] =>
    return {
      title := ← title.toString?
      descriptions := ← Descriptions.ofDocument? descriptions
      exits := ← exitsOfDocument? exits
      exitDescriptions := ← exitsOfDocument? exitDescriptions
      items := ← Handle.listOfDocument? items }
  | _ => none

/-- Reads an argument. -/
def Argument.ofDocument? (j : Json) : Option Argument := do
  match ← j.fields? ["kind", "name"] with
  | [some type, some name] =>
    return { type := ← type.toName? ArgumentType.ofName?, name := ← name.toString? }
  | _ => none

/-- Reads a statement. -/
def Code.ofDocument? (j : Json) : Option Code := do
  match ← j.fields? ["keyword", "arguments", "children"] with
  | [some keyword, some arguments, some children] =>
    return {
      keyword := ← keyword.toName? Keyword.ofName?
      arguments := ← arguments.toList? Json.toString?
      children := ← Handle.listOfDocument? children }
  | _ => none

/-- Reads a verb. -/
def Verb.ofDocument? (j : Json) : Option Verb := do
  match ← j.fields? ["name", "arguments", "body"] with
  | [some name, some arguments, some body] =>
    return {
      name := ← name.toString?
      arguments := ← Handle.listOfDocument? arguments
      body := ← Handle.listOfDocument? body }
  | _ => none

/-- Reads a record whose only field is a text. -/
def Json.onlyText? (name : String) (j : Json) : Option String := do
  match ← j.fields? [name] with
  | [some text] => text.toString?
  | _ => none

/-- Reads a kind from the only member of an object, whose name tells the kind. -/
def Kind.ofDocument? : Json → Option Kind
  | .object [(raw, value)] => do
    match ← Json.memberText? raw with
    | "room" => (Room.ofDocument? value).map .room
    | "item" => (value.onlyText? "name").map .item
    | "descriptions" => (Descriptions.ofDocument? value).map .descriptions
    | "argument" => (Argument.ofDocument? value).map .argument
    | "code" => (Code.ofDocument? value).map .code
    | "verb" => (Verb.ofDocument? value).map .verb
    | "custom" => (value.onlyText? "kind").map .custom
    | _ => none
  | _ => none

namespace GameObject

/-- Reads an identifier. -/
def idOfDocument? (j : Json) : Option ObjectId :=
  (j.toNat? UInt32.size).map fun n => ⟨UInt32.ofNat n⟩

/-- Reads an object from its document. The identifier and the rendering may be left out. -/
def ofDocument? (j : Json) : Option GameObject := do
  match ← j.fields? ["id", "properties", "rendering", "kind"] with
  | [id, some properties, rendering, some kind] =>
    return {
      id := ← (id.getD .null).toOption? idOfDocument?
      properties := ← Properties.ofDocument? properties
      rendering := ← (rendering.getD .null).toOption? Json.toString?
      kind := ← Kind.ofDocument? kind }
  | _ => none

/-- Reads an object from the text of its document. -/
def parse? (text : String) : Option GameObject := (Json.parse text).bind ofDocument?

end GameObject

end TextAdventure
