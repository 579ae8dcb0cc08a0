/-!
# Tags

The structure of an artifact is made of tags: two bytes of which the first, the lead, is 0 or 1.
Texts hold no lead byte, so a tag is recognised wherever it stands. Lists are joined and cut by
tags.
-/

namespace TextAdventure

/-- A structural mark of two bytes. -/
structure Tag where
  lead : UInt8
  code : UInt8
deriving DecidableEq

/-- Whether a byte starts a tag. -/
def isLead (b : UInt8) : Bool := b == 0 || b == 1

namespace Tag

/-- The two bytes of a tag. -/
def bytes (t : Tag) : List UInt8 := [t.lead, t.code]

/-! ## Joining and cutting -/

/-- The parts with the tag between them. -/
def join (t : Tag) : List (List UInt8) → List UInt8
  | [] => []
  | [part] => part
  | part :: parts => part ++ t.bytes ++ join t parts

/-- The parts between the occurrences of the tag, found from the left; there is at least one. -/
def parts (t : Tag) : List UInt8 → List (List UInt8)
  | a :: b :: rest =>
    if a = t.lead ∧ b = t.code then
      [] :: parts t rest
    else
      match parts t (b :: rest) with
      | [] => [[a]]
      | part :: others => (a :: part) :: others
  | bytes => [bytes]

/-- The parts between the occurrences of the tag; no bytes have no parts. -/
def split (t : Tag) (bytes : List UInt8) : List (List UInt8) :=
  if bytes.isEmpty then [] else t.parts bytes

/-- What stands before and after the first occurrence of the tag. Any lead starts a tag, so other
tags are passed over whole. -/
def cut (t : Tag) : List UInt8 → Option (List UInt8 × List UInt8)
  | a :: b :: rest =>
    if isLead a then
      if (⟨a, b⟩ : Tag) = t then some ([], rest)
      else (cut t rest).map fun (before, after) => (a :: b :: before, after)
    else (cut t (b :: rest)).map fun (before, after) => (a :: before, after)
  | _ => none

/-- A cut takes the tag and what stands before it off the bytes. -/
theorem eq_append_of_cut {t : Tag} : ∀ {bytes before after : List UInt8},
    t.cut bytes = some (before, after) → bytes = before ++ t.bytes ++ after
  | [], _, _, h => by simp [cut] at h
  | [_], _, _, h => by simp [cut] at h
  | a :: b :: rest, before, after, h => by
      unfold cut at h
      split at h
      · split at h
        next he =>
          obtain ⟨rfl, rfl⟩ := Prod.mk.inj (Option.some.inj h)
          simp [← he, Tag.bytes]
        next =>
          obtain ⟨⟨x, y⟩, hc, he⟩ := Option.map_eq_some_iff.1 h
          obtain ⟨rfl, rfl⟩ := Prod.mk.inj he
          simp [eq_append_of_cut hc]
      · obtain ⟨⟨x, y⟩, hc, he⟩ := Option.map_eq_some_iff.1 h
        obtain ⟨rfl, rfl⟩ := Prod.mk.inj he
        simp [eq_append_of_cut hc]

/-! ## The tags of the format -/

/-- Ends the compiler version. -/
def versionEnd : Tag := ⟨0x00, 0x00⟩
/-- Ends the range of runtimes. -/
def runtimesEnd : Tag := ⟨0x00, 0x01⟩
/-- Opens the identifier of the starting room. -/
def startingRoom : Tag := ⟨0x01, 0x00⟩
/-- Opens the region of records. -/
def lookupBegin : Tag := ⟨0x01, 0x01⟩
/-- Closes the region of records. -/
def lookupEnd : Tag := ⟨0x01, 0x02⟩
/-- Ends a record or a part of the header. -/
def recordEnd : Tag := ⟨0x01, 0x03⟩
/-- Opens the name of the adventure. -/
def adventureName : Tag := ⟨0x01, 0x04⟩
/-- Opens the starting text of the adventure. -/
def startingText : Tag := ⟨0x01, 0x05⟩
/-- The title of a room. -/
def roomName : Tag := ⟨0x01, 0x06⟩
/-- Ends a field. -/
def fieldEnd : Tag := ⟨0x01, 0x07⟩
/-- The identifier of a room's own description block. -/
def description : Tag := ⟨0x01, 0x08⟩
/-- Stands before the marker of a record's kind. -/
def kind : Tag := ⟨0x01, 0x09⟩
/-- Marks a room. -/
def roomKind : Tag := ⟨0x01, 0x0A⟩
/-- Marks a description block. -/
def descriptionsKind : Tag := ⟨0x01, 0x0B⟩
/-- The text of the first visit. -/
def firstEntry : Tag := ⟨0x01, 0x0C⟩
/-- The text of later visits. -/
def usual : Tag := ⟨0x01, 0x0D⟩
/-- Texts by the identifier of an item. -/
def pickedUp : Tag := ⟨0x01, 0x0E⟩
/-- Texts by a key of the author's. -/
def custom : Tag := ⟨0x01, 0x0F⟩
/-- Stands between the key and the value of an entry. -/
def set : Tag := ⟨0x01, 0x10⟩
/-- Stands between the elements of a list. -/
def separator : Tag := ⟨0x01, 0x11⟩
/-- Rooms by direction. -/
def exits : Tag := ⟨0x01, 0x12⟩
/-- Description blocks by direction. -/
def exitDescriptions : Tag := ⟨0x01, 0x13⟩
/-- Items by position. -/
def roomItems : Tag := ⟨0x01, 0x14⟩
/-- Opens the properties of a record. -/
def properties : Tag := ⟨0x01, 0x15⟩
/-- Marks an item. -/
def itemKind : Tag := ⟨0x01, 0x16⟩
/-- The name of an item. -/
def itemName : Tag := ⟨0x01, 0x17⟩
/-- Marks a verb. -/
def verbKind : Tag := ⟨0x01, 0x18⟩
/-- The name of a verb. -/
def verbName : Tag := ⟨0x01, 0x19⟩
/-- The arguments of a verb. -/
def verbArguments : Tag := ⟨0x01, 0x1A⟩
/-- The statements of a verb. -/
def verbBody : Tag := ⟨0x01, 0x1B⟩
/-- Marks an argument. -/
def argumentKind : Tag := ⟨0x01, 0x1C⟩
/-- The type of an argument, by its code. -/
def argumentType : Tag := ⟨0x01, 0x1D⟩
/-- The name of an argument. -/
def argumentName : Tag := ⟨0x01, 0x1E⟩
/-- Marks a statement. -/
def codeKind : Tag := ⟨0x01, 0x1F⟩
/-- The keyword of a statement, by its code. -/
def codeKeyword : Tag := ⟨0x01, 0x80⟩
/-- The arguments of a statement. -/
def codeArguments : Tag := ⟨0x01, 0x81⟩
/-- The statements inside a statement. -/
def codeChildren : Tag := ⟨0x01, 0x82⟩
/-- The identifier of a record. -/
def id : Tag := ⟨0x01, 0x83⟩

end Tag

/-- The byte before the code of a keyword. -/
def keywordMark : UInt8 := 0xC0

/-- The byte before the code of an argument type. -/
def argumentTypeMark : UInt8 := 0xA0

end TextAdventure
