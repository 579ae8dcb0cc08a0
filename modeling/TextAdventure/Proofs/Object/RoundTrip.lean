import TextAdventure.Proofs.Object.Content

/-!
# Objects come back from their documents

Reading undoes writing for every part of an object: texts, handles, maps, the fields of each kind. A
value of a property comes back if it is made of texts, integers, booleans and lists of these, and is
nested no deeper than the reader goes (`Portable`). So an object whose properties hold such values is
read from the text of its document as it was (`GameObject.parse?_print`).
-/

namespace TextAdventure

/-! ## Parts of documents -/

namespace Json

/-- The document of a text is read back. -/
@[simp] theorem toString?_ofString (text : String) : (ofString text).toString? = some text := by
  simp [toString?, ofString, unescape_escape]

/-- A member's name is read back from its escaped text. -/
@[simp] theorem memberText?_escape (text : String) : memberText? (escape text.toList) = some text := by
  simp [memberText?, unescape_escape]

/-- The document of a name is read as the name is. -/
@[simp] theorem toName?_ofString {α : Type} (ofName? : String → Option α) (text : String) :
    (ofString text).toName? ofName? = ofName? text := by
  simp [toName?, ofString, unescape_escape]

/-- The literal of an integer has a whole value, which is its absolute value. -/
@[simp] theorem whole?_ofInt (n : Int) : (Decimal.Literal.ofInt n).whole? = some n.natAbs := by
  simp [Decimal.Literal.whole?, Decimal.Literal.ofInt, digitsValue_digits]

/-- The literal of an integer has the sign of the integer. -/
@[simp] theorem negative_ofInt (n : Int) : (Decimal.Literal.ofInt n).negative = decide (n < 0) := rfl

/-- The document of a number below the bound is read back. -/
theorem toNat?_ofInt {bound n : Nat} (h : n < bound) : (ofInt n).toNat? bound = some n := by
  simp [toNat?, ofInt, h]

/-- A list is read back if each of its elements is. -/
theorem toList?_map {α : Type} {read : Json → Option α} {document : α → Json} {l : List α}
    (h : ∀ x ∈ l, read (document x) = some x) : toList? read (.array (l.map document)) = some l :=
  Steps.mapM_map_eq_some h

/-- A map comes back from the object of its entries if names and values do. -/
theorem toMap?_ofMembers {κ β : Type} [Ord κ] [Std.TransOrd κ] (m : SortedMap κ β)
    {readName : List Char → Option κ} {readValue : Json → Option β} (name : κ → String)
    (document : β → Json)
    (hname : ∀ e ∈ m.entries, readName (escape (name e.1).toList) = some e.1)
    (hvalue : ∀ e ∈ m.entries, readValue (document e.2) = some e.2) :
    toMap? readName readValue (ofMembers (m.entries.map fun e => (name e.1, document e.2))) =
      some m := by
  simp only [toMap?, ofMembers, List.map_map]
  rw [Steps.mapM_map_eq_some]
  · simp [SortedMap.ofList_entries]
  · intro e he
    simp [hname e he, hvalue e he]

/-- Among members with different names, a name has the one value of its member. -/
theorem valuesOf_of_mem {members : List (String × Json)} (h : (members.map Prod.fst).Nodup)
    {m : String × Json} (hm : m ∈ members) : valuesOf m.1 members = [m.2] := by
  induction members with
  | nil => cases hm
  | cons e members ih =>
    obtain ⟨hnew, hrest⟩ := List.nodup_cons.1 h
    rw [valuesOf, List.filterMap_cons]
    rcases List.mem_cons.1 hm with rfl | hm
    · have hnone : valuesOf m.1 members = [] := by
        refine List.filterMap_eq_nil_iff.2 ?_
        intro e he
        refine if_neg ?_
        intro heq
        exact hnew (heq ▸ List.mem_map_of_mem he)
      simp only [if_true]
      exact congrArg (m.2 :: ·) hnone
    · have hne : e.1 ≠ m.1 := by
        intro heq
        exact hnew (heq ▸ List.mem_map_of_mem hm)
      simp only [if_neg hne]
      exact ih hrest hm

/-- The fields of a record come back from the object that has them as members. -/
theorem fields?_ofMembers {names : List String} {members : List (String × Json)}
    (hnames : names = members.map Prod.fst) (h : names.Nodup) :
    fields? names (ofMembers members) = some (members.map fun m => some m.2) := by
  subst hnames
  simp only [fields?, ofMembers]
  rw [Steps.mapM_map_eq_some]
  · simp only [Option.bind_eq_bind, Option.bind_some, List.mapM_map]
    refine Steps.mapM_eq_some_map ?_
    intro m hm
    simp [valuesOf_of_mem h hm]
  · intro m _
    simp [unescape_escape]

/-- Digits are not escaped. -/
theorem escapeChar_digitChar : ∀ {d : Nat}, d < 10 →
    escapeChar (Numeral.digitChar d) = [Numeral.digitChar d] := by
  decide

/-- Digits are written in a text as they are. -/
theorem escape_digits (n : Nat) : escape (Numeral.digits n) = Numeral.digits n := by
  unfold escape
  fun_induction Numeral.digits n with
  | case1 n hn => simp [escapeChar_digitChar hn]
  | case2 n hn ih =>
    rw [List.flatMap_append, ih, List.flatMap_singleton,
      escapeChar_digitChar (Nat.mod_lt n (by decide))]

end Json

/-! ## Handles and names -/

namespace Handle

variable {h : Handle} (hsize : h.index < UInt64.size)
include hsize

/-- A handle that fits into a word is read back. -/
theorem ofDocument?_document : ofDocument? h.document = some h := by
  simp [ofDocument?, document, Json.toNat?_ofInt hsize]

/-- A handle that fits into a word is read back from the name of a member. -/
theorem ofMemberName?_print :
    ofMemberName? (Json.escape (Numeral.print h.index).toList) = some h := by
  have hchars : (Decimal.Literal.ofInt h.index).chars = Numeral.digits h.index := by
    simp [Decimal.Literal.chars, Decimal.Literal.ofInt]
  have hread := Json.readNumber_ofInt (Text.runEnds_nil _) h.index
  rw [List.append_nil, hchars] at hread
  rw [Numeral.print, String.toList_ofList, Json.escape_digits, ofMemberName?, hread]
  exact ofDocument?_document hsize

end Handle

/-- Handles that fit into words are read back as a list. -/
theorem Handle.listOfDocument?_documents {hs : List Handle} (hsize : ∀ h ∈ hs, h.index < UInt64.size) :
    listOfDocument? (documents hs) = some hs :=
  Json.toList?_map fun h hh => ofDocument?_document (hsize h hh)

/-- A direction is found by its name. -/
@[simp] theorem Direction.ofName?_name (d : Direction) : ofName? d.name = some d := by
  cases d <;> rfl

/-- A keyword is found by its name. -/
@[simp] theorem Keyword.ofName?_name (k : Keyword) : ofName? k.name = some k := by
  cases k <;> rfl

/-- A type of arguments is found by its name. -/
@[simp] theorem ArgumentType.ofName?_name (t : ArgumentType) : ofName? t.name = some t := by
  cases t <;> rfl

/-- The exits of a room are read back if their handles fit into words. -/
theorem exitsOfDocument?_document {exits : SortedMap Direction Handle}
    (hsize : ∀ h ∈ exits.values, h.index < UInt64.size) :
    exitsOfDocument? (exitsDocument exits) = some exits :=
  Json.toMap?_ofMembers exits Direction.name Handle.document (by simp) fun e he =>
    Handle.ofDocument?_document (hsize e.2 (List.mem_map_of_mem he))

/-! ## Kinds -/

/-- Descriptions are read back if the handles they name fit into words. -/
theorem Descriptions.ofDocument?_document {d : Descriptions}
    (hsize : ∀ h ∈ d.references, h.index < UInt64.size) : ofDocument? d.document = some d := by
  have hname : ∀ e ∈ d.whenPickedUp.entries,
      Handle.ofMemberName? (Json.escape (Numeral.print e.1.index).toList) = some e.1 := by
    intro e he
    exact Handle.ofMemberName?_print (hsize e.1 (List.mem_map_of_mem he))
  have hpicked := Json.toMap?_ofMembers d.whenPickedUp (fun h => Numeral.print h.index)
    Json.ofString hname fun e _ => Json.toString?_ofString e.2
  have hcustom := Json.toMap?_ofMembers d.custom id Json.ofString
    (fun e _ => Json.memberText?_escape e.1) fun e _ => Json.toString?_ofString e.2
  simp only [id] at hcustom
  simp [ofDocument?, document, Json.fields?_ofMembers, hpicked, hcustom]

/-- A room is read back if the handles it names fit into words. -/
theorem Room.ofDocument?_document {r : Room} (hsize : ∀ h ∈ r.references, h.index < UInt64.size) :
    ofDocument? r.document = some r := by
  simp only [references, List.forall_mem_append] at hsize
  obtain ⟨⟨⟨hdescriptions, hexits⟩, hexitDescriptions⟩, hitems⟩ := hsize
  simp [ofDocument?, document, Json.fields?_ofMembers,
    Descriptions.ofDocument?_document hdescriptions, exitsOfDocument?_document hexits,
    exitsOfDocument?_document hexitDescriptions, Handle.listOfDocument?_documents hitems]

/-- An argument is read back. -/
theorem Argument.ofDocument?_document (a : Argument) : ofDocument? a.document = some a := by
  simp [ofDocument?, document, Json.fields?_ofMembers]

/-- Code is read back if the handles of its children fit into words. -/
theorem Code.ofDocument?_document {c : Code} (hsize : ∀ h ∈ c.children, h.index < UInt64.size) :
    ofDocument? c.document = some c := by
  have harguments := Json.toList?_map fun text (_ : text ∈ c.arguments) => Json.toString?_ofString text
  simp [ofDocument?, document, Json.fields?_ofMembers, harguments,
    Handle.listOfDocument?_documents hsize]

/-- A verb is read back if the handles it names fit into words. -/
theorem Verb.ofDocument?_document {v : Verb}
    (hsize : ∀ h ∈ v.arguments ++ v.body, h.index < UInt64.size) : ofDocument? v.document = some v := by
  obtain ⟨harguments, hbody⟩ := List.forall_mem_append.1 hsize
  simp [ofDocument?, document, Json.fields?_ofMembers, Handle.listOfDocument?_documents harguments,
    Handle.listOfDocument?_documents hbody]

/-- The one text of an object with one member is found by the name of the member. -/
theorem Json.onlyText?_ofMembers (name text : String) :
    onlyText? name (ofMembers [(name, ofString text)]) = some text := by
  simp [onlyText?, fields?_ofMembers]

/-- The fields of a kind come back if its handles are small enough to be read. -/
theorem Kind.ofDocument?_document {k : Kind} (hsize : ∀ h ∈ k.references, h.index < UInt64.size) :
    ofDocument? k.document = some k := by
  cases k <;> simp only [document, ofDocument?, Json.ofMembers, List.map_cons, List.map_nil,
    Json.memberText?_escape, Option.bind_eq_bind, Option.bind_some]
  case room r => rw [Room.ofDocument?_document hsize, Option.map_some]
  case item name => exact congrArg (Option.map item) (Json.onlyText?_ofMembers "name" name)
  case descriptions d => rw [Descriptions.ofDocument?_document hsize, Option.map_some]
  case argument a => rw [Argument.ofDocument?_document, Option.map_some]
  case code c => rw [Code.ofDocument?_document hsize, Option.map_some]
  case verb v => rw [Verb.ofDocument?_document hsize, Option.map_some]
  case custom name => exact congrArg (Option.map custom) (Json.onlyText?_ofMembers "kind" name)

/-! ## Properties -/

namespace PropertyValue

/-- A value of texts, integers and booleans, and of lists of these that are nested at most `depth`
deep. -/
inductive Portable : (depth : Nat) → PropertyValue → Prop
  | text {depth : Nat} (value : String) : Portable depth (.text value)
  | integer {depth : Nat} (value : Int64) : Portable depth (.integer value)
  | boolean {depth : Nat} (value : Bool) : Portable depth (.boolean value)
  | list {depth : Nat} {items : List PropertyValue} (h : ∀ item ∈ items, Portable depth item) :
    Portable (depth + 1) (.list items)

/-- A portable value is one without floats. -/
theorem Portable.floatFree {depth : Nat} {v : PropertyValue} (h : v.Portable depth) : v.FloatFree := by
  induction h with
  | text value => exact .text value
  | integer value => exact .integer value
  | boolean value => exact .boolean value
  | list _ ih => exact .list ih

/-- Values are read from a list of documents one by one. -/
theorem ofDocuments?_eq_mapM (depth : Nat) (items : List Json) :
    ofDocuments? depth items = items.mapM (ofDocument? depth) := by
  induction items with
  | nil => rw [ofDocuments?, List.mapM_nil]; rfl
  | cons item items ih => rw [ofDocuments?, ih, List.mapM_cons]

/-- An integer is read back at any depth. -/
theorem ofDocument?_integer (depth : Nat) (value : Int64) :
    ofDocument? depth (Json.ofInt value.toInt) = some (.integer value) := by
  have hlower := neg_integerBound_le_toInt value
  have hupper := toInt_lt_integerBound value
  rw [Json.ofInt, ofDocument?, Json.whole?_ofInt, Json.negative_ofInt]
  by_cases hneg : value.toInt < 0
  · have hvalue : -(value.toInt.natAbs : Int) = value.toInt := by omega
    simp only [hneg, decide_true]
    rw [if_pos (by omega), hvalue, Int64.ofInt_toInt]
  · have hvalue : (value.toInt.natAbs : Int) = value.toInt := by omega
    simp only [hneg, decide_false]
    rw [if_pos (by omega), hvalue, Int64.ofInt_toInt]

/-- A portable value is read back from its document. -/
theorem Portable.ofDocument?_document {depth : Nat} {v : PropertyValue} (h : v.Portable depth) :
    ofDocument? depth v.document = some v := by
  induction h with
  | text value => simp [ofDocument?, document, Json.ofString, Json.unescape_escape]
  | integer value => exact ofDocument?_integer _ value
  | boolean value => simp [ofDocument?, document]
  | list _ ih =>
    rw [document, documents_eq_map, ofDocument?, ofDocuments?_eq_mapM, Steps.mapM_map_eq_some ih]
    rfl

end PropertyValue

/-- Properties whose values are portable are read back. -/
theorem Properties.ofDocument?_document {p : Properties}
    (h : ∀ v ∈ p.values, v.Portable PropertyValue.maxDepth) : ofDocument? p.document = some p :=
  Json.toMap?_ofMembers p id PropertyValue.document (fun e _ => Json.memberText?_escape e.1)
    fun e he => (h e.2 (List.mem_map_of_mem he)).ofDocument?_document

/-! ## Objects -/

/-- A text that may be missing is read back, or is missing again. -/
theorem toOption?_optionalText (text : Option String) :
    (optionalText text).toOption? Json.toString? = some text := by
  cases text with
  | none => rfl
  | some text => exact congrArg (Option.map some) (Json.toString?_ofString text)

namespace GameObject

/-- An identifier is read back from its number. -/
theorem idOfDocument?_ofInt (id : ObjectId) :
    idOfDocument? (Json.ofInt id.val.toNat) = some id := by
  rw [idOfDocument?, Json.toNat?_ofInt (UInt32.toNat_lt_size id.val), Option.map_some,
    UInt32.ofNat_toNat]

variable {o : GameObject}

/-- The document of an object without floats is tidy. -/
theorem tidy_document (h : ∀ v ∈ o.properties.values, v.FloatFree) : o.document.Tidy := by
  have hproperties := Properties.tidy_document h
  cases hid : o.id with
  | none => simp [document, hid, hproperties, Kind.tidy_document]
  | some id => simp [document, hid, hproperties, Kind.tidy_document]

/-- An object is read back from its document if its handles fit into words and its properties are
portable. -/
theorem ofDocument?_document (hsize : ∀ h ∈ o.kind.references, h.index < UInt64.size)
    (hproperties : ∀ v ∈ o.properties.values, v.Portable PropertyValue.maxDepth) :
    ofDocument? o.document = some o := by
  have hproperties := Properties.ofDocument?_document hproperties
  have hkind := Kind.ofDocument?_document hsize
  obtain ⟨id, properties, rendering, kind⟩ := o
  cases id with
  | none =>
    simp [ofDocument?, document, Json.fields?_ofMembers, Json.toOption?.eq_1, toOption?_optionalText,
      hproperties, hkind]
  | some id =>
    have hid : (Json.ofInt id.val.toNat).toOption? idOfDocument? = some (some id) :=
      congrArg (Option.map some) (idOfDocument?_ofInt id)
    simp [ofDocument?, document, Json.fields?_ofMembers, hid, toOption?_optionalText, hproperties,
      hkind]

/-- An object is read from the text of its document as it was, if its handles are small enough and its
properties hold only texts, integers, booleans and lists of these, not nested too deep. -/
theorem parse?_print (hsize : ∀ h ∈ o.kind.references, h.index < UInt64.size)
    (hproperties : ∀ v ∈ o.properties.values, v.Portable PropertyValue.maxDepth) :
    parse? o.document.print = some o := by
  have htidy : o.document.Tidy := tidy_document fun v hv => (hproperties v hv).floatFree
  rw [parse?, htidy.parse_print, Option.bind_some]
  exact ofDocument?_document hsize hproperties

/-- A room with a control character in its title, the greatest handle and the least integer. -/
def vault : GameObject where
  id := some ⟨7⟩
  properties := ⟨[("marks", .list [.integer Int64.minValue, .list [.boolean true, .text "é\t\""]])],
    List.pairwise_singleton _ _⟩
  rendering := some ""
  kind := .room {
    title := "Vault\x01"
    descriptions := { whenPickedUp := ⟨[(⟨UInt64.size - 1⟩, "\\")], List.pairwise_singleton _ _⟩ }
    exits := ⟨[(.south, ⟨0⟩), (.up, ⟨0⟩)], by decide⟩
    items := [⟨3⟩, ⟨3⟩] }

/-- The vault is read back from the text of its document. -/
theorem parse?_print_vault : parse? vault.document.print = some vault := by
  refine parse?_print (by decide) ?_
  intro v hv
  rw [List.mem_singleton.1 hv]
  refine .list (List.forall_mem_cons.2 ⟨.integer _, List.forall_mem_singleton.2 ?_⟩)
  exact .list (List.forall_mem_cons.2 ⟨.boolean _, List.forall_mem_singleton.2 (.text _)⟩)

end GameObject

end TextAdventure
