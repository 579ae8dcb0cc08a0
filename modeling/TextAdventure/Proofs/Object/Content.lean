import Mathlib.Data.List.Basic
import Mathlib.Data.Prod.Basic
import TextAdventure.Object.Document
import TextAdventure.Object.Reader
import TextAdventure.Proofs.Json.RoundTrip
import TextAdventure.Proofs.SortedMap
import TextAdventure.Proofs.Steps

/-!
# What the content of an object tells

The content of an object is written as a document, and its characters are what the fingerprint is made
of. They tell the kind of the object with all its fields, its rendering, and the names and values of
its properties, except that a property that names an object is written as the bare number of its handle,
like an integer. So two objects without floats have the same content exactly if they are the same once
handles are taken for integers (`content_chars_eq_iff`), and an object that names another has the
content of one that holds a number (`content_chars_collide`).
-/

namespace TextAdventure

/-! ## Documents that tell their values -/

namespace Json

attribute [simp] Tidy.null Tidy.integer Tidy.text Tidy.object

/-- Different texts have different documents. -/
theorem ofString_injective : Function.Injective ofString := by
  intro s t h
  exact String.toList_injective (escape_injective (string.inj h))

/-- Different integers have different documents. -/
theorem ofInt_injective : Function.Injective ofInt := by
  intro m n h
  exact literal_ofInt_injective (number.inj h)

/-- Different members make different objects. -/
theorem ofMembers_injective : Function.Injective ofMembers := by
  have hmember : Function.Injective fun m : String × Json => (escape m.1.toList, m.2) := by
    intro m n h
    obtain ⟨hname, hvalue⟩ := Prod.mk.inj h
    exact Prod.ext (String.toList_injective (escape_injective hname)) hvalue
  intro ms ns h
  exact List.map_injective_iff.2 hmember (object.inj h)

/-- Records with the same names are told by the documents of their fields. -/
theorem ofMembers_cons_inj {name : String} {j k : Json} {ms ns : List (String × Json)} :
    ofMembers ((name, j) :: ms) = ofMembers ((name, k) :: ns) ↔ j = k ∧ ofMembers ms = ofMembers ns := by
  simp [ofMembers_injective.eq_iff]

/-- A map is told by the object of its entries if names tell keys and documents tell values. -/
theorem eq_of_ofMembers_map {κ β : Type} [Ord κ] {name : κ → String} {document : β → Json}
    (hname : Function.Injective name) (hdocument : Function.Injective document)
    {m n : SortedMap κ β}
    (h : ofMembers (m.entries.map fun e => (name e.1, document e.2)) =
      ofMembers (n.entries.map fun e => (name e.1, document e.2))) : m = n :=
  SortedMap.ext (List.map_injective_iff.2 (hname.prodMap hdocument) (ofMembers_injective h))

/-- The object of the entries of a map is tidy if the documents of its values are. -/
theorem tidy_ofMembers_map {κ β : Type} (name : κ → String) {document : β → Json}
    (entries : List (κ × β)) (h : ∀ e ∈ entries, Tidy (document e.2)) :
    Tidy (ofMembers (entries.map fun e => (name e.1, document e.2))) :=
  .object (List.forall_mem_map.2 h)

end Json

/-! ## The parts of an object -/

namespace Handle

/-- Different handles have different documents. -/
theorem document_injective : Function.Injective document := by
  intro h t heq
  exact congrArg mk (Int.ofNat.inj (Json.ofInt_injective heq))

/-- Different lists of handles have different documents. -/
theorem documents_injective : Function.Injective documents := by
  intro hs ts h
  exact List.map_injective_iff.2 document_injective (Json.array.inj h)

/-- The document of a list of handles is tidy. -/
@[simp] theorem tidy_documents (hs : List Handle) : (documents hs).Tidy :=
  .array (List.forall_mem_map.2 fun h _ => .integer h.index)

/-- The number of a handle, which is its name as a member, tells the handle. -/
theorem print_index_injective : Function.Injective fun h : Handle => Numeral.print h.index := by
  intro h t heq
  have hdigits := congrArg Decimal.digitsValue (String.ofList_injective heq)
  rw [Json.digitsValue_digits, Json.digitsValue_digits] at hdigits
  exact congrArg mk hdigits

end Handle

/-- Different directions have different names. -/
theorem Direction.name_injective : Function.Injective Direction.name := by
  intro d e h
  cases d <;> cases e <;> simp [name] at h ⊢

/-- Different keywords have different names. -/
theorem Keyword.name_injective : Function.Injective Keyword.name := by
  intro k l h
  cases k <;> cases l <;> simp [name] at h ⊢

/-- Different types of arguments have different names. -/
theorem ArgumentType.name_injective : Function.Injective ArgumentType.name := by
  intro t u h
  cases t <;> cases u <;> simp [name] at h ⊢

/-- Different exits have different documents. -/
theorem exitsDocument_injective : Function.Injective exitsDocument := by
  intro m n h
  exact Json.eq_of_ofMembers_map Direction.name_injective Handle.document_injective h

/-- The document of exits is tidy. -/
@[simp] theorem tidy_exitsDocument (exits : SortedMap Direction Handle) : (exitsDocument exits).Tidy :=
  Json.tidy_ofMembers_map Direction.name exits.entries fun e _ => .integer e.2.index

/-- Different texts have different documents, and none is that of a missing text. -/
theorem optionalText_injective : Function.Injective optionalText := by
  intro s t h
  cases s with
  | none =>
    cases t with
    | none => rfl
    | some text => cases h
  | some text =>
    cases t with
    | none => cases h
    | some other => exact congrArg some (Json.ofString_injective h)

/-- The document of a text that may be missing is tidy. -/
@[simp] theorem tidy_optionalText (text : Option String) : (optionalText text).Tidy := by
  cases text with
  | none => exact .null
  | some text => exact .text text

/-- Different descriptions have different documents. -/
theorem Descriptions.document_injective : Function.Injective Descriptions.document := by
  rintro ⟨_, _, _, _⟩ ⟨_, _, _, _⟩ h
  simp only [document, Json.ofMembers_cons_inj, and_true] at h
  obtain ⟨hfirst, husual, hpicked, hcustom⟩ := h
  rw [mk.injEq]
  exact ⟨Json.ofString_injective hfirst, Json.ofString_injective husual,
    Json.eq_of_ofMembers_map Handle.print_index_injective Json.ofString_injective hpicked,
    Json.eq_of_ofMembers_map Function.injective_id Json.ofString_injective hcustom⟩

/-- The document of descriptions is tidy. -/
@[simp] theorem Descriptions.tidy_document (d : Descriptions) : d.document.Tidy := by
  have hpicked := Json.tidy_ofMembers_map (fun h : Handle => Numeral.print h.index)
    d.whenPickedUp.entries fun e _ => .text e.2
  have hcustom := Json.tidy_ofMembers_map id d.custom.entries fun e _ => .text e.2
  simp only [id] at hcustom
  simp [document, hpicked, hcustom]

/-- Different rooms have different documents. -/
theorem Room.document_injective : Function.Injective Room.document := by
  rintro ⟨_, _, _, _, _⟩ ⟨_, _, _, _, _⟩ h
  simp only [document, Json.ofMembers_cons_inj, and_true] at h
  obtain ⟨htitle, hdescriptions, hexits, hexitDescriptions, hitems⟩ := h
  rw [mk.injEq]
  exact ⟨Json.ofString_injective htitle, Descriptions.document_injective hdescriptions,
    exitsDocument_injective hexits, exitsDocument_injective hexitDescriptions,
    Handle.documents_injective hitems⟩

/-- Different arguments have different documents. -/
theorem Argument.document_injective : Function.Injective Argument.document := by
  rintro ⟨_, _⟩ ⟨_, _⟩ h
  simp only [document, Json.ofMembers_cons_inj, and_true] at h
  obtain ⟨htype, hname⟩ := h
  rw [mk.injEq]
  exact ⟨ArgumentType.name_injective (Json.ofString_injective htype), Json.ofString_injective hname⟩

/-- Different pieces of code have different documents. -/
theorem Code.document_injective : Function.Injective Code.document := by
  rintro ⟨_, _, _⟩ ⟨_, _, _⟩ h
  simp only [document, Json.ofMembers_cons_inj, and_true] at h
  obtain ⟨hkeyword, harguments, hchildren⟩ := h
  rw [mk.injEq]
  exact ⟨Keyword.name_injective (Json.ofString_injective hkeyword),
    List.map_injective_iff.2 Json.ofString_injective (Json.array.inj harguments),
    Handle.documents_injective hchildren⟩

/-- Different verbs have different documents. -/
theorem Verb.document_injective : Function.Injective Verb.document := by
  rintro ⟨_, _, _⟩ ⟨_, _, _⟩ h
  simp only [document, Json.ofMembers_cons_inj, and_true] at h
  obtain ⟨hname, harguments, hbody⟩ := h
  rw [mk.injEq]
  exact ⟨Json.ofString_injective hname, Handle.documents_injective harguments,
    Handle.documents_injective hbody⟩

namespace Kind

/-- The name of the only member tells the kind, and its value tells the fields. -/
theorem document_injective : Function.Injective document := by
  intro k l h
  cases k <;> cases l <;> have hmember := Json.ofMembers_injective h <;>
    simp only [List.cons.injEq, Prod.mk.injEq, String.reduceEq, false_and, true_and, and_true]
      at hmember
  case room.room r s => rw [Room.document_injective hmember]
  case item.item m n =>
    rw [Json.ofMembers_cons_inj] at hmember
    rw [Json.ofString_injective hmember.1]
  case descriptions.descriptions d e => rw [Descriptions.document_injective hmember]
  case argument.argument a b => rw [Argument.document_injective hmember]
  case code.code c d => rw [Code.document_injective hmember]
  case verb.verb v w => rw [Verb.document_injective hmember]
  case custom.custom m n =>
    rw [Json.ofMembers_cons_inj] at hmember
    rw [Json.ofString_injective hmember.1]

/-- The document of a kind is tidy. -/
theorem tidy_document (k : Kind) : k.document.Tidy := by
  have htexts : ∀ texts : List String, Json.Tidy (.array (texts.map Json.ofString)) :=
    fun _ => .array (List.forall_mem_map.2 fun text _ => .text text)
  cases k <;> simp [document, Room.document, Argument.document, Code.document, Verb.document, htexts]

end Kind

/-! ## Properties -/

namespace PropertyValue

/-- A value without floats. -/
inductive FloatFree : PropertyValue → Prop
  | text (value : String) : FloatFree (.text value)
  | integer (value : Int64) : FloatFree (.integer value)
  | boolean (value : Bool) : FloatFree (.boolean value)
  | object (handle : Handle) : FloatFree (.object handle)
  | list {items : List PropertyValue} (h : ∀ item ∈ items, FloatFree item) : FloatFree (.list items)

/-- The value of a number: an integer if it fits and else the object of that handle. -/
def ofNumber (n : Int) : PropertyValue :=
  if n < integerBound then .integer (Int64.ofInt n) else .object ⟨n.toNat⟩

mutual

/-- The value with each object taken for the number of its handle. -/
def unlinked : PropertyValue → PropertyValue
  | .object handle => ofNumber handle.index
  | .list items => .list (unlinkedItems items)
  | .text value => .text value
  | .integer value => .integer value
  | .float value => .float value
  | .boolean value => .boolean value

/-- The values of a list with each object taken for the number of its handle. -/
def unlinkedItems : List PropertyValue → List PropertyValue
  | [] => []
  | item :: items => item.unlinked :: unlinkedItems items

end

/-- The documents of a list of values are those of its members. -/
theorem documents_eq_map (items : List PropertyValue) : documents items = items.map document := by
  induction items with
  | nil => rfl
  | cons item items ih => rw [documents, ih, List.map_cons]

/-- The objects in a list are taken for their numbers member by member. -/
theorem unlinkedItems_eq_map (items : List PropertyValue) :
    unlinkedItems items = items.map unlinked := by
  induction items with
  | nil => rfl
  | cons item items ih => rw [unlinkedItems, ih, List.map_cons]

/-- Integers of 64 bits stay below the bound. -/
theorem toInt_lt_integerBound (value : Int64) : value.toInt < integerBound :=
  Int64.toInt_lt value

/-- Integers of 64 bits do not go below the negative bound. -/
theorem neg_integerBound_le_toInt (value : Int64) : -(integerBound : Int) ≤ value.toInt :=
  Int64.le_toInt value

/-- The number of an integer of 64 bits stands for that integer. -/
theorem ofNumber_toInt (value : Int64) : ofNumber value.toInt = .integer value := by
  rw [ofNumber, if_pos (toInt_lt_integerBound value), Int64.ofInt_toInt]

/-- The value that stands for a number has the document of the number. -/
theorem document_ofNumber (n : Nat) : (ofNumber n).document = Json.ofInt n := by
  unfold ofNumber
  split
  next h =>
    rw [document, Int64.toInt_ofInt_of_le (by omega) h]
  next h => rfl

/-- Taking objects for their numbers does not show in the document. -/
theorem FloatFree.document_unlinked {v : PropertyValue} (hv : v.FloatFree) :
    v.unlinked.document = v.document := by
  induction hv with
  | text value => rfl
  | integer value => rfl
  | boolean value => rfl
  | object handle => exact document_ofNumber handle.index
  | list h ih =>
    simp only [unlinked, document, documents_eq_map, unlinkedItems_eq_map, List.map_map]
    exact congrArg Json.array (List.map_congr_left ih)

/-- Nothing else is lost in the document. -/
theorem unlinked_eq_of_document_eq {v w : PropertyValue} (hv : v.FloatFree) (hw : w.FloatFree)
    (h : v.document = w.document) : v.unlinked = w.unlinked := by
  have hinteger : ∀ value, (integer value).unlinked = ofNumber value.toInt :=
    fun value => (ofNumber_toInt value).symm
  induction hv generalizing w with
  | text value =>
    cases hw with
    | text other => exact congrArg text (Json.ofString_injective h)
    | integer | boolean | object | list => cases h
  | integer value =>
    rw [hinteger]
    cases hw with
    | integer other => rw [hinteger, Json.ofInt_injective h]
    | object handle => exact congrArg ofNumber (Json.ofInt_injective h)
    | text | boolean | list => cases h
  | boolean value =>
    cases hw with
    | boolean other => exact congrArg boolean (Json.bool.inj h)
    | text | integer | object | list => cases h
  | object handle =>
    cases hw with
    | integer other =>
      rw [hinteger]
      exact congrArg ofNumber (Json.ofInt_injective h)
    | object other => exact congrArg ofNumber (Json.ofInt_injective h)
    | text | boolean | list => cases h
  | list hitems ih =>
    cases hw with
    | list hothers =>
      simp only [document, documents_eq_map, Json.array.injEq] at h
      simp only [unlinked, unlinkedItems_eq_map, list.injEq]
      exact Steps.map_eq_map_of_map_eq (fun v hv w hw => ih v hv (hothers w hw)) h
    | text | integer | boolean | object => cases h

/-- The document of a value without floats is tidy. -/
theorem FloatFree.tidy_document {v : PropertyValue} (hv : v.FloatFree) : v.document.Tidy := by
  induction hv with
  | text value => exact .text value
  | integer value => exact .integer value.toInt
  | boolean value => exact .bool value
  | object handle => exact .integer handle.index
  | list h ih =>
    rw [document, documents_eq_map]
    exact .array (List.forall_mem_map.2 ih)

end PropertyValue

namespace Properties

/-- The properties with each object taken for the number of its handle. -/
def unlinked (properties : Properties) : Properties := properties.mapValues PropertyValue.unlinked

variable {p q : Properties} (hp : ∀ v ∈ p.values, v.FloatFree) (hq : ∀ v ∈ q.values, v.FloatFree)
include hp

/-- The document of properties without floats is tidy. -/
theorem tidy_document : p.document.Tidy :=
  Json.tidy_ofMembers_map id p.entries fun e he => (hp e.2 (List.mem_map_of_mem he)).tidy_document

/-- Taking objects for their numbers does not show in the document of properties. -/
theorem document_unlinked : p.unlinked.document = p.document := by
  simp only [document, unlinked, SortedMap.mapValues, List.map_map]
  refine congrArg Json.ofMembers (List.map_congr_left ?_)
  intro e he
  exact congrArg (Prod.mk e.1) (hp e.2 (List.mem_map_of_mem he)).document_unlinked

include hq

/-- Documents of properties tell them apart up to what is written like a number. -/
theorem document_eq_iff : p.document = q.document ↔ p.unlinked = q.unlinked := by
  constructor
  · intro h
    refine SortedMap.ext (Steps.map_eq_map_of_map_eq ?_ (Json.ofMembers_injective h))
    intro e he f hf hef
    obtain ⟨hname, hvalue⟩ := Prod.mk.inj hef
    exact Prod.ext hname (PropertyValue.unlinked_eq_of_document_eq
      (hp e.2 (List.mem_map_of_mem he)) (hq f.2 (List.mem_map_of_mem hf)) hvalue)
  · intro h
    rw [← document_unlinked hp, h, document_unlinked hq]

end Properties

/-! ## Objects -/

namespace GameObject

/-- The content of an object without floats is tidy. -/
theorem tidy_content {o : GameObject} (ho : ∀ v ∈ o.properties.values, v.FloatFree) :
    o.content.Tidy := by
  simp [content, Kind.tidy_document, Properties.tidy_document ho]

/-- Objects without floats have the same content if and only if they have the same kind with the same
fields, the same rendering, and the same properties once objects are taken for the numbers of their
handles. -/
theorem content_chars_eq_iff {o p : GameObject} (ho : ∀ v ∈ o.properties.values, v.FloatFree)
    (hp : ∀ v ∈ p.properties.values, v.FloatFree) :
    o.content.chars = p.content.chars ↔
      o.kind = p.kind ∧ o.properties.unlinked = p.properties.unlinked ∧ o.rendering = p.rendering := by
  rw [← Properties.document_eq_iff ho hp]
  constructor
  · intro h
    have hcontent := (tidy_content ho).chars_injective (tidy_content hp) h
    simp only [content, Json.ofMembers_cons_inj, and_true] at hcontent
    obtain ⟨hkind, hproperties, hrendering⟩ := hcontent
    exact ⟨Kind.document_injective hkind, hproperties, optionalText_injective hrendering⟩
  · rintro ⟨hkind, hproperties, hrendering⟩
    rw [content, content, hkind, hproperties, hrendering]

/-- A lantern with one property. -/
def lantern (value : PropertyValue) : GameObject where
  properties := ⟨[("fuel", value)], List.pairwise_singleton _ _⟩
  kind := .item "Lantern"

/-- The content tells an object from another number, but not from its own, inside lists too. -/
theorem content_lantern :
    (lantern (.list [.object ⟨3⟩])).content.chars = (lantern (.list [.integer 3])).content.chars ∧
      (lantern (.list [.object ⟨3⟩])).content.chars ≠
        (lantern (.list [.integer 4])).content.chars := by
  have hobject : ∀ v ∈ (lantern (.list [.object ⟨3⟩])).properties.values, v.FloatFree := by
    simpa [lantern, SortedMap.values] using .list (by simpa using .object ⟨3⟩)
  have hinteger : ∀ n : Int64, ∀ v ∈ (lantern (.list [.integer n])).properties.values,
      v.FloatFree := by
    intro n
    simpa [lantern, SortedMap.values] using .list (by simpa using .integer n)
  constructor
  · exact (content_chars_eq_iff hobject (hinteger 3)).2 ⟨rfl, rfl, rfl⟩
  · intro h
    obtain ⟨-, hproperties, -⟩ := (content_chars_eq_iff hobject (hinteger 4)).1 h
    have hentries := congrArg SortedMap.entries hproperties
    simp [lantern, Properties.unlinked, SortedMap.mapValues, PropertyValue.unlinked,
      PropertyValue.unlinkedItems, PropertyValue.ofNumber, PropertyValue.integerBound] at hentries

/-- An object that names another has the content and the fingerprint of one that holds a number. -/
theorem content_chars_collide :
    (lantern (.object ⟨3⟩)).content.chars = (lantern (.integer 3)).content.chars ∧
      (lantern (.object ⟨3⟩)).fingerprint = (lantern (.integer 3)).fingerprint ∧
      (lantern (.object ⟨3⟩)).properties ≠ (lantern (.integer 3)).properties := by
  have hcontent : (lantern (.object ⟨3⟩)).content = (lantern (.integer 3)).content := rfl
  refine ⟨congrArg Json.chars hcontent, ?_, ?_⟩
  · rw [fingerprint, hcontent, fingerprint]
  · intro h
    have hentries := congrArg SortedMap.entries h
    simp [lantern] at hentries

end GameObject

end TextAdventure
