import TextAdventure.Proofs.Adventure.Validation
import TextAdventure.Proofs.Artifact.RoundTrip
import TextAdventure.Proofs.Compiler.Record

/-!
# What the check of payloads accepts

The check of payloads passes exactly if all texts of the adventure are plain and every object has a
body (`checkPayloads_eq_ok_iff`). The texts that the compiler adds of its own are plain as well, so
an object that passes is written as a record whose parts can be told apart (`RecordOf.writable`).
-/

namespace TextAdventure

/-! ## Texts that are checked -/

/-- The texts of an object that enter its record are plain, and there is a body to be written. -/
structure GameObject.Writable (o : GameObject) : Prop where
  properties : ∀ text ∈ o.properties.payloads, Plain text
  rendering : ∀ text, o.rendering = some text → Plain text
  fields : o.rendering = none → ∀ text ∈ o.kind.payloads, Plain text
  body : o.HasBody

/-- All texts of an adventure and of its objects are plain, and every object has a body. -/
structure Adventure.Writable (a : Adventure) : Prop where
  name : Plain a.name
  startingText : Plain a.startingText
  properties : ∀ text ∈ a.properties.payloads, Plain text
  objects : ∀ o ∈ a.objects, o.Writable

/-- A text passes the check exactly if it is plain. -/
theorem checkPayload_eq_ok_iff {text : String} : checkPayload text = .ok () ↔ Plain text := by
  unfold checkPayload Plain LeadFree
  cases hfind : (Utf8.ofString text).find? isLead with
  | none => simpa using List.find?_eq_none.1 hfind
  | some b =>
    have hlead : isLead b = true := List.find?_some hfind
    constructor
    · intro h
      cases h
    · intro h
      cases hlead.symm.trans (h b (List.mem_of_find?_eq_some hfind))

/-- Texts pass the check exactly if they are plain. -/
theorem forM_checkPayload_eq_ok_iff {texts : List String} :
    texts.forM checkPayload = .ok () ↔ ∀ text ∈ texts, Plain text := by
  simp only [Steps.forM_eq_ok_iff, checkPayload_eq_ok_iff]

/-- The check of an object passes exactly if it can be written. -/
theorem GameObject.checkPayloads_eq_ok_iff {h : Handle} {o : GameObject} :
    o.checkPayloads h = .ok () ↔ o.Writable := by
  rw [checkPayloads, Steps.andThen_eq_ok_iff, forM_checkPayload_eq_ok_iff]
  constructor
  · rintro ⟨hproperties, hbody⟩
    cases hrendering : o.rendering with
    | some text =>
      rw [hrendering] at hbody
      refine ⟨hproperties, ?_, ?_, .inl (by simp [hrendering])⟩
      · intro found hfound
        cases hrendering.symm.trans hfound
        exact checkPayload_eq_ok_iff.1 hbody
      · intro hnone
        cases hrendering.symm.trans hnone
    | none =>
      rw [hrendering] at hbody
      refine ⟨hproperties, ?_, ?_, .inr ?_⟩
      · intro found hfound
        cases hrendering.symm.trans hfound
      · intro _
        split at hbody
        next heq => cases heq
        next => cases hbody
        next => exact forM_checkPayload_eq_ok_iff.1 hbody
      · cases hkind : o.kind with
        | custom name =>
          rw [hkind] at hbody
          cases hbody
        | _ => rfl
  · rintro ⟨hproperties, hrendering, hfields, hbody⟩
    refine ⟨hproperties, ?_⟩
    split
    next text hsome => exact checkPayload_eq_ok_iff.2 (hrendering text hsome)
    next name hnone hkind =>
      rcases hbody with hbody | hbody
      · rw [hnone] at hbody
        cases hbody
      · rw [hkind] at hbody
        cases hbody
    next hnone hkind => exact forM_checkPayload_eq_ok_iff.2 (hfields hnone)

/-- The check of payloads passes exactly if the adventure can be written. -/
theorem Adventure.checkPayloads_eq_ok_iff {a : Adventure} :
    a.checkPayloads = .ok () ↔ a.Writable := by
  rw [checkPayloads, Steps.andThen_eq_ok_iff, Steps.andThen_eq_ok_iff, Steps.andThen_eq_ok_iff,
    checkPayload_eq_ok_iff, checkPayload_eq_ok_iff, forM_checkPayload_eq_ok_iff,
    Steps.forM_eq_ok_iff]
  simp only [GameObject.checkPayloads_eq_ok_iff]
  constructor
  · rintro ⟨hname, hstartingText, hproperties, hobjects⟩
    exact ⟨hname, hstartingText, hproperties, forall_mem_handled.1 hobjects⟩
  · rintro ⟨hname, hstartingText, hproperties, hobjects⟩
    exact ⟨hname, hstartingText, hproperties, forall_mem_handled.2 hobjects⟩

/-! ## Texts that are written -/

open Adventure (textField listField pairsField numbered)

/-- A field with a text can be written if the text is plain. -/
theorem writable_textField {t : Tag} (ht : t ≠ .properties ∧ Artifact.isFixed t = false)
    {text : String} (h : Plain text) : (textField t text).Writable :=
  ⟨ht.1, fun hfixed => (nomatch ht.2.symm.trans hfixed), fun _ => Tag.misses_of_leadFree h⟩

/-- A field with a list can be written if its texts are plain. -/
theorem writable_listField {t : Tag} (ht : t ≠ .properties ∧ Artifact.isFixed t = false)
    {texts : List String} (h : ∀ text ∈ texts, Plain text) : (listField t texts).Writable :=
  ⟨ht.1, fun hfixed => (nomatch ht.2.symm.trans hfixed),
    fun _ => misses_listPayload (by decide) h⟩

/-- A field with a mapping can be written if its keys and values are plain. -/
theorem writable_pairsField {t : Tag} (ht : t ≠ .properties ∧ Artifact.isFixed t = false)
    {entries : List (String × String)} (h : PlainEntries entries) :
    (pairsField t entries).Writable :=
  ⟨ht.1, fun hfixed => (nomatch ht.2.symm.trans hfixed),
    fun _ => h.misses (by decide) (by decide)⟩

/-- A field with a two-byte code can be written, whatever the two bytes are. -/
theorem writable_fixed {t : Tag} (ht : t ≠ .properties ∧ Artifact.isFixed t = true)
    (b c : UInt8) : Field.Writable ⟨t, [b, c]⟩ :=
  ⟨ht.1, fun _ => rfl, fun hfixed => (nomatch ht.2.symm.trans hfixed)⟩

mutual

/-- The text of a value is plain if the texts in it are. -/
theorem PropertyValue.plain_shown {name : Handle → String} (hname : ∀ h, Plain (name h)) :
    ∀ (value : PropertyValue), (∀ text ∈ value.texts, Plain text) → Plain (value.shown name)
  | .text value, h => h value (by simp [texts])
  | .integer value, _ => plain_printInt _
  | .float value, _ => value.plain_print
  | .boolean true, _ | .boolean false, _ => by
      rw [shown]
      exact plain_of_all rfl
  | .list items, h => by
      have hitems : ∀ text ∈ shownAll name items, Plain text := plain_shownAll hname items h
      exact (Plain.append (plain_of_all rfl)
        (Plain.intercalate (plain_of_all rfl) hitems)).append (plain_of_all rfl)
  | .object target, _ => hname target

/-- The texts of the values of a list are plain if the texts in them are. -/
theorem PropertyValue.plain_shownAll {name : Handle → String} (hname : ∀ h, Plain (name h)) :
    ∀ (values : List PropertyValue), (∀ text ∈ textsList values, Plain text) →
      ∀ text ∈ shownAll name values, Plain text
  | [], _ => fun _ h => nomatch h
  | value :: values, h => by
      obtain ⟨hvalue, hvalues⟩ := List.forall_mem_append.1 h
      exact List.forall_mem_cons.2 ⟨plain_shown hname value hvalue,
        plain_shownAll hname values hvalues⟩

end

section
variable {name : Handle → String} (hname : ∀ h, Plain (name h))
include hname

/-- Items and the texts for them are plain entries. -/
theorem Descriptions.plainEntries_pickedUp {d : Descriptions}
    (h : ∀ text ∈ d.payloads, Plain text) :
    PlainEntries (d.whenPickedUp.entries.map fun x => (name x.1, x.2)) := by
  intro e he
  obtain ⟨x, hx, rfl⟩ := List.mem_map.1 he
  refine ⟨hname x.1, h x.2 (List.mem_append_left _ (List.mem_append_right _ ?_))⟩
  exact List.mem_map_of_mem hx

/-- The fields of a description block can be written. -/
theorem Descriptions.writable_fields {d : Descriptions} (h : ∀ text ∈ d.payloads, Plain text) :
    ∀ f ∈ d.fields name, f.Writable := by
  have hpickedUp := plainEntries_pickedUp hname h
  simp only [payloads, List.forall_mem_append, List.forall_mem_cons, List.not_mem_nil,
    false_implies, implies_true, and_true] at h
  obtain ⟨⟨⟨hfirst, husual⟩, _⟩, hcustom⟩ := h
  simp only [fields, List.forall_mem_cons, List.not_mem_nil, false_implies, implies_true, and_true]
  refine ⟨writable_textField (by decide) hfirst, writable_textField (by decide) husual,
    writable_pairsField (by decide) hpickedUp, writable_pairsField (by decide) ?_⟩
  intro e he
  exact ⟨hcustom e.1 (List.mem_flatMap.2 ⟨e, he, by simp⟩),
    hcustom e.2 (List.mem_flatMap.2 ⟨e, he, by simp⟩)⟩

/-- Directions and the objects that they lead to are plain entries. -/
theorem plainEntries_exitTexts (exits : SortedMap Direction Handle) :
    PlainEntries (exitTexts name exits) := by
  intro e he
  obtain ⟨x, _, rfl⟩ := List.mem_map.1 he
  exact ⟨plain_print _, hname x.2⟩

/-- Numbered objects are plain entries. -/
theorem plainEntries_numbered (targets : List Handle) :
    PlainEntries (numbered (targets.map name)) := by
  intro e he
  obtain ⟨⟨text, i⟩, hx, rfl⟩ := List.mem_map.1 he
  have htext : text ∈ targets.map name := List.fst_mem_of_mem_zipIdx hx
  obtain ⟨t, _, rfl⟩ := List.mem_map.1 htext
  exact ⟨plain_print i, hname t⟩

/-- Objects in a list are plain texts. -/
theorem plain_map_name (targets : List Handle) : ∀ text ∈ targets.map name, Plain text := by
  intro text htext
  obtain ⟨t, _, rfl⟩ := List.mem_map.1 htext
  exact hname t

/-- The fields of an object with plain texts can be written. -/
theorem Kind.writable_fields {kind : Kind} (id : ObjectId)
    (h : ∀ text ∈ kind.payloads, Plain text) : ∀ f ∈ kind.fields name id, f.Writable := by
  cases kind with
  | room r =>
    obtain ⟨htitle, hdescriptions⟩ := List.forall_mem_cons.1 h
    simp only [fields, Room.fields, List.forall_mem_append, List.forall_mem_cons,
      List.not_mem_nil, false_implies, implies_true, and_true]
    exact ⟨⟨⟨writable_textField (by decide) htitle, writable_textField (by decide) id.plain_print⟩,
      Descriptions.writable_fields hname hdescriptions⟩,
      writable_pairsField (by decide) (plainEntries_exitTexts hname _),
      writable_pairsField (by decide) (plainEntries_exitTexts hname _),
      writable_pairsField (by decide) (plainEntries_numbered hname _)⟩
  | item title =>
    have htitle : Plain title := h title (by simp [payloads])
    exact List.forall_mem_singleton.2 (writable_textField (by decide) htitle)
  | descriptions d => exact Descriptions.writable_fields hname h
  | argument x =>
    exact List.forall_mem_cons.2 ⟨writable_fixed (by decide) _ _, List.forall_mem_singleton.2
      (writable_textField (by decide) (h x.name (by simp [payloads])))⟩
  | code c =>
    exact List.forall_mem_cons.2 ⟨writable_fixed (by decide) _ _, List.forall_mem_cons.2
      ⟨writable_listField (by decide) h, List.forall_mem_singleton.2
        (writable_listField (by decide) (plain_map_name hname _))⟩⟩
  | verb v =>
    exact List.forall_mem_cons.2 ⟨writable_textField (by decide) (h v.name (by simp [payloads])),
      List.forall_mem_cons.2 ⟨writable_listField (by decide) (plain_map_name hname _),
        List.forall_mem_singleton.2 (writable_listField (by decide) (plain_map_name hname _))⟩⟩
  | custom title =>
    intro f hf
    cases hf

/-- Properties with plain names and texts are plain entries. -/
theorem Properties.plainEntries_shown {properties : Properties}
    (h : ∀ text ∈ properties.payloads, Plain text) : PlainEntries (properties.shown name) := by
  intro e he
  obtain ⟨x, hx, rfl⟩ := List.mem_map.1 he
  have hentry : ∀ text ∈ x.1 :: x.2.texts, Plain text := fun text ht =>
    h text (List.mem_flatMap.2 ⟨x, hx, ht⟩)
  obtain ⟨hkey, hvalue⟩ := List.forall_mem_cons.1 hentry
  exact ⟨hkey, PropertyValue.plain_shown hname x.2 hvalue⟩

end

namespace Adventure

/-- Whatever an object is called is plain. -/
theorem plain_idText (a : Adventure) (h : Handle) : Plain (a.idText h) := by
  unfold idText
  cases a.idOf? h with
  | none => exact plain_of_all rfl
  | some id => exact id.plain_print

/-- The record of an object that can be written can be written. -/
theorem RecordOf.writable {a : Adventure} {h : Handle} {o : GameObject} {r : Record}
    (hr : a.RecordOf h o r) (ho : o.Writable) : r.Writable := by
  refine ⟨?_, ?_⟩
  · cases hrendering : o.rendering with
    | some text =>
      rw [hr.rendered text hrendering]
      exact ho.rendering text hrendering
    | none =>
      obtain ⟨kind, _, hbody⟩ := hr.typed hrendering
      rw [hbody]
      exact Kind.writable_fields a.plain_idText r.id (ho.fields hrendering)
  · rw [hr.properties]
    exact Properties.plainEntries_shown a.plain_idText ho.properties

end Adventure

end TextAdventure
