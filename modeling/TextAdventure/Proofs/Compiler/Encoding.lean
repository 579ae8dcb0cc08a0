import TextAdventure.Proofs.Adventure.WellFormed
import TextAdventure.Proofs.Compiler.Record

/-!
# Encoding one object

An object can be encoded by itself, whatever state its adventure is in: other objects may lack
identifiers, and handles may lead nowhere. It is encoded exactly if it is registered and has an
identifier, it has a rendering or is not of an author's own kind, and everything that its record names
has an identifier (`encode_succeeds_iff`). A rendering takes the place of the fields, so it does not
matter then what these name; what the properties mention matters always.

The encoder resolves handles in many places, and each of its steps is described in the same way: there
is a list of the objects that the step names, in order, and the step fails at the first of them that has
no identifier (`Resolves`). Steps in a row name one list after the other (`Resolves.bind`). For the
fields of an object the list is the one that validation goes by (`resolves_kindBody`).
-/

namespace TextAdventure.Adventure

/-! ## Steps that name objects -/

/-- The first of some objects that has no identifier. -/
def firstUnnamed? (a : Adventure) (targets : List Handle) : Option Handle :=
  targets.find? fun t => (a.idOf? t).isNone

/-- A step names objects for `source`, in order: it fails at the first one that has no identifier, and
has a result if there is none. -/
def Resolves {β : Type} (a : Adventure) (source : Handle) (targets : List Handle)
    (step : Except CompileError β) : Prop :=
  match a.firstUnnamed? targets with
  | some t => step = .error (.reference ⟨some source, .unresolved t⟩)
  | none => ∃ b, step = .ok b

section
variable {a : Adventure} {source : Handle} {α β : Type}

/-- A step fails at the first object without an identifier that it looks up. -/
theorem Resolves.of_some {targets : List Handle} {step : Except CompileError β} {t : Handle}
    (h : a.Resolves source targets step) (ht : a.firstUnnamed? targets = some t) :
    step = .error (.reference ⟨some source, .unresolved t⟩) := by
  rw [Resolves, ht] at h
  exact h

/-- A step has a result if all objects that it looks up have identifiers. -/
theorem Resolves.of_none {targets : List Handle} {step : Except CompileError β}
    (h : a.Resolves source targets step) (hnone : a.firstUnnamed? targets = none) :
    ∃ b, step = .ok b := by
  rw [Resolves, hnone] at h
  exact h

/-- A result that looks up nothing. -/
theorem resolves_ok (b : β) : a.Resolves source [] (.ok b) := ⟨b, rfl⟩

/-- Looking up one object. -/
theorem resolves_resolve (t : Handle) : a.Resolves source [t] (a.resolve (some source) t) := by
  unfold Resolves firstUnnamed? resolve
  cases hid : a.idOf? t with
  | none => simp [hid]
  | some id => simp [hid]

/-- Two steps in a row name the objects of the first, then those of the second. -/
theorem Resolves.bind {first second : List Handle} {step : Except CompileError α}
    {next : α → Except CompileError β} (hstep : a.Resolves source first step)
    (hnext : ∀ x, a.Resolves source second (next x)) :
    a.Resolves source (first ++ second) (step >>= next) := by
  have happend : a.firstUnnamed? (first ++ second) =
      (a.firstUnnamed? first).or (a.firstUnnamed? second) := List.find?_append
  cases hfirst : a.firstUnnamed? first with
  | some t =>
    rw [Resolves, happend, hfirst, hstep.of_some hfirst]
    rfl
  | none =>
    obtain ⟨x, rfl⟩ := hstep.of_none hfirst
    rw [Resolves, happend, hfirst]
    exact hnext x

/-- A last step that cannot fail names nothing more. -/
theorem Resolves.bind_ok {targets : List Handle} {step : Except CompileError α}
    (h : a.Resolves source targets step) (f : α → β) :
    a.Resolves source targets (step >>= fun x => .ok (f x)) := by
  have hbind := h.bind fun x => resolves_ok (f x)
  rwa [List.append_nil] at hbind

/-- What is made of a result looks up no more. -/
theorem Resolves.map {targets : List Handle} {step : Except CompileError α}
    (h : a.Resolves source targets step) (f : α → β) : a.Resolves source targets (step.map f) := by
  have hbind := h.bind_ok f
  cases step with
  | error e => exact hbind
  | ok x => exact hbind

/-- The steps for the members of a list name the objects of one member after the other. -/
theorem Resolves.mapM {step : α → Except CompileError β} {targets : α → List Handle}
    (h : ∀ x, a.Resolves source (targets x) (step x)) (l : List α) :
    a.Resolves source (l.flatMap targets) (l.mapM step) := by
  induction l with
  | nil => exact resolves_ok []
  | cons x l ih =>
    rw [List.mapM_cons, List.flatMap_cons]
    exact (h x).bind fun y => ih.bind_ok (y :: ·)

/-- Looking up one object for each element of a list, in order. -/
theorem resolves_mapM_resolve (target : α → Handle) (f : α → ObjectId → β) (l : List α) :
    a.Resolves source (l.map target)
      (l.mapM fun x => (a.resolve (some source) (target x)).map (f x)) := by
  rw [List.map_eq_flatMap]
  exact Resolves.mapM (fun x => (resolves_resolve (target x)).map (f x)) l

/-! ## Fields -/

/-- Looking up a list of objects, in order. -/
theorem resolves_resolveAll (targets : List Handle) :
    a.Resolves source targets (a.resolveAll source targets) := by
  have hall : a.Resolves source (targets.map fun t => t) (a.resolveAll source targets) :=
    resolves_mapM_resolve (fun t => t) (fun _ => ObjectId.print) targets
  rwa [List.map_id'] at hall

/-- Exits look up the rooms that they lead to. -/
theorem resolves_exitEntries (exits : SortedMap Direction Handle) :
    a.Resolves source exits.values (a.exitEntries source exits) :=
  resolves_mapM_resolve (fun e => e.2)
    (fun e id => (Numeral.print e.1.code.toNat, id.print)) exits.entries

/-- Descriptions look up the objects that they name. -/
theorem resolves_descriptionsFields (d : Descriptions) :
    a.Resolves source d.references (a.descriptionsFields source d) :=
  (resolves_mapM_resolve (fun e => e.1) (fun e id => (id.print, e.2))
    d.whenPickedUp.entries).bind_ok _

/-- A room looks up what its descriptions name, its exits and its items. -/
theorem resolves_roomFields (id : ObjectId) (r : Room) :
    a.Resolves source r.references (a.roomFields source id r) := by
  rw [Room.references, List.append_assoc, List.append_assoc]
  exact (resolves_descriptionsFields r.descriptions).bind fun _ =>
    (resolves_exitEntries r.exits).bind fun _ =>
      (resolves_exitEntries r.exitDescriptions).bind fun _ =>
        (resolves_resolveAll r.items).bind_ok _

/-- The fields of an object name what its kind lists. -/
theorem resolves_kindBody {kind : Kind} (h : kind.recordKind?.isSome = true) (id : ObjectId) :
    a.Resolves source kind.references (a.kindBody source id kind) := by
  cases kind with
  | room r => exact (resolves_roomFields id r).bind_ok _
  | item name => exact resolves_ok _
  | descriptions d => exact (resolves_descriptionsFields d).bind_ok _
  | argument x => exact resolves_ok _
  | code c => exact (resolves_resolveAll c.children).bind_ok _
  | verb v =>
    exact (resolves_resolveAll v.arguments).bind fun _ => (resolves_resolveAll v.body).bind_ok _
  | custom name => cases h

/-! ## Properties -/

mutual

/-- The text of a value names the objects in it, at any depth and from left to right. -/
theorem resolves_propertyText :
    ∀ value : PropertyValue, a.Resolves source value.references (a.propertyText source value)
  | .text _ | .integer _ | .float _ | .boolean true | .boolean false => resolves_ok _
  | .list items => (resolves_propertyTexts items).bind_ok _
  | .object target => (resolves_resolve target).map _

/-- The texts of values look up the objects among the values. -/
theorem resolves_propertyTexts : ∀ values : List PropertyValue,
    a.Resolves source (PropertyValue.referencesList values) (a.propertyTexts source values)
  | [] => resolves_ok _
  | value :: values =>
    (resolves_propertyText value).bind fun _ => (resolves_propertyTexts values).bind_ok _

end

/-- Properties look up the objects among their values, in the order of their names. -/
theorem resolves_properties (properties : Properties) :
    a.Resolves source properties.references (properties.entries.mapM
      fun (x : String × PropertyValue) => (a.propertyText source x.2).map fun text => (x.1, text)) := by
  rw [Properties.references, SortedMap.values, List.flatMap_map]
  exact Resolves.mapM (fun x => (resolves_propertyText x.2).map _) properties.entries

/-! ## Records -/

/-- A rendering names nothing, and the objects in the fields then need no identifiers. -/
theorem resolves_objectBody {o : GameObject} (h : o.HasBody) (id : ObjectId) :
    a.Resolves source (if o.rendering.isSome then [] else o.kind.references)
      (a.objectBody source id o) := by
  unfold objectBody
  cases hrendering : o.rendering with
  | some text => exact resolves_ok _
  | none =>
    have hkind := h.resolve_left (by simp [hrendering])
    exact resolves_kindBody hkind id

/-- The record of an object with an identifier names what is in its body, then what is in its
properties. -/
theorem resolves_record {h : Handle} {o : GameObject} {id : ObjectId} (hid : a.idOf? h = some id)
    (hbody : o.HasBody) : a.Resolves h o.written (a.record h o) := by
  have hresolve : a.resolve none h = .ok id := resolve_eq_ok_iff.2 hid
  rw [record_eq, hresolve, Steps.ok_bind, GameObject.written]
  exact (resolves_objectBody hbody id).bind fun _ => (resolves_properties o.properties).bind_ok _

end

/-! ## Encoding -/

/-- An object that can be encoded by itself. -/
structure Encodable (a : Adventure) (h : Handle) (o : GameObject) : Prop where
  registered : a.object? h = some o
  identified : o.id.isSome = true
  body : o.rendering.isSome = true ∨ ∀ name, o.kind ≠ .custom name
  /-- The objects in the properties, at any depth of lists, are registered and have identifiers. -/
  properties : ∀ t, o.properties.Mentions t → a.Named t
  /-- So are the objects that the fields name, unless a rendering stands for the fields. -/
  fields : o.rendering = none → ∀ t ∈ o.kind.references, a.Named t

/-- Why an object cannot be encoded. -/
inductive Unencodable (a : Adventure) (h : Handle) : CompileError → Prop
  | unregistered : a.object? h = none → Unencodable a h (.reference ⟨none, .unregistered h⟩)
  | unidentified {o : GameObject} : a.object? h = some o → o.id = none →
      Unencodable a h (.reference ⟨none, .unresolved h⟩)
  | unknownKind {o : GameObject} {name : String} : a.object? h = some o → o.id.isSome = true →
      o.rendering = none → o.kind = .custom name → Unencodable a h (.unknownKind name h)
  /-- Of the objects that the record names, those of the properties last, this is the first without an
  identifier. -/
  | unresolved {o : GameObject} {t : Handle} : a.object? h = some o → o.id.isSome = true →
      o.HasBody → a.firstUnnamed? o.written = some t →
      Unencodable a h (.reference ⟨some h, .unresolved t⟩)

section
variable {a : Adventure} {h : Handle} {o : GameObject}

/-- The identifier behind a handle is that of the object behind it. -/
theorem idOf?_of_object? (ho : a.object? h = some o) : a.idOf? h = o.id := by
  rw [idOf?, ho]
  rfl

/-- Every kind has fields to be written with, except for the authors' own. -/
theorem hasBody_iff : o.HasBody ↔ o.rendering.isSome = true ∨ ∀ name, o.kind ≠ .custom name := by
  rw [GameObject.HasBody]
  cases o.kind <;> simp [Kind.recordKind?]

/-- An object is encoded as the bytes of its record. -/
theorem encode_of_object? (ho : a.object? h = some o) :
    a.encode h = (a.record h o).map Record.bytes := by
  rw [encode, ho]

/-- None of some objects is without an identifier exactly if all of them have one. -/
theorem firstUnnamed?_eq_none_iff {targets : List Handle} :
    a.firstUnnamed? targets = none ↔ ∀ t ∈ targets, a.Named t := by
  simp only [firstUnnamed?, List.find?_eq_none, Named, Option.isNone_iff_eq_none,
    ← Option.isSome_iff_ne_none]

/-- Everything that the record names has an identifier exactly if that holds of the properties and,
without a rendering, of the fields. -/
theorem forall_written_iff : (∀ t ∈ o.written, a.Named t) ↔
    (∀ t, o.properties.Mentions t → a.Named t) ∧
      (o.rendering = none → ∀ t ∈ o.kind.references, a.Named t) := by
  simp only [GameObject.written, List.forall_mem_append, Properties.mem_references_iff]
  cases o.rendering with
  | some text => simp
  | none => simp [and_comm]

/-- An object with an identifier and a body is encoded unless its record names an object without an
identifier. -/
theorem resolves_encode (ho : a.object? h = some o) (hid : o.id.isSome = true)
    (hbody : o.HasBody) : a.Resolves h o.written (a.encode h) := by
  obtain ⟨id, hid⟩ := Option.isSome_iff_exists.1 hid
  rw [encode_of_object? ho]
  exact (resolves_record ((idOf?_of_object? ho).trans hid) hbody).map _

/-- An encodable object is encoded. -/
theorem Encodable.exists_encode (henc : a.Encodable h o) : ∃ bytes, a.encode h = .ok bytes :=
  (resolves_encode henc.registered henc.identified (hasBody_iff.2 henc.body)).of_none
    (firstUnnamed?_eq_none_iff.2 (forall_written_iff.2 ⟨henc.properties, henc.fields⟩))

/-- An object that is not encodable fails with the error that says why. -/
theorem Unencodable.encode_eq {e : CompileError} (hun : a.Unencodable h e) :
    a.encode h = .error e := by
  cases hun with
  | unregistered ho => rw [encode, ho]
  | unidentified ho hid =>
    have hresolve : a.resolve none h = .error (.reference ⟨none, .unresolved h⟩) := by
      rw [resolve, idOf?_of_object? ho, hid]
    rw [encode_of_object? ho, record_eq, hresolve]
    rfl
  | unknownKind ho hid hrendering hkind =>
    obtain ⟨id, hid⟩ := Option.isSome_iff_exists.1 hid
    have hresolve : a.resolve none h = .ok id :=
      resolve_eq_ok_iff.2 ((idOf?_of_object? ho).trans hid)
    rw [encode_of_object? ho, record_eq, hresolve, Steps.ok_bind, objectBody, hrendering, hkind]
    rfl
  | unresolved ho hid hbody ht => exact (resolves_encode ho hid hbody).of_some ht

/-- A handle leads to an object that can be encoded, or there is a reason why not. -/
theorem encodable_or_unencodable (a : Adventure) (h : Handle) :
    (∃ o, a.Encodable h o) ∨ ∃ e, a.Unencodable h e := by
  cases ho : a.object? h with
  | none => exact .inr ⟨_, .unregistered ho⟩
  | some o =>
    cases hid : o.id with
    | none => exact .inr ⟨_, .unidentified ho hid⟩
    | some id =>
      have hsome : o.id.isSome = true := by rw [hid]; rfl
      by_cases hbody : o.HasBody
      · cases hfirst : a.firstUnnamed? o.written with
        | some t => exact .inr ⟨_, .unresolved ho hsome hbody hfirst⟩
        | none =>
          obtain ⟨hproperties, hfields⟩ :=
            forall_written_iff.1 (firstUnnamed?_eq_none_iff.1 hfirst)
          exact .inl ⟨o, ho, hsome, hasBody_iff.1 hbody, hproperties, hfields⟩
      · rw [hasBody_iff] at hbody
        obtain ⟨hrendering, hkind⟩ := not_or.1 hbody
        obtain ⟨name, hname⟩ := not_forall_not.1 hkind
        exact .inr ⟨_, .unknownKind ho hsome (by simpa using hrendering) hname⟩

end

/-- An object is encoded exactly if it is registered and has an identifier, it has a rendering or is not
of an author's own kind, and all that its record names has an identifier. Otherwise the error gives the
reason. -/
theorem encode_succeeds_iff (a : Adventure) (h : Handle) :
    ((∃ bytes, a.encode h = .ok bytes) ↔ ∃ o, a.Encodable h o) ∧
      ∀ e, a.encode h = .error e ↔ a.Unencodable h e := by
  refine ⟨⟨?_, ?_⟩, fun e => ⟨?_, Unencodable.encode_eq⟩⟩
  · rintro ⟨bytes, hbytes⟩
    rcases encodable_or_unencodable a h with henc | ⟨e, he⟩
    · exact henc
    · cases hbytes.symm.trans he.encode_eq
  · rintro ⟨o, henc⟩
    exact henc.exists_encode
  · intro herror
    rcases encodable_or_unencodable a h with ⟨o, henc⟩ | ⟨e', he⟩
    · obtain ⟨bytes, hbytes⟩ := henc.exists_encode
      cases hbytes.symm.trans herror
    · cases he.encode_eq.symm.trans herror
      exact he

end TextAdventure.Adventure
