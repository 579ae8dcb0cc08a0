import TextAdventure.Proofs.Adventure.Identifiers
import TextAdventure.Proofs.Compiler.Payload

/-!
# What compiling comes to

An adventure can be compiled if the compiler's version is supported, its references and identifiers
are sound, its texts can be written, and the missing identifiers fit into the supply (`Compilable`).
Then compiling succeeds, and of the adventure only missing identifiers and the index of rooms have
changed. Otherwise the first check that fails gives the reason (`Refused`), and nothing has changed.

That nothing can fail after identifiers were handed out rests on two facts: validation has seen
every object that a record names, and every registered object has an identifier by then
(`Completed.exists_artifact`).
-/

namespace TextAdventure

/-- An object that was completed differs from before in its identifier only. -/
theorem GameObject.Completes.exists_id {o before : GameObject} (h : o.Completes before) :
    ∃ id, o = { before with id := id } :=
  ⟨o.id, h.same⟩

namespace Adventure

/-! ## Adventures with identifiers -/

section
variable {a named : Adventure}

/-- Completing an adventure keeps objects and handles together. -/
theorem Completed.handled (h : a.Completed named) :
    List.Forall₂ (fun x y => y.1 = x.1 ∧ y.2.Completes x.2) a.handled named.handled := by
  have hzip : ∀ {l m : List GameObject}, List.Forall₂ (fun before o => o.Completes before) l m →
      ∀ n, List.Forall₂ (fun x y => y.2 = x.2 ∧ y.1.Completes x.1) (l.zipIdx n) (m.zipIdx n) := by
    intro l m hlm
    induction hlm with
    | nil => exact fun _ => .nil
    | cons ho _ ih => exact fun n => .cons ⟨rfl, ho⟩ (ih (n + 1))
  rw [Adventure.handled, Adventure.handled, List.forall₂_map_left_iff, List.forall₂_map_right_iff]
  exact (hzip h.objects 0).imp fun x y hxy => ⟨congrArg Handle.mk hxy.1, hxy.2⟩

/-- Every object of a completed adventure has an identifier. -/
theorem Completed.named_of_mem_handled (h : a.Completed named) {t : Handle} {o : GameObject}
    (ho : (t, o) ∈ named.handled) : named.Named t := by
  have hobject := mem_handled.1 ho
  rw [Named, idOf?, hobject]
  exact h.objects_isSome o (mem_objects_of_object? hobject)

/-- Every registered object of a completed adventure has an identifier. -/
theorem Completed.named_of_registered (h : a.Completed named) {t : Handle} (ht : a.Registered t) :
    named.Named t := by
  obtain ⟨before, hbefore⟩ := Option.isSome_iff_exists.1 ht
  obtain ⟨⟨_, o⟩, ho, rfl, _⟩ := Steps.exists_mem_right h.handled (mem_handled.2 hbefore)
  exact h.named_of_mem_handled ho

/-- The object behind a handle of a completed adventure was there before. -/
theorem Completed.exists_before (h : a.Completed named) {t : Handle} {o : GameObject}
    (ho : (t, o) ∈ named.handled) : ∃ before ∈ a.objects, o.Completes before := by
  obtain ⟨⟨_, before⟩, hbefore, rfl, hcompletes⟩ := Steps.exists_mem_left h.handled ho
  exact ⟨before, mem_objects_of_object? (mem_handled.1 hbefore), hcompletes⟩

/-- What a record names is part of what the object names. -/
theorem mem_references_of_mem_written {o : GameObject} {t : Handle} (ht : t ∈ o.written) :
    t ∈ o.references := by
  rcases List.mem_append.1 ht with ht | ht
  · split at ht
    · cases ht
    · exact List.mem_append_left _ ht
  · exact List.mem_append_right _ ht

/-- Once a sound adventure is completed, each of its objects that can be written becomes a record.
Validation has seen all that the object names, which is at least what its record names. -/
theorem Completed.exists_record (h : a.Completed named) (hsound : a.Sound) (hwritable : a.Writable)
    {t : Handle} {o : GameObject} (ho : (t, o) ∈ named.handled) :
    ∃ r, named.record t o = .ok r := by
  obtain ⟨before, hbefore, hcompletes⟩ := h.exists_before ho
  obtain ⟨id, rfl⟩ := hcompletes.exists_id
  have hwritten : ∀ target ∈ before.written, named.Named target := fun target htarget =>
    h.named_of_registered ((hsound.objects before hbefore).references target
      (mem_references_of_mem_written htarget))
  obtain ⟨r, hr⟩ := exists_recordOf (o := { before with id := id }) (h.named_of_mem_handled ho)
    (hwritable.objects before hbefore).body
  exact ⟨r, record_eq_ok_iff.2 ⟨hwritten, hr⟩⟩

end

/-- The identifier that an object holds does not enter its record but through its handle. -/
theorem RecordOf.of_completes {a : Adventure} {t : Handle} {o before : GameObject} {r : Record}
    (hr : a.RecordOf t o r) (h : o.Completes before) : a.RecordOf t before r := by
  obtain ⟨id, rfl⟩ := h.exists_id
  exact ⟨hr.id, hr.rendered, hr.typed, hr.properties⟩

/-! ## Artifacts -/

/-- The artifact that an adventure is written as, where objects go by the identifiers they have in
`named`. -/
structure WrittenAs (a named : Adventure) (config : CompilerConfig) (art : Artifact) : Prop where
  compilerVersion : art.compilerVersion = config.version
  runtimes : art.runtimes = config.runtimes
  startingRoom : ∃ start, a.start = some start ∧ named.idOf? start = some art.startingRoom
  name : art.name = a.name
  startingText : art.startingText = a.startingText
  /-- There is one record for each object, in the order of registration. -/
  records : List.Forall₂ (fun x r => named.RecordOf x.1 x.2 r) a.handled art.records

section
variable {a named : Adventure} {config : CompilerConfig} {art : Artifact}

/-- An artifact is made exactly if all objects that its records name have identifiers. -/
theorem artifact_eq_ok_iff :
    a.artifact config = .ok art ↔
      (∀ o ∈ a.objects, ∀ t ∈ o.written, a.Named t) ∧ a.WrittenAs a config art := by
  have hrecords : ∀ {records}, (a.handled.mapM fun x => a.record x.1 x.2) = .ok records ↔
      (∀ o ∈ a.objects, ∀ t ∈ o.written, a.Named t) ∧
        List.Forall₂ (fun x r => a.RecordOf x.1 x.2 r) a.handled records := by
    intro records
    rw [Steps.mapM_eq_ok_iff, ← forall_mem_handled]
    simp only [record_eq_ok_iff]
    exact List.forall₂_and_left _ _
  unfold artifact
  cases hstart : a.start with
  | none =>
    constructor
    · intro h
      cases h
    · rintro ⟨_, hart⟩
      obtain ⟨start, hsome, _⟩ := hart.startingRoom
      cases hstart.symm.trans hsome
  | some start =>
    simp only [Steps.bind_eq_ok_iff, resolve_eq_ok_iff]
    constructor
    · rintro ⟨id, hid, records, hmapM, h⟩
      cases h
      obtain ⟨hnamed, hforall⟩ := hrecords.1 hmapM
      exact ⟨hnamed, rfl, rfl, ⟨start, hstart, hid⟩, rfl, rfl, hforall⟩
    · rintro ⟨hnamed, hart⟩
      obtain ⟨found, hfound, hid⟩ := hart.startingRoom
      cases hstart.symm.trans hfound
      refine ⟨art.startingRoom, hid, art.records, hrecords.2 ⟨hnamed, hart.records⟩, ?_⟩
      rw [← hart.compilerVersion, ← hart.runtimes, ← hart.name, ← hart.startingText]
      rfl

/-- Once a sound adventure whose texts can be written is completed, no step of writing it can
fail. -/
theorem Completed.exists_artifact (h : a.Completed named) (hsound : a.Sound)
    (hwritable : a.Writable) (config : CompilerConfig) :
    ∃ art, named.artifact config = .ok art := by
  obtain ⟨start, hstart, o, ho, _⟩ := hsound.start
  have hregistered : a.Registered start := by
    rw [Registered, ho]
    rfl
  obtain ⟨id, hid⟩ := Option.isSome_iff_exists.1 (h.named_of_registered hregistered)
  have hstart' : named.start = some start := by
    rw [h.same]
    exact hstart
  obtain ⟨records, hrecords⟩ : ∃ records, (named.handled.mapM fun x => named.record x.1 x.2) =
      .ok records := Steps.exists_mapM_eq_ok fun x hx => h.exists_record hsound hwritable hx
  have hresolve : named.resolve none start = .ok id := resolve_eq_ok_iff.2 hid
  simp only [artifact, hstart', hresolve, Steps.ok_bind, hrecords]
  exact ⟨_, rfl⟩

/-- The artifact of a completed adventure is what the adventure was before, by the identifiers that
it has now. -/
theorem Completed.writtenAs (h : a.Completed named) (hart : named.WrittenAs named config art) :
    a.WrittenAs named config art := by
  have hname : named.name = a.name := by rw [h.same]
  have hstartingText : named.startingText = a.startingText := by rw [h.same]
  have hstart : named.start = a.start := by rw [h.same]
  refine ⟨hart.compilerVersion, hart.runtimes, hstart ▸ hart.startingRoom, hname ▸ hart.name,
    hstartingText ▸ hart.startingText, Steps.forall₂_trans ?_ h.handled hart.records⟩
  rintro x y r ⟨hhandle, hcompletes⟩ hr
  rw [hhandle] at hr
  exact hr.of_completes hcompletes

/-- An adventure that can be written is written as an artifact that can be written. -/
theorem WrittenAs.writable (hart : a.WrittenAs named config art) (h : a.Writable) :
    art.Writable := by
  refine ⟨hart.name ▸ h.name, hart.startingText ▸ h.startingText, fun r hr => ?_⟩
  obtain ⟨x, hx, hrecord⟩ := Steps.exists_mem_left hart.records hr
  exact hrecord.writable (forall_mem_handled.2 h.objects x hx)

end

/-! ## Checks -/

/-- An adventure that can be compiled with identifiers from a supply. -/
structure Compilable (a : Adventure) (config : CompilerConfig) (supply : IdSupply) : Prop where
  version : a.supported.accepts config.version = true
  references : a.validate = .ok ()
  payloads : a.Writable
  /-- The missing identifiers fit below the sentinel, which is the last number of 32 bits. -/
  ids : supply.next.toNat + a.missingIds < UInt32.size

/-- The reason why an adventure is not compiled: that of the first check that fails. -/
inductive Refused (a : Adventure) (config : CompilerConfig) (supply : IdSupply) :
    CompileError → Prop
  | version : a.supported.accepts config.version = false →
      Refused a config supply (.versionMismatch config.version a.supported)
  | references {e : ReferenceError} : a.supported.accepts config.version = true →
      a.validate = .error e → Refused a config supply (.reference e)
  | payloads {e : CompileError} : a.supported.accepts config.version = true →
      a.validate = .ok () → a.checkPayloads = .error e → Refused a config supply e
  | ids : a.supported.accepts config.version = true → a.validate = .ok () →
      a.checkPayloads = .ok () → UInt32.size ≤ supply.next.toNat + a.missingIds →
      Refused a config supply .idsExhausted

section
variable {a : Adventure} {config : CompilerConfig} {supply : IdSupply}

/-- All checks pass exactly if each of the three passes. -/
theorem checks_eq_ok_iff : a.checks config = .ok () ↔
    a.supported.accepts config.version = true ∧ a.validate = .ok () ∧ a.checkPayloads = .ok () := by
  unfold checks
  split
  next hversion =>
    rw [Steps.andThen_eq_ok_iff]
    cases a.validate with
    | error e => simp [Except.mapError]
    | ok _ => simp [Except.mapError, hversion]
  next hversion => simp [hversion]

/-- An adventure can be compiled exactly if all checks pass and the identifiers suffice. -/
theorem compilable_iff : a.Compilable config supply ↔
    a.checks config = .ok () ∧ supply.next.toNat + a.missingIds < UInt32.size := by
  rw [checks_eq_ok_iff, checkPayloads_eq_ok_iff]
  constructor
  · rintro ⟨hversion, hreferences, hpayloads, hids⟩
    exact ⟨⟨hversion, hreferences, hpayloads⟩, hids⟩
  · rintro ⟨⟨hversion, hreferences, hpayloads⟩, hids⟩
    exact ⟨hversion, hreferences, hpayloads, hids⟩

/-- The first check that fails gives the reason for refusal. -/
theorem refused_of_checks {e : CompileError} (h : a.checks config = .error e) :
    a.Refused config supply e := by
  unfold checks at h
  split at h
  next hversion =>
    cases hvalidate : a.validate with
    | error found =>
      rw [hvalidate] at h
      cases h
      exact .references hversion hvalidate
    | ok _ =>
      rw [hvalidate] at h
      exact .payloads hversion hvalidate h
  next hversion =>
    cases h
    exact .version (Bool.eq_false_iff.2 hversion)

end

end Adventure

/-! ## The whole -/

section
variable {a : Adventure} {config : CompilerConfig} {supply : IdSupply}

/-- Once the checks have passed and identifiers were handed out, what is left is writing. -/
theorem compile_of_assignIds {n : Nat} {named : Adventure} {rest : IdSupply}
    (hchecks : a.checks config = .ok ()) (hassign : a.assignIds supply = some (n, named, rest)) :
    compile config a supply = ⟨(named.artifact config).map Artifact.bytes, named, rest⟩ := by
  rw [compile, hchecks]
  simp only [hassign]

/-- An adventure that can be compiled is compiled, with the missing identifiers drawn from the
supply. -/
theorem compile_of_compilable (h : a.Compilable config supply) :
    ∃ named rest ids art, a.Drawn supply named rest ids ∧ a.WrittenAs named config art ∧
      compile config a supply = ⟨.ok art.bytes, named, rest⟩ := by
  obtain ⟨hchecks, hids⟩ := Adventure.compilable_iff.1 h
  obtain ⟨named, rest, hassign⟩ := Adventure.exists_assignIds hids
  obtain ⟨_, ids, hdrawn⟩ := Adventure.assignIds_eq_some hassign
  obtain ⟨art, hart⟩ := hdrawn.completed.exists_artifact
    (Adventure.validate_eq_ok_iff.1 h.references) h.payloads config
  refine ⟨named, rest, ids, art, hdrawn, ?_, ?_⟩
  · exact hdrawn.completed.writtenAs (Adventure.artifact_eq_ok_iff.1 hart).2
  · rw [compile_of_assignIds hchecks hassign, hart]
    rfl

/-- An adventure that cannot be compiled is refused by its first failing check, and is left as it
is, as is the supply. -/
theorem compile_of_not_compilable (h : ¬ a.Compilable config supply) :
    ∃ e, a.Refused config supply e ∧ compile config a supply = ⟨.error e, a, supply⟩ := by
  cases hchecks : a.checks config with
  | error e =>
    refine ⟨e, Adventure.refused_of_checks hchecks, ?_⟩
    rw [compile, hchecks]
  | ok _ =>
    have hids : UInt32.size ≤ supply.next.toNat + a.missingIds :=
      Nat.not_lt.1 fun hids => h (Adventure.compilable_iff.2 ⟨hchecks, hids⟩)
    obtain ⟨hversion, hreferences, hpayloads⟩ := Adventure.checks_eq_ok_iff.1 hchecks
    refine ⟨.idsExhausted, .ids hversion hreferences hpayloads hids, ?_⟩
    rw [compile, hchecks]
    simp only [Adventure.assignIds_eq_none_iff.2 hids]

/-- What is known once compiling has given bytes. -/
theorem compile_eq_ok {bytes : List UInt8} (h : (compile config a supply).result = .ok bytes) :
    a.Compilable config supply ∧
      (∃ ids, a.Drawn supply (compile config a supply).adventure
        (compile config a supply).supply ids) ∧
      ∃ art, a.WrittenAs (compile config a supply).adventure config art ∧ bytes = art.bytes := by
  by_cases hc : a.Compilable config supply
  · obtain ⟨named, rest, ids, art, hdrawn, hart, heq⟩ := compile_of_compilable hc
    rw [heq] at h ⊢
    exact ⟨hc, ⟨ids, hdrawn⟩, art, hart, (Except.ok.inj h).symm⟩
  · obtain ⟨e, _, heq⟩ := compile_of_not_compilable hc
    rw [heq] at h
    cases h

end

/-- Compiling is all or nothing. It succeeds exactly if the adventure can be compiled; otherwise the
first failing check gives the reason, and the adventure and the supply stay as they were. Once
identifiers are there, no step of writing can fail. After success, only identifiers that were
missing and the index of rooms have changed, and the supply has moved on by as many as were
missing. -/
theorem compile_all_or_nothing (config : CompilerConfig) (a : Adventure) (supply : IdSupply) :
    ((∃ bytes, (compile config a supply).result = .ok bytes) ↔ a.Compilable config supply) ∧
    (¬ a.Compilable config supply →
      ∃ e, a.Refused config supply e ∧ compile config a supply = ⟨.error e, a, supply⟩) ∧
    (a.Compilable config supply →
      ∀ named, a.Completed named → ∃ art, named.artifact config = .ok art) ∧
    (a.Compilable config supply → a.Completed (compile config a supply).adventure ∧
      (compile config a supply).supply.next.toNat = supply.next.toNat + a.missingIds) := by
  refine ⟨⟨?_, ?_⟩, compile_of_not_compilable, ?_, ?_⟩
  · rintro ⟨bytes, h⟩
    exact (compile_eq_ok h).1
  · intro h
    obtain ⟨_, _, _, art, _, _, heq⟩ := compile_of_compilable h
    exact ⟨art.bytes, by rw [heq]⟩
  · intro h named hnamed
    exact hnamed.exists_artifact (Adventure.validate_eq_ok_iff.1 h.references) h.payloads config
  · intro h
    obtain ⟨named, rest, ids, art, hdrawn, _, heq⟩ := compile_of_compilable h
    rw [heq]
    exact ⟨hdrawn.completed, hdrawn.next⟩

/-! ## A small adventure -/

/-- An adventure with objects of all kinds: two rooms that lead to each other, one of which has an
identifier already, a statement inside itself, and properties that name objects in a list. -/
def lighthouse : Adventure where
  name := "Lighthouse"
  startingText := "It is night."
  supported := .atLeast ⟨0, 1, 0⟩
  start := some ⟨0⟩
  objects := [
    { kind := .room
        { title := "Stairs"
          descriptions := { usual := "Steep.", whenPickedUp := .ofList [(⟨2⟩, "Dark.")] }
          exits := .ofList [(.up, ⟨1⟩)]
          exitDescriptions := .ofList [(.up, ⟨3⟩)]
          items := [⟨2⟩] } },
    { id := some ⟨9⟩, kind := .room { title := "Lamp room", exits := .ofList [(.down, ⟨0⟩)] } },
    { kind := .item "candle"
      rendering := some "a candle"
      properties := .ofList [("lights", .list [.object ⟨1⟩, .object ⟨0⟩])] },
    { kind := .descriptions { usual := "Up." } },
    { kind := .verb { name := "light", arguments := [⟨5⟩], body := [⟨6⟩] } },
    { kind := .argument { type := .item, name := "what" } },
    { kind := .code { keyword := .endSuccess, arguments := ["", "bright"], children := [⟨6⟩] } },
    { kind := .custom "weather", rendering := some "fog" }]

/-- The lighthouse is compiled. -/
theorem exists_compile_lighthouse : ∃ bytes, (compile {} lighthouse .fresh).result = .ok bytes := by
  have hcompilable : lighthouse.Compilable {} .fresh :=
    Adventure.compilable_iff.2 ⟨by rfl, by decide⟩
  obtain ⟨_, _, _, art, _, _, heq⟩ := compile_of_compilable hcompilable
  exact ⟨art.bytes, by rw [heq]⟩

end TextAdventure
