import TextAdventure.Proofs.Compiler.Gaps
import TextAdventure.Proofs.Compiler.UniqueIds

/-!
# Compiling again

An adventure without identifiers gets all of them when it is first compiled, from one block, so they are
distinct. What the checks look at beside identifiers is as it was (`Completed.checks`). Compiling once
more therefore passes the checks, draws nothing and writes the same bytes, and it leaves the adventure and
whatever supply it is given as they are (`compile_again`).

The bytes are made of parts that can be had singly: the record of each object is what encoding that object
alone gives (`mapM_encode_of_artifact`).
-/

namespace TextAdventure

namespace Adventure

variable {a named : Adventure} {config : CompilerConfig}

/-! ## Checks of a completed adventure -/

/-- Completing an adventure registers and removes nothing. -/
theorem Completed.registered (h : a.Completed named) {t : Handle} (ht : a.Registered t) :
    named.Registered t := by
  obtain ⟨o, ho⟩ := Option.isSome_iff_exists.1 ht
  obtain ⟨p, hp, _⟩ := Steps.exists_getElem?_right h.objects ho
  exact Option.isSome_iff_exists.2 ⟨p, hp⟩

/-- What fills a link still fills it once identifiers are assigned. -/
theorem Completed.fills (h : a.Completed named) {link : Link} (hlink : a.Fills link) :
    named.Fills link := by
  obtain ⟨o, ho, haccepts⟩ := hlink
  obtain ⟨p, hp, hcompletes⟩ := Steps.exists_getElem?_right h.objects ho
  obtain ⟨id, rfl⟩ := hcompletes.exists_id
  exact ⟨_, hp, haccepts⟩

/-- A sound adventure stays sound when identifiers are added that are distinct from each other and from
those that were there. -/
theorem Completed.sound (h : a.Completed named) (hsound : a.Sound) (hids : named.heldIds.Nodup) :
    named.Sound := by
  have hstart : named.start = a.start := by rw [h.same]
  have hproperties : named.properties = a.properties := by rw [h.same]
  obtain ⟨start, hsome, hfills⟩ := hsound.start
  refine ⟨⟨start, hstart.trans hsome, h.fills hfills⟩, ?_, ?_, hids⟩
  · intro t ht
    rw [hproperties] at ht
    exact h.registered (hsound.properties t ht)
  · intro o ho
    obtain ⟨before, hbefore, hcompletes⟩ := Steps.exists_mem_left h.objects ho
    obtain ⟨id, rfl⟩ := hcompletes.exists_id
    have hobject := hsound.objects before hbefore
    exact ⟨fun link hlink => h.fills (hobject.links link hlink),
      fun t ht => h.registered (hobject.references t ht)⟩

/-- Identifiers are not among the texts that are checked. -/
theorem Completed.writable (h : a.Completed named) (hwritable : a.Writable) : named.Writable := by
  have hname : named.name = a.name := by rw [h.same]
  have hstartingText : named.startingText = a.startingText := by rw [h.same]
  have hproperties : named.properties = a.properties := by rw [h.same]
  refine ⟨hname ▸ hwritable.name, hstartingText ▸ hwritable.startingText,
    hproperties ▸ hwritable.properties, ?_⟩
  intro o ho
  obtain ⟨before, hbefore, hcompletes⟩ := Steps.exists_mem_left h.objects ho
  obtain ⟨id, rfl⟩ := hcompletes.exists_id
  have hobject := hwritable.objects before hbefore
  exact ⟨hobject.properties, hobject.rendering, hobject.fields, hobject.body⟩

/-- A completed adventure passes the checks if it passed them before and all identifiers are distinct. -/
theorem Completed.checks (h : a.Completed named) (hchecks : a.checks config = .ok ())
    (hids : named.heldIds.Nodup) : named.checks config = .ok () := by
  have hsupported : named.supported = a.supported := by rw [h.same]
  obtain ⟨hversion, hvalidate, hpayloads⟩ := checks_eq_ok_iff.1 hchecks
  refine checks_eq_ok_iff.2 ⟨hsupported ▸ hversion, ?_, ?_⟩
  · exact validate_eq_ok_iff.2 (h.sound (validate_eq_ok_iff.1 hvalidate) hids)
  · exact checkPayloads_eq_ok_iff.2 (h.writable (checkPayloads_eq_ok_iff.1 hpayloads))

/-! ## Records one by one -/

/-- The records of an artifact are what encoding the objects one by one gives. -/
theorem mapM_encode_of_artifact {art : Artifact} (h : a.artifact config = .ok art) :
    ((List.range a.objects.length).mapM fun i => a.encode ⟨i⟩) =
      .ok (art.records.map Record.bytes) := by
  obtain ⟨hnamed, hart⟩ := artifact_eq_ok_iff.1 h
  have hencode : ∀ x ∈ a.handled, ∀ r, a.RecordOf x.1 x.2 r → a.encode x.1 = .ok r.bytes := by
    intro x hx r hr
    have ho := mem_handled.1 hx
    have hrecord : a.record x.1 x.2 = .ok r :=
      record_eq_ok_iff.2 ⟨hnamed x.2 (mem_objects_of_object? ho), hr⟩
    rw [encode, ho]
    exact Steps.map_eq_ok_iff.2 ⟨r, hrecord, rfl⟩
  have hhandles : List.Forall₂ (fun t bytes => a.encode t = .ok bytes)
      (a.handled.map (·.1)) (art.records.map Record.bytes) := by
    rw [List.forall₂_map_left_iff, List.forall₂_map_right_iff]
    refine ((List.forall₂_and_left _ _).2 ⟨fun x hx => hx, hart.records⟩).imp ?_
    rintro x r ⟨hx, hr⟩
    exact hencode x hx r hr
  rw [map_fst_handled, List.forall₂_map_left_iff] at hhandles
  exact Steps.mapM_eq_ok_iff.2 hhandles

end Adventure

/-! ## Compiling again -/

/-- The steps of a compilation that has given bytes. -/
theorem steps_of_compile {config : CompilerConfig} {a : Adventure} {supply : IdSupply}
    {bytes : List UInt8} (h : (compile config a supply).result = .ok bytes) :
    a.checks config = .ok () ∧
      (∃ n, a.assignIds supply =
        some (n, (compile config a supply).adventure, (compile config a supply).supply)) ∧
      ∃ art, (compile config a supply).adventure.artifact config = .ok art ∧ bytes = art.bytes := by
  obtain ⟨hchecks, hids⟩ := Adventure.compilable_iff.1 (compile_eq_ok h).1
  obtain ⟨named, rest, hassign⟩ := Adventure.exists_assignIds hids
  rw [compile_of_assignIds hchecks hassign] at h ⊢
  obtain ⟨art, hart, rfl⟩ := Steps.map_eq_ok_iff.1 h
  exact ⟨hchecks, ⟨_, hassign⟩, art, hart, rfl⟩

/-- Compiling an adventure that had no identifiers a second time gives the same bytes and changes nothing,
neither the adventure nor the supply, which may even be exhausted. The bytes are the header, and between
the two tags of the lookup region the records of the objects, each as it is encoded singly. -/
theorem compile_again {config : CompilerConfig} {a : Adventure} {supply : IdSupply}
    {bytes : List UInt8} (hnone : a.heldIds = [])
    (h : (compile config a supply).result = .ok bytes) :
    (∀ other, compile config (compile config a supply).adventure other =
      ⟨.ok bytes, (compile config a supply).adventure, other⟩) ∧
    ∃ start id records, a.start = some start ∧
      (compile config a supply).adventure.idOf? start = some id ∧
      ((List.range a.objects.length).mapM fun i =>
        (compile config a supply).adventure.encode ⟨i⟩) = .ok records ∧
      bytes = Artifact.headerBytes ⟨config.version, config.runtimes, id, a.name, a.startingText, []⟩
        ++ Tag.lookupBegin.bytes ++ records.flatten ++ Tag.lookupEnd.bytes := by
  obtain ⟨hchecks, ⟨n, hassign⟩, art, hart, rfl⟩ := steps_of_compile h
  obtain ⟨_, ids, hdrawn⟩ := Adventure.assignIds_eq_some hassign
  generalize (compile config a supply).adventure = named at *
  have hcompleted := hdrawn.completed
  constructor
  · intro other
    have hids : named.heldIds.Nodup := by
      have hsound := Adventure.validate_eq_ok_iff.1 (Adventure.checks_eq_ok_iff.1 hchecks).2.1
      rw [hdrawn.nodup_heldIds_iff hsound, hnone]
      exact List.forall_mem_nil _
    rw [compile_of_assignIds (hcompleted.checks hchecks hids)
      (Adventure.assignIds_of_assignIds hassign other), hart]
    rfl
  · have hwritten := hcompleted.writtenAs (Adventure.artifact_eq_ok_iff.1 hart).2
    obtain ⟨start, hstart, hid⟩ := hwritten.startingRoom
    have hlength : named.objects.length = a.objects.length := hcompleted.objects.length_eq.symm
    refine ⟨start, art.startingRoom, art.records.map Record.bytes, hstart, hid, ?_, ?_⟩
    · rw [← hlength]
      exact Adventure.mapM_encode_of_artifact hart
    · rw [Artifact.bytes, List.flatMap_def, ← hwritten.compilerVersion, ← hwritten.runtimes,
        ← hwritten.name, ← hwritten.startingText]
      rfl

/-- The lighthouse before any identifier was handed out. -/
def newLighthouse : Adventure :=
  { lighthouse with objects := lighthouse.objects.map fun o => { o with id := none } }

/-- The lighthouse is compiled from a fresh supply, and then again from one that is exhausted. -/
theorem compile_again_newLighthouse : newLighthouse.heldIds = [] ∧
    ∃ bytes, (compile {} newLighthouse .fresh).result = .ok bytes ∧
      compile {} (compile {} newLighthouse .fresh).adventure (.startingAt IdSupply.sentinel) =
        ⟨.ok bytes, (compile {} newLighthouse .fresh).adventure, .startingAt IdSupply.sentinel⟩ := by
  have hnone : newLighthouse.heldIds = [] := rfl
  have hcompilable : newLighthouse.Compilable {} .fresh :=
    Adventure.compilable_iff.2 ⟨by rfl, by decide⟩
  obtain ⟨_, _, _, art, _, _, heq⟩ := compile_of_compilable hcompilable
  have h : (compile {} newLighthouse .fresh).result = .ok art.bytes := by rw [heq]
  exact ⟨hnone, art.bytes, h, (compile_again hnone h).1 _⟩

end TextAdventure
