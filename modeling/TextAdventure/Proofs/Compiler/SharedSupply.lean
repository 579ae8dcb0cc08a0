import TextAdventure.Proofs.Compiler.Outcome

/-!
# Adventures that share a supply of identifiers

Several adventures are worked on at the same time and draw their identifiers from one supply. Objects
are registered and edited, starts are declared, identifiers are handed out and adventures are
compiled, in any order and with or without success. As long as nobody sets identifiers by hand, all
identifiers are distinct across the adventures and below the next one of the supply, and an
identifier that was given stays (`run_distinct`).

Every action either leaves the identifiers as they are or adds the block that the supply hands out
(`Action.advances`). The supply never goes back, so a block is disjoint from all that is held.
-/

namespace TextAdventure

/-! ## Actions -/

/-- Something that is done with an adventure. -/
inductive Action where
  | register (o : GameObject)
  /-- Changes an object in place. -/
  | edit (h : Handle) (change : GameObject → GameObject)
  | setStart (h : Handle)
  | assignIds
  | compile (config : CompilerConfig)

namespace Action

/-- The adventure and the supply after an action. One that is refused leaves both as they are. -/
def apply (a : Adventure) (supply : IdSupply) : Action → Adventure × IdSupply
  | .register o => ((a.register o).2, supply)
  | .edit h change => (a.modify h change, supply)
  | .setStart h => ((a.setStart h).toOption.getD a, supply)
  | .assignIds =>
    match a.assignIds supply with
    | some (_, assigned, rest) => (assigned, rest)
    | none => (a, supply)
  | .compile config =>
    let compilation := TextAdventure.compile config a supply
    (compilation.adventure, compilation.supply)

/-- The action sets no identifier by hand: new objects have none, and edits keep them. -/
def LeavesIds : Action → Prop
  | .register o => o.id = none
  | .edit _ change => ∀ o, (change o).id = o.id
  | .setStart _ => True
  | .assignIds => True
  | .compile _ => True

end Action

/-- Adventures with the supply that they share. -/
structure Workshop where
  adventures : List Adventure
  supply : IdSupply

namespace Workshop

/-- The workshop after an action on one of the adventures. -/
def step (w : Workshop) (index : Nat) (action : Action) : Workshop :=
  match w.adventures[index]? with
  | some a =>
    ⟨w.adventures.set index (action.apply a w.supply).1, (action.apply a w.supply).2⟩
  | none => w

/-- The workshop after actions, each on the adventure with the given number. -/
def run (w : Workshop) (actions : List (Nat × Action)) : Workshop :=
  actions.foldl (fun w x => w.step x.1 x.2) w

/-- The identifiers that the adventures and their objects have. -/
def heldIds (w : Workshop) : List ObjectId := w.adventures.flatMap Adventure.heldIds

end Workshop

/-! ## What an action does with identifiers -/

namespace Adventure

variable {a b c : Adventure}

/-- The adventure and its objects keep the identifiers that they have. -/
structure KeepsIds (a b : Adventure) : Prop where
  id : ∀ id, a.id = some id → b.id = some id
  objects : ∀ h id, a.idOf? h = some id → b.idOf? h = some id

/-- An adventure keeps its own identifiers. -/
theorem KeepsIds.refl (a : Adventure) : a.KeepsIds a :=
  ⟨fun _ h => h, fun _ _ h => h⟩

/-- Identifiers that are kept twice in a row are kept. -/
theorem KeepsIds.trans (hab : a.KeepsIds b) (hbc : b.KeepsIds c) : a.KeepsIds c :=
  ⟨fun id h => hbc.id id (hab.id id h), fun t id h => hbc.objects t id (hab.objects t id h)⟩

/-- What was drawn from the supply is added to the identifiers of an adventure, and those that were
there stay. -/
structure Advances (a : Adventure) (supply : IdSupply) (b : Adventure) (rest : IdSupply) : Prop where
  keeps : a.KeepsIds b
  drawn : ∃ count, rest.next.toNat = supply.next.toNat + count ∧
    b.heldIds.Perm (IdBlock.ids ⟨supply.next.toNat, count⟩ ++ a.heldIds)

/-- Completing an adventure gives identifiers only to what has none. -/
theorem Completed.keepsIds (h : a.Completed b) : a.KeepsIds b := by
  refine ⟨h.kept, fun t id hid => ?_⟩
  obtain ⟨before, hbefore, hsome⟩ := Option.bind_eq_some_iff.1 hid
  obtain ⟨⟨_, o⟩, ho, rfl, hcompletes⟩ := Steps.exists_mem_right h.handled (mem_handled.2 hbefore)
  rw [idOf?, mem_handled.1 ho]
  exact hcompletes.kept id hsome

/-- Handing out identifiers takes a block off the supply and keeps all that were held. -/
theorem Drawn.advances {supply rest : IdSupply} {ids : List ObjectId}
    (h : a.Drawn supply b rest ids) : a.Advances supply b rest :=
  ⟨h.completed.keepsIds, a.missingIds, h.next, h.perm_heldIds⟩

/-- The identifier behind a handle stands at its place in the list of identifiers. -/
theorem idOf?_eq_some_iff {h : Handle} {id : ObjectId} :
    a.idOf? h = some id ↔ (a.objects.map GameObject.id)[h.index]? = some (some id) := by
  rw [idOf?, object?, List.getElem?_map, Option.bind_eq_some_iff, Option.map_eq_some_iff]

/-- The identifiers that an adventure holds are its own and those of its objects, in order. -/
theorem heldIds_eq (a : Adventure) :
    a.heldIds = a.id.toList ++ (a.objects.map GameObject.id).filterMap fun id => id := by
  rw [heldIds, List.filterMap_map]
  rfl

/-- New objects without identifiers, and nothing else that has to do with identifiers. -/
theorem advances_of_map_id (supply : IdSupply) {added : List (Option ObjectId)} (hid : b.id = a.id)
    (hobjects : b.objects.map GameObject.id = a.objects.map GameObject.id ++ added)
    (hadded : ∀ id ∈ added, id = none) : a.Advances supply b supply := by
  have hnone : (added.filterMap fun id => id) = [] :=
    List.filterMap_eq_nil_iff.2 fun id hmem => hadded id hmem
  refine ⟨⟨fun id h => hid.trans h, fun t id h => ?_⟩, 0, rfl, ?_⟩
  · rw [idOf?_eq_some_iff] at h ⊢
    obtain ⟨hlt, _⟩ := List.getElem?_eq_some_iff.1 h
    rw [hobjects, List.getElem?_append_left hlt]
    exact h
  · rw [heldIds_eq, heldIds_eq, hid, hobjects, List.filterMap_append, hnone, List.append_nil]
    exact .refl _

/-- Declaring a start changes the start and nothing else. -/
theorem setStart_eq_ok {h : Handle} (hstart : a.setStart h = .ok b) :
    b = { a with start := some h } := by
  unfold setStart at hstart
  split at hstart
  · cases hstart
  · split at hstart
    · exact (Except.ok.inj hstart).symm
    · cases hstart

end Adventure

/-- What every action does with identifiers, unless it sets them by hand. -/
theorem Action.advances {action : Action} (h : action.LeavesIds) (a : Adventure)
    (supply : IdSupply) :
    a.Advances supply (action.apply a supply).1 (action.apply a supply).2 := by
  have hsame : a.Advances supply a supply :=
    a.advances_of_map_id supply rfl (List.append_nil _).symm (List.forall_mem_nil _)
  cases action with
  | register o =>
    refine a.advances_of_map_id supply rfl List.map_append ?_
    exact List.forall_mem_singleton.2 h
  | edit t change =>
    refine a.advances_of_map_id supply rfl ?_ (List.forall_mem_nil _)
    rw [List.append_nil]
    exact Steps.map_modify_of_eq h a.objects t.index
  | setStart t =>
    cases hstart : a.setStart t with
    | error e =>
      simp only [apply, hstart]
      exact hsame
    | ok b =>
      simp only [apply, hstart]
      obtain rfl := Adventure.setStart_eq_ok hstart
      exact a.advances_of_map_id supply rfl (List.append_nil _).symm (List.forall_mem_nil _)
  | assignIds =>
    cases hassign : a.assignIds supply with
    | none =>
      simp only [apply, hassign]
      exact hsame
    | some x =>
      obtain ⟨_, ids, hdrawn⟩ := Adventure.assignIds_eq_some hassign
      simp only [apply, hassign]
      exact hdrawn.advances
  | compile config =>
    by_cases hc : a.Compilable config supply
    · obtain ⟨named, rest, ids, art, hdrawn, _, heq⟩ := compile_of_compilable hc
      simp only [apply, heq]
      exact hdrawn.advances
    · obtain ⟨e, _, heq⟩ := compile_of_not_compilable hc
      simp only [apply, heq]
      exact hsame

/-! ## Runs -/

namespace Workshop

variable {w : Workshop}

/-- No identifier is held twice, and the supply is past all of them. -/
structure Distinct (w : Workshop) : Prop where
  nodup : w.heldIds.Nodup
  bounds : ∀ id ∈ w.heldIds, 0 < id.val.toNat ∧ id.val.toNat < w.supply.next.toNat

/-- All adventures are still there and keep their identifiers. -/
def KeepsIds (w v : Workshop) : Prop :=
  ∀ (index : Nat) (a : Adventure), w.adventures[index]? = some a →
    ∃ b, v.adventures[index]? = some b ∧ a.KeepsIds b

/-- If one adventure holds more identifiers, so do all adventures together, and no others. -/
theorem perm_flatMap_set {adventures : List Adventure} {index : Nat} {a b : Adventure}
    {ids : List ObjectId} (ha : adventures[index]? = some a)
    (h : b.heldIds.Perm (ids ++ a.heldIds)) :
    ((adventures.set index b).flatMap Adventure.heldIds).Perm
      (ids ++ adventures.flatMap Adventure.heldIds) := by
  induction adventures generalizing index with
  | nil => cases ha
  | cons first rest ih =>
    cases index with
    | zero =>
      cases ha
      rw [List.set_cons_zero, List.flatMap_cons, List.flatMap_cons, ← List.append_assoc]
      exact h.append_right _
    | succ index =>
      rw [List.set_cons_succ, List.flatMap_cons, List.flatMap_cons]
      exact ((ih ha).append_left first.heldIds).trans (List.perm_append_comm_assoc ..)

/-- An action on an adventure that is there changes that adventure and the supply. -/
theorem step_of_some {index : Nat} {a : Adventure} (ha : w.adventures[index]? = some a)
    (action : Action) : w.step index action =
      ⟨w.adventures.set index (action.apply a w.supply).1, (action.apply a w.supply).2⟩ := by
  rw [step, ha]

/-- An action on an adventure that is not there does nothing. -/
theorem step_of_none {index : Nat} (ha : w.adventures[index]? = none) (action : Action) :
    w.step index action = w := by
  rw [step, ha]

/-- An action that sets no identifier by hand keeps all identifiers distinct, since the block that
it draws lies above all that were held. -/
theorem Distinct.step (h : w.Distinct) (index : Nat) {action : Action}
    (haction : action.LeavesIds) : (w.step index action).Distinct := by
  cases ha : w.adventures[index]? with
  | none => rwa [step_of_none ha]
  | some a =>
    obtain ⟨_, count, hnext, hperm⟩ := action.advances haction a w.supply
    have hfits : w.supply.next.toNat + count ≤ UInt32.size := by
      rw [← hnext]
      exact Nat.le_of_lt (UInt32.toNat_lt_size _)
    have hids := perm_flatMap_set ha hperm
    have hpos : 0 < w.supply.next.toNat := UInt32.lt_iff_toNat_lt.1 w.supply.next_pos
    rw [step_of_some ha]
    refine ⟨hids.nodup_iff.2 (List.nodup_append.2 ⟨IdBlock.nodup_ids hfits, h.nodup, ?_⟩), ?_⟩
    · rintro id hid _ hheld rfl
      have := (IdBlock.mem_ids hfits).1 hid
      have := (h.bounds id hheld).2
      omega
    · intro id hid
      change 0 < id.val.toNat ∧ id.val.toNat < (action.apply a w.supply).2.next.toNat
      rw [hnext]
      rcases List.mem_append.1 (hids.mem_iff.1 hid) with hid | hid
      · have := (IdBlock.mem_ids hfits).1 hid
        omega
      · have := h.bounds id hid
        omega

/-- Every adventure of a workshop keeps its own identifiers. -/
theorem KeepsIds.refl (w : Workshop) : w.KeepsIds w :=
  fun _ a ha => ⟨a, ha, .refl a⟩

/-- Identifiers that are kept by two workshops in a row are kept. -/
theorem KeepsIds.trans {v u : Workshop} (hwv : w.KeepsIds v) (hvu : v.KeepsIds u) :
    w.KeepsIds u := by
  intro index a ha
  obtain ⟨b, hb, hab⟩ := hwv index a ha
  obtain ⟨c, hc, hbc⟩ := hvu index b hb
  exact ⟨c, hc, hab.trans hbc⟩

/-- An action that sets no identifier by hand keeps those of all adventures. -/
theorem keepsIds_step (w : Workshop) (index : Nat) {action : Action} (h : action.LeavesIds) :
    w.KeepsIds (w.step index action) := by
  cases ha : w.adventures[index]? with
  | none =>
    rw [step_of_none ha]
    exact .refl w
  | some a =>
    rw [step_of_some ha]
    intro other b hb
    by_cases hother : index = other
    · subst hother
      cases ha.symm.trans hb
      refine ⟨_, ?_, (action.advances h a w.supply).keeps⟩
      obtain ⟨hlt, _⟩ := List.getElem?_eq_some_iff.1 ha
      exact List.getElem?_set_self hlt
    · exact ⟨b, (List.getElem?_set_ne hother).trans hb, .refl b⟩

/-- Actions may be done in two parts. -/
theorem run_append (w : Workshop) (earlier later : List (Nat × Action)) :
    w.run (earlier ++ later) = (w.run earlier).run later :=
  List.foldl_append

variable {actions : List (Nat × Action)}

/-- Actions that set no identifier by hand keep all identifiers distinct. -/
theorem Distinct.run (h : w.Distinct) (hactions : ∀ x ∈ actions, x.2.LeavesIds) :
    (w.run actions).Distinct := by
  induction actions generalizing w with
  | nil => exact h
  | cons x actions ih =>
    obtain ⟨hx, hrest⟩ := List.forall_mem_cons.1 hactions
    exact ih (h.step x.1 hx) hrest

/-- Actions that set no identifier by hand keep those of all adventures. -/
theorem keepsIds_run (w : Workshop) (hactions : ∀ x ∈ actions, x.2.LeavesIds) :
    w.KeepsIds (w.run actions) := by
  induction actions generalizing w with
  | nil => exact .refl w
  | cons x actions ih =>
    obtain ⟨hx, hrest⟩ := List.forall_mem_cons.1 hactions
    exact (w.keepsIds_step x.1 hx).trans (ih (w.step x.1 x.2) hrest)

end Workshop

/-- Adventures that start without identifiers and draw them from one supply: after any actions that
set no identifiers by hand, all identifiers are distinct across the adventures, lie between zero and
the sentinel, and are below the next one of the supply; and none that was there at any time before
has changed. -/
theorem run_distinct {w : Workshop} (hw : ∀ a ∈ w.adventures, a.heldIds = [])
    {actions : List (Nat × Action)} (hactions : ∀ x ∈ actions, x.2.LeavesIds) :
    (w.run actions).heldIds.Nodup ∧
      (∀ id ∈ (w.run actions).heldIds, 1 ≤ id.val.toNat ∧ id.val.toNat ≤ UInt32.size - 2 ∧
        id.val.toNat < (w.run actions).supply.next.toNat) ∧
      ∀ earlier later, actions = earlier ++ later →
        (w.run earlier).KeepsIds (w.run actions) := by
  have hempty : w.heldIds = [] := List.flatMap_eq_nil_iff.2 hw
  have hstart : w.Distinct := ⟨by rw [hempty]; exact .nil, by simp [hempty]⟩
  have hdistinct := hstart.run hactions
  refine ⟨hdistinct.nodup, fun id hid => ?_, ?_⟩
  · have hbounds := hdistinct.bounds id hid
    have hsize := UInt32.toNat_lt_size (w.run actions).supply.next
    omega
  · rintro earlier later rfl
    rw [Workshop.run_append]
    exact (w.run earlier).keepsIds_run fun x hx => hactions x (List.mem_append_right _ hx)

/-- Two adventures before anything was done. -/
def twoGames : Workshop where
  adventures := [{ name := "Cave", supported := .atLeast ⟨0, 1, 0⟩ },
    { name := "Harbour", supported := .atLeast ⟨0, 1, 0⟩ }]
  supply := .fresh

/-- Work on both adventures in turn. The first compilation of each is refused, since no start is
declared. -/
def interleaved : List (Nat × Action) :=
  [(0, .register { kind := .room { title := "Hall" } }), (1, .assignIds), (0, .compile {}),
    (0, .setStart ⟨0⟩), (0, .edit ⟨0⟩ fun o => { o with rendering := some "A hall." }),
    (0, .compile {}), (1, .register { kind := .item "lamp" }), (1, .compile {}),
    (0, .register { kind := .item "key" }), (1, .assignIds), (0, .assignIds)]

/-- Two games that are worked on in turn draw from the supply in the order of their calls. -/
theorem run_distinct_twoGames :
    (∀ a ∈ twoGames.adventures, a.heldIds = []) ∧ (∀ x ∈ interleaved, x.2.LeavesIds) ∧
      (twoGames.run interleaved).heldIds = [⟨2⟩, ⟨3⟩, ⟨5⟩, ⟨1⟩, ⟨4⟩] ∧
      (twoGames.run interleaved).heldIds.Nodup ∧
      (twoGames.run (interleaved.take 6)).KeepsIds (twoGames.run interleaved) := by
  have hw : ∀ a ∈ twoGames.adventures, a.heldIds = [] := by
    simp [twoGames, Adventure.heldIds]
  have hactions : ∀ x ∈ interleaved, x.2.LeavesIds := by
    simp [interleaved, Action.LeavesIds]
  obtain ⟨hnodup, _, hkeeps⟩ := run_distinct hw hactions
  have hids : (twoGames.run interleaved).heldIds = [⟨2⟩, ⟨3⟩, ⟨5⟩, ⟨1⟩, ⟨4⟩] := rfl
  have hsplit : interleaved = interleaved.take 6 ++ interleaved.drop 6 :=
    (List.take_append_drop 6 interleaved).symm
  exact ⟨hw, hactions, hids, hnodup, hkeeps _ _ hsplit⟩

end TextAdventure
