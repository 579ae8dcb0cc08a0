import TextAdventure.Artifact.Tag

/-!
# Finding tags again

Bytes are cut at a tag in two ways, and each finds the parts that were put together.

* A search for the end of a text passes other tags over whole. It finds the tag behind `before` if
  `before` consists of bytes that start no tag and of whole tags other than the one sought
  (`Misses`, `cut_append`).
* A list is split at every occurrence of the separator, wherever it stands. The parts come back if
  none of them holds the separator (`Absent`, `split_join`), provided that its two bytes differ:
  only then can no occurrence overlap the end of a part. The other way round nothing is asked:
  whatever is split is what its parts are joined to (`join_split`), and the separator occurs in none
  of them (`absent_of_mem_split`), also if it can overlap itself.
-/

namespace TextAdventure

/-- Bytes none of which starts a tag. -/
def LeadFree (bytes : List UInt8) : Prop := ∀ b ∈ bytes, isLead b = false

namespace Tag

/-! ## Searching -/

/-- Bytes that a search for the tag passes over: single bytes that start no tag, and other tags. -/
inductive Misses (t : Tag) : List UInt8 → Prop
  | nil : Misses t []
  | byte {b : UInt8} {rest : List UInt8} : isLead b = false → Misses t rest → Misses t (b :: rest)
  | tag {u : Tag} {rest : List UInt8} : isLead u.lead = true → u ≠ t → Misses t rest →
      Misses t (u.bytes ++ rest)

section
variable {t : Tag}

/-- A search passes over joined bytes if it passes over both parts. -/
theorem Misses.append {left right : List UInt8} (hl : t.Misses left) (hr : t.Misses right) :
    t.Misses (left ++ right) := by
  induction hl with
  | nil => exact hr
  | byte hb _ ih => exact .byte hb ih
  | tag hu hne _ ih =>
    rw [List.append_assoc]
    exact .tag hu hne ih

/-- A search passes over bytes that start no tag. -/
theorem misses_of_leadFree {bytes : List UInt8} (h : LeadFree bytes) : t.Misses bytes := by
  induction bytes with
  | nil => exact .nil
  | cons b bytes ih =>
    obtain ⟨hb, hrest⟩ := List.forall_mem_cons.1 h
    exact .byte hb (ih hrest)

/-- A search passes over another tag between bytes that it passes over. -/
theorem Misses.append_tag {u : Tag} (hu : isLead u.lead = true) (hne : u ≠ t)
    {left right : List UInt8} (hl : t.Misses left) (hr : t.Misses right) :
    t.Misses (left ++ u.bytes ++ right) := by
  rw [List.append_assoc]
  exact hl.append (.tag hu hne hr)

/-- A search passes over a list joined by another tag if it passes over the parts. -/
theorem misses_join {u : Tag} (hu : isLead u.lead = true) (hne : u ≠ t) :
    ∀ {parts : List (List UInt8)}, (∀ part ∈ parts, t.Misses part) → t.Misses (u.join parts)
  | [], _ => .nil
  | [part], h => h part List.mem_cons_self
  | part :: next :: parts, h => by
      obtain ⟨hpart, hrest⟩ := List.forall_mem_cons.1 h
      exact hpart.append_tag hu hne (misses_join hu hne hrest)

/-- Over a byte that starts no tag, the search goes on. -/
theorem cut_cons {b : UInt8} (hb : isLead b = false) (rest : List UInt8) :
    t.cut (b :: rest) = (t.cut rest).map fun (before, after) => (b :: before, after) := by
  cases rest with
  | nil => rfl
  | cons c rest => simp [cut, hb]

/-- Over another tag, the search goes on. -/
theorem cut_tag_append {u : Tag} (hu : isLead u.lead = true) (hne : u ≠ t) (rest : List UInt8) :
    t.cut (u.bytes ++ rest) =
      (t.cut rest).map fun (before, after) => (u.bytes ++ before, after) := by
  simp [bytes, cut, hu, hne]

/-- The search finds the tag behind bytes that it passes over. -/
theorem cut_append (ht : isLead t.lead = true) (after : List UInt8) {before : List UInt8}
    (h : t.Misses before) : t.cut (before ++ (t.bytes ++ after)) = some (before, after) := by
  induction h with
  | nil => simp [bytes, cut, ht]
  | byte hb _ ih =>
    rw [List.cons_append, cut_cons hb, ih]
    rfl
  | tag hu hne _ ih =>
    rw [List.append_assoc, cut_tag_append hu hne, ih]
    rfl

/-- A search that has found the tag finds it there whatever follows. -/
theorem cut_append_of_cut (extra : List UInt8) : ∀ {bytes before after : List UInt8},
    t.cut bytes = some (before, after) → t.cut (bytes ++ extra) = some (before, after ++ extra)
  | [], _, _, h => by cases h
  | [_], _, _, h => by cases h
  | a :: b :: rest, before, after, h => by
      rw [List.cons_append, List.cons_append]
      unfold cut at h ⊢
      split at h
      next hlead =>
        rw [if_pos hlead]
        split at h
        next hfound =>
          cases h
          rw [if_pos hfound]
        next hother =>
          obtain ⟨⟨x, y⟩, hcut, he⟩ := Option.map_eq_some_iff.1 h
          cases he
          rw [if_neg hother, cut_append_of_cut extra hcut]
          rfl
      next hplain =>
        obtain ⟨⟨x, y⟩, hcut, he⟩ := Option.map_eq_some_iff.1 h
        cases he
        rw [if_neg hplain, ← List.cons_append, cut_append_of_cut extra hcut]
        rfl

/-! ## Splitting -/

/-- The tag occurs nowhere in the bytes. -/
def Absent (t : Tag) (bytes : List UInt8) : Prop := ¬ t.bytes <:+: bytes

/-- No bytes hold no tag. -/
theorem absent_nil : t.Absent [] := by
  simp [Absent, bytes]

/-- The tag is absent from longer bytes if it does not stand at their front either. -/
theorem absent_cons {b : UInt8} {rest : List UInt8} :
    t.Absent (b :: rest) ↔ ¬ (b = t.lead ∧ [t.code] <+: rest) ∧ t.Absent rest := by
  rw [Absent, List.infix_cons_iff, not_or, bytes, List.cons_prefix_cons, eq_comm]
  rfl

/-- A byte that is not the tag's first one does not make the tag occur. -/
theorem absent_cons_of_ne {b : UInt8} {rest : List UInt8} (h : b ≠ t.lead) :
    t.Absent (b :: rest) ↔ t.Absent rest := by
  rw [absent_cons, and_iff_right]
  exact fun hb => h hb.1

/-- Bytes that start no tag do not make the tag occur. -/
theorem absent_leadFree_append (ht : isLead t.lead = true) {left right : List UInt8}
    (hl : LeadFree left) (hr : t.Absent right) : t.Absent (left ++ right) := by
  induction left with
  | nil => exact hr
  | cons b left ih =>
    obtain ⟨hb, hleft⟩ := List.forall_mem_cons.1 hl
    have hne : b ≠ t.lead := by
      rintro rfl
      rw [ht] at hb
      cases hb
    rw [List.cons_append, absent_cons_of_ne hne]
    exact ih hleft

/-- A tag is absent from bytes in which none can start. -/
theorem absent_of_leadFree (ht : isLead t.lead = true) {bytes : List UInt8} (h : LeadFree bytes) :
    t.Absent bytes := by
  rw [← List.append_nil bytes]
  exact absent_leadFree_append ht h absent_nil

/-- Another tag in front does not make the tag occur, if its second byte starts no tag. -/
theorem absent_tag_append (ht : isLead t.lead = true) {u : Tag} (hne : u ≠ t)
    (hu : isLead u.code = false) {rest : List UInt8} (hr : t.Absent rest) :
    t.Absent (u.bytes ++ rest) := by
  have hcode : u.code ≠ t.lead := by
    intro h
    rw [h, ht] at hu
    cases hu
  have hrest : t.Absent (u.code :: rest) := (absent_cons_of_ne hcode).2 hr
  refine absent_cons.2 ⟨?_, hrest⟩
  rintro ⟨hlead, hprefix⟩
  have heq : t.code = u.code := (List.cons_prefix_cons.1 hprefix).1
  exact hne (by cases u; cases t; simp_all)

/-- Bytes without the tag are one part. -/
theorem parts_of_absent {part : List UInt8} (h : t.Absent part) : t.parts part = [part] := by
  fun_induction parts t part with
  | case1 a b rest hab => exact absurd ⟨[], rest, by simp [bytes, hab]⟩ h
  | case2 a b rest hab hnil ih =>
    rw [ih (absent_cons.1 h).2] at hnil
    cases hnil
  | case3 a b rest hab part others hparts ih =>
    rw [ih (absent_cons.1 h).2] at hparts
    cases hparts
    rfl
  | case4 => rfl

/-- Bytes without the tag are the first part of what they are joined to by it. An occurrence that
starts one byte before the tag would need a tag of two equal bytes. -/
theorem parts_append (hne : t.lead ≠ t.code) (rest : List UInt8) {part : List UInt8}
    (h : t.Absent part) : t.parts (part ++ (t.bytes ++ rest)) = part :: t.parts rest := by
  induction part with
  | nil => simp [bytes, parts]
  | cons a part ih =>
    obtain ⟨hfirst, hrest⟩ := absent_cons.1 h
    cases part with
    | nil =>
      have hcons : [a] ++ (t.bytes ++ rest) = a :: t.lead :: t.code :: rest := rfl
      have hna : ¬ (a = t.lead ∧ t.lead = t.code) := fun hab => hne hab.2
      rw [hcons, parts, if_neg hna]
      simp [parts]
    | cons b part =>
      have hna : ¬ (a = t.lead ∧ b = t.code) := by
        rintro ⟨ha, rfl⟩
        exact hfirst ⟨ha, List.cons_prefix_cons.2 ⟨rfl, List.nil_prefix⟩⟩
      have ih := ih hrest
      rw [List.cons_append] at ih
      rw [List.cons_append, List.cons_append, parts, if_neg hna, ih]

/-- The parts of a joined list are its elements. -/
theorem parts_join (hne : t.lead ≠ t.code) :
    ∀ {parts : List (List UInt8)}, parts ≠ [] → (∀ part ∈ parts, t.Absent part) →
      t.parts (t.join parts) = parts
  | [], hnil, _ => absurd rfl hnil
  | [part], _, h => parts_of_absent (h part List.mem_cons_self)
  | part :: next :: parts, _, h => by
      obtain ⟨hpart, hrest⟩ := List.forall_mem_cons.1 h
      rw [join, List.append_assoc, parts_append hne _ hpart, parts_join hne (by simp) hrest]
      simp

/-- A joined list is empty only without elements, or with one that is empty itself. -/
theorem join_eq_nil {parts : List (List UInt8)} (h : t.join parts = []) :
    parts = [] ∨ parts = [[]] := by
  match parts, h with
  | [], _ => exact .inl rfl
  | [part], h => exact .inr (congrArg (fun part => [part]) h)
  | part :: next :: parts, h => simp [join, bytes] at h

/-- A joined list is split into its elements, unless its only element is empty. -/
theorem split_join (hne : t.lead ≠ t.code) {parts : List (List UInt8)} (hparts : parts ≠ [[]])
    (h : ∀ part ∈ parts, t.Absent part) : t.split (t.join parts) = parts := by
  by_cases hnil : parts = []
  · subst hnil
    rfl
  · have hjoin : t.join parts ≠ [] := fun hj => (join_eq_nil hj).elim hnil hparts
    rw [split, List.isEmpty_eq_false_iff.2 hjoin]
    exact parts_join hne hnil h

/-! ## Joining again -/

/-- There is at least one part. -/
theorem parts_ne_nil (t : Tag) (bytes : List UInt8) : t.parts bytes ≠ [] := by
  fun_cases parts t bytes <;> simp

/-- A byte in front goes to the first part. -/
theorem join_cons_cons (a : UInt8) (part : List UInt8) (parts : List (List UInt8)) :
    t.join ((a :: part) :: parts) = a :: t.join (part :: parts) := by
  cases parts <;> rfl

/-- The parts joined again are the bytes, whatever they are. -/
theorem join_parts (t : Tag) (bytes : List UInt8) : t.join (t.parts bytes) = bytes := by
  fun_induction parts t bytes with
  | case1 a b rest hab ih =>
    obtain ⟨part, parts, hparts⟩ := List.exists_cons_of_ne_nil (t.parts_ne_nil rest)
    rw [hparts] at ih ⊢
    rw [join, ih, hab.1, hab.2]
    · rfl
    · simp
  | case2 a b rest hab hnil => exact absurd hnil (t.parts_ne_nil _)
  | case3 a b rest hab part others hparts ih =>
    rw [hparts] at ih
    rw [join_cons_cons, ih]
  | case4 => rfl

/-- The elements of a split joined again are the bytes. -/
theorem join_split (t : Tag) (bytes : List UInt8) : t.join (t.split bytes) = bytes := by
  unfold split
  split
  next hempty => exact (List.isEmpty_iff.1 hempty).symm
  next => exact t.join_parts bytes

/-! ## Parts without the tag -/

/-- The first part is what the bytes start with. -/
theorem prefix_of_parts {bytes part : List UInt8} {others : List (List UInt8)}
    (h : t.parts bytes = part :: others) : part <+: bytes := by
  have hjoin := t.join_parts bytes
  rw [h] at hjoin
  rw [← hjoin]
  cases others with
  | nil => exact List.prefix_refl part
  | cons next others =>
    rw [join, List.append_assoc]
    · exact List.prefix_append part _
    · simp

/-- No part holds the tag, not even if the tag can overlap itself. What follows a byte in its part
is what follows it in the whole. -/
theorem absent_of_mem_parts {bytes part : List UInt8} (h : part ∈ t.parts bytes) :
    t.Absent part := by
  fun_induction parts t bytes generalizing part with
  | case1 a b rest hab ih =>
    rcases List.mem_cons.1 h with rfl | h
    · exact absent_nil
    · exact ih h
  | case2 a b rest hab hnil => exact absurd hnil (t.parts_ne_nil _)
  | case3 a b rest hab first others hparts ih =>
    rw [hparts] at ih
    rcases List.mem_cons.1 h with rfl | h
    · refine absent_cons.2 ⟨?_, ih List.mem_cons_self⟩
      rintro ⟨ha, hcode⟩
      have hb := hcode.trans (prefix_of_parts hparts)
      exact hab ⟨ha, (List.cons_prefix_cons.1 hb).1.symm⟩
    · exact ih (List.mem_cons_of_mem first h)
  | case4 bytes hshort =>
    cases List.mem_singleton.1 h
    rintro ⟨before, after, rfl⟩
    cases before with
    | nil => exact hshort t.lead t.code after rfl
    | cons b before =>
      cases before with
      | nil => exact hshort b t.lead _ rfl
      | cons c before => exact hshort b c _ rfl

/-- No part of what is split holds the tag. -/
theorem absent_of_mem_split {bytes part : List UInt8} (h : part ∈ t.split bytes) :
    t.Absent part := by
  unfold split at h
  split at h
  next => cases h
  next => exact absent_of_mem_parts h

end

/-- Splitting and joining are inverse to each other. Whatever is split is what its elements are joined
to, and the tag occurs in none of them. A list of bytes in which the tag does not occur is what its joined
form is split into, unless its only element is empty; for this, the two bytes of the tag must differ. -/
theorem split_inverts_join (t : Tag) :
    (∀ bytes, t.join (t.split bytes) = bytes ∧ ∀ part ∈ t.split bytes, t.Absent part) ∧
    (t.lead ≠ t.code → ∀ parts, parts ≠ [[]] → (∀ part ∈ parts, t.Absent part) →
      t.split (t.join parts) = parts) := by
  refine ⟨?_, ?_⟩
  · intro bytes
    exact ⟨t.join_split bytes, fun part hpart => absent_of_mem_split hpart⟩
  · intro hne parts hparts habsent
    exact split_join hne hparts habsent

/-- The first part ends with the first byte of the separator, the second one starts with its second byte,
and the last one is empty. -/
def straddling : List (List UInt8) := [[0x61, 0x01], [0x11, 0x01], [0x01, 0x01], []]

/-- Parts that end with the first byte of the separator and start with the second are told apart. -/
theorem split_join_straddling :
    separator.lead ≠ separator.code ∧ straddling ≠ [[]] ∧
      (∀ part ∈ straddling, separator.Absent part) ∧
      separator.split (separator.join straddling) = straddling := by
  have hne : separator.lead ≠ separator.code := by decide
  have habsent : ∀ part ∈ straddling, separator.Absent part := by
    unfold Absent
    decide
  exact ⟨hne, by decide, habsent,
    (split_inverts_join separator).2 hne straddling (by decide) habsent⟩

/-- A tag of equal bytes is found too early behind a part that ends with this byte. -/
example : (⟨0, 0⟩ : Tag).split ((⟨0, 0⟩ : Tag).join [[0], []]) = [[], [0]] := by decide

end Tag

end TextAdventure
