import TextAdventure.Proofs.Script.Canonical

/-!
# The layout of braces

What stands behind a brace may stand in the same statement or in one of its own: reading gives the same
outline and the same problems, apart from places in the script (`ofStatements_brace_layout`).

Two facts carry this. Blanks around a statement do not matter to its clause (`Clause.ofText_trim`), so
the rest of a clause, which is trimmed, reads as the text behind the brace does. And places are carried
along without ever being looked at: reading statements without places is reading them and then
forgetting the places (`ofStatements_unplaced`), because that holds of each step (`unplaced_read`).
-/

namespace TextAdventure.Script

/-! ## Blanks around a statement -/

/-- Blanks around a text do not get into the sides of a cut, unless it is cut at a blank. -/
theorem trim_cutAt {separator : Char} (h : Text.isBlank separator = false) (text : List Char) :
    Text.trim (cutAt separator (Text.trim text)).1 = Text.trim (cutAt separator text).1 ∧
      Text.trim (cutAt separator (Text.trim text)).2 = Text.trim (cutAt separator text).2 := by
  obtain ⟨lead, trail, htext, hlead, htrail⟩ := Text.exists_trim text
  have hnot : ∀ blanks : List Char, (∀ c ∈ blanks, Text.isBlank c = true) → separator ∉ blanks := by
    intro blanks hblanks hmem
    cases h.symm.trans (hblanks separator hmem)
  generalize Text.trim text = core at htext
  subst htext
  by_cases hmem : separator ∈ core
  · obtain ⟨before, after, rfl, hbefore⟩ := List.eq_append_cons_of_mem hmem
    have hsides : lead ++ (before ++ separator :: after) ++ trail =
        (lead ++ before) ++ separator :: (after ++ trail) := by simp
    rw [hsides, cutAt_append (List.not_mem_append (hnot lead hlead) hbefore), cutAt_append hbefore]
    exact ⟨(Text.trim_append_left hlead before).symm, (Text.trim_append_right htrail after).symm⟩
  · have hall : separator ∉ lead ++ core ++ trail :=
      List.not_mem_append (List.not_mem_append (hnot lead hlead) hmem) (hnot trail htrail)
    rw [cutAt_of_not_mem hall, cutAt_of_not_mem hmem, Text.trim_append_right htrail,
      Text.trim_append_left hlead]
    exact ⟨rfl, rfl⟩

/-- A character that is not the separator stays on the left side of a cut. -/
theorem cutAt_cons_of_ne {separator c : Char} (h : separator ≠ c) (text : List Char) :
    cutAt separator (c :: text) = (c :: (cutAt separator text).1, (cutAt separator text).2) := by
  rcases cutAt_cases separator text with ⟨hnot, heq⟩ | ⟨hnot, heq⟩
  · rw [heq, cutAt_of_not_mem (List.not_mem_cons_of_ne_of_not_mem h hnot)]
  · rw [← cutAt_append (List.not_mem_cons_of_ne_of_not_mem h hnot), List.cons_append, ← heq]

namespace Clause

/-- Blanks around a statement do not matter. -/
theorem ofText_trim (text : List Char) : ofText (Text.trim text) = ofText text := by
  have hcolon := trim_cutAt (show Text.isBlank ':' = false from rfl) text
  have hbrace := trim_cutAt (show Text.isBlank '\x7d' = false from rfl) text
  unfold ofText ofBody
  simp only [hcolon, hbrace]

/-! ## Text behind a brace -/

/-- What is cut at the first space and put together with a space is the same but for blanks. -/
theorem trim_cutAt_space (text : List Char) :
    Text.trim ((cutAt ' ' text).1 ++ ' ' :: (cutAt ' ' text).2) = Text.trim text := by
  have hspace : ∀ c ∈ [' '], Text.isBlank c = true := List.forall_mem_singleton.2 rfl
  rcases cutAt_cases ' ' text with ⟨_, heq⟩ | ⟨_, heq⟩
  · rw [heq]
    exact Text.trim_append_right hspace text
  · rw [← heq]

/-- A body that starts with an opening brace opens a group. -/
theorem ofBody_of_head {keyword : List Char} (text : List Char) :
    ofBody keyword ('\x7b' :: text) = .opening keyword (Text.trim text) := by
  have htrim : Text.trim ('\x7b' :: text) = '\x7b' :: Text.trimEnd text :=
    Text.trim_cons_of_not_isBlank rfl text
  have hcut := cutAt_cons_of_ne (show ' ' ≠ '\x7b' by decide) (Text.trimEnd text)
  rw [← htrim] at hcut
  rw [ofBody_of_brace (congrArg Prod.fst hcut), hcut, trim_cutAt_space, Text.trim_trimEnd]

/-- A word and a brace behind the first colon open a group, and the rest is the trimmed text behind the
brace. -/
theorem ofText_opening {keyword : List Char} (hcolon : ':' ∉ keyword) (hbrace : '\x7d' ∉ keyword)
    (text : List Char) : ofText (keyword ++ ':' :: '\x7b' :: text) =
      .opening (Text.trim keyword) (Text.trim text) := by
  have hcut := cutAt_append hcolon ('\x7b' :: text)
  have hnot : '\x7d' ∉ Text.trim (cutAt ':' (keyword ++ ':' :: '\x7b' :: text)).1 := by
    rw [hcut]
    intro hmem
    exact hbrace ((Text.trim_sublist keyword).subset hmem)
  rw [ofText_of_no_brace hnot, hcut, ofBody_of_head]

/-- A brace at the start of a statement closes a group, and the rest is the trimmed text behind it. -/
theorem ofText_closing (text : List Char) : ofText ('\x7d' :: text) = .close (Text.trim text) := by
  have hkeyword : '\x7d' ∈ Text.trim (cutAt ':' ('\x7d' :: text)).1 := by
    rw [cutAt_cons_of_ne (by decide), Text.trim_cons_of_not_isBlank rfl]
    exact List.mem_cons_self
  have hcut : cutAt '\x7d' ('\x7d' :: text) = ([], text) := cutAt_append (List.not_mem_nil) text
  rw [ofText_of_brace hkeyword, hcut]

end Clause

/-! ## One statement or two -/

namespace Progress

variable (table : KeywordTable)

/-- Statements may be read in two parts. -/
theorem readAll_append (p : Progress) (queue more : List Statement) :
    p.readAll table (queue ++ more) = (p.readAll table queue).readAll table more := by
  induction queue using queue_induction generalizing p with
  | nil => rw [List.nil_append, readAll_nil]
  | cons s queue ih =>
    rw [List.cons_append, readAll_cons, ← List.append_assoc, ih, readAll_cons]

/-- Blanks around a statement do not matter to the reader. -/
theorem readAll_trim (p : Progress) (text : List Char) (span : Span) (queue : List Statement) :
    p.readAll table (⟨Text.trim text, span⟩ :: queue) = p.readAll table (⟨text, span⟩ :: queue) := by
  have hclause : Statement.clause ⟨Text.trim text, span⟩ = Statement.clause ⟨text, span⟩ :=
    Clause.ofText_trim text
  have hinner : Statement.inner ⟨Text.trim text, span⟩ = Statement.inner ⟨text, span⟩ := by
    rw [Statement.inner, hclause, Statement.inner]
  rw [readAll_cons, hclause, hinner, readAll_cons]

/-- What follows inside a statement may as well be the next statement, with blanks around it. -/
theorem readAll_split {text head tail : List Char}
    (hhead : Clause.ofText head = (Clause.ofText text).alone)
    (htail : (Clause.ofText text).rest = Text.trim tail) (hne : Text.trim tail ≠ []) (p : Progress)
    (span : Span) (queue : List Statement) :
    p.readAll table (⟨text, span⟩ :: queue) =
      p.readAll table (⟨head, span⟩ :: ⟨tail, span⟩ :: queue) := by
  have htext : Statement.inner ⟨text, span⟩ = [⟨Text.trim tail, span⟩] := by
    rw [Statement.inner, Statement.clause, htail, if_neg hne]
  have hnone : Statement.inner ⟨head, span⟩ = [] := by
    rw [Statement.inner, Statement.clause, hhead, if_pos (Clause.rest_alone _)]
  have hread : p.read table span (Clause.ofText text) = p.read table span (Clause.ofText head) := by
    rw [hhead]
    cases Clause.ofText text <;> rfl
  calc p.readAll table (⟨text, span⟩ :: queue)
      = (p.read table span (Clause.ofText text)).readAll table (⟨Text.trim tail, span⟩ :: queue) := by
        rw [readAll_cons, htext]
        rfl
    _ = (p.read table span (Clause.ofText head)).readAll table (⟨tail, span⟩ :: queue) := by
        rw [readAll_trim, hread]
    _ = p.readAll table (⟨head, span⟩ :: ⟨tail, span⟩ :: queue) := by
        rw [readAll_cons table p, hnone]
        rfl

end Progress

/-! ## Without places -/

/-- The statement without its place in the script. -/
def Statement.unplaced (s : Statement) : Statement := { s with span := ⟨0, 0⟩ }

/-- The open group without its place in the script. -/
def OpenGroup.unplaced (g : OpenGroup) : OpenGroup := { g with span := ⟨0, 0⟩ }

/-- The problem without its place in the script. -/
def Diagnostic.unplaced (d : Diagnostic) : Diagnostic := { d with span := ⟨0, 0⟩ }

/-- The outline without the places of its nodes. -/
def Outline.unplaced (o : Outline) : Outline := ⟨o.nodes.map Node.unplaced⟩

/-- How far reading has come, without places. -/
def Progress.unplaced (p : Progress) : Progress where
  outline := p.outline.unplaced
  current := p.current
  depth := p.depth
  groups := p.groups.map OpenGroup.unplaced
  problems := p.problems.map Diagnostic.unplaced

/-- What was read, without places. -/
def Reading.unplaced (r : Reading) : Reading := ⟨r.outline.unplaced, r.problems.map Diagnostic.unplaced⟩

/-- What follows inside a statement does not depend on its place. -/
theorem Statement.map_unplaced_inner (s : Statement) :
    s.inner.map unplaced = s.unplaced.inner := by
  have hclause : s.unplaced.clause = s.clause := rfl
  rw [inner, inner, hclause]
  split <;> rfl

namespace Outline

/-- The next number does not depend on places. -/
theorem nextId_unplaced (o : Outline) : o.unplaced.nextId = o.nextId := List.length_map _

/-- Parents do not depend on places. -/
theorem parent?_unplaced (o : Outline) (id : NodeId) : o.unplaced.parent? id = o.parent? id := by
  rw [parent?, parent?, get?, get?, unplaced, List.getElem?_map]
  cases o.nodes[id]? with
  | none => rfl
  | some n => rfl

/-- A new node is the same without its place. -/
theorem unplaced_create (o : Outline) (content : Content) (span : Span) :
    (o.create content span).unplaced = o.unplaced.create content ⟨0, 0⟩ := by
  rw [create, create, nextId_unplaced, unplaced, List.map_append]
  rfl

/-- Attaching a node does not look at places. -/
theorem unplaced_attach (o : Outline) (parent child : NodeId) :
    (o.attach parent child).unplaced = o.unplaced.attach parent child := by
  have hlength : o.unplaced.nodes.length = o.nodes.length := List.length_map _
  unfold attach
  rw [hlength]
  split
  · have hadopt : ∀ nodes : List Node, (nodes.modify parent (·.adopt child)).map Node.unplaced =
        (nodes.map Node.unplaced).modify parent (·.adopt child) := by
      intro nodes
      refine Steps.map_modify ?_ nodes parent
      intro n
      rfl
    have hparent : (o.nodes.modify child fun n => { n with parent := some parent }).map Node.unplaced =
        (o.nodes.map Node.unplaced).modify child fun n => { n with parent := some parent } := by
      refine Steps.map_modify ?_ o.nodes child
      intro n
      rfl
    rw [unplaced, hadopt, hparent]
    rfl
  · rfl

end Outline

namespace Progress

/-- Closing a group does not look at places. -/
theorem unplaced_close (p : Progress) (span : Span) :
    (p.close span).unplaced = p.unplaced.close ⟨0, 0⟩ := by
  simp only [close, unplaced, Outline.parent?_unplaced, List.map_tail, List.isEmpty_map]
  split
  · rw [List.map_append]
    rfl
  · rfl

/-- Adding a node does not look at places. -/
theorem unplaced_add (p : Progress) (kind : NodeKind) (keyword : List Char)
    (arguments : List (List Char)) (span : Span) :
    (p.add kind keyword arguments span).unplaced = p.unplaced.add kind keyword arguments ⟨0, 0⟩ := by
  simp only [add, unplaced, Outline.unplaced_attach, Outline.unplaced_create, Outline.nextId_unplaced]

/-- Opening a group does not look at places. -/
theorem unplaced_descend (p : Progress) (kind : NodeKind) (keyword : List Char) (span : Span) :
    (p.descend kind keyword span).unplaced = p.unplaced.descend kind keyword ⟨0, 0⟩ := by
  have houtline := congrArg Progress.outline (p.unplaced_add kind keyword [] span)
  have hnext := p.outline.nextId_unplaced
  change Progress.mk (p.add kind keyword [] span).outline.unplaced p.outline.nextId _
    (⟨p.outline.nextId, keyword, ⟨0, 0⟩⟩ :: p.groups.map OpenGroup.unplaced) _ = _
  rw [← hnext]
  exact congrArg (Progress.mk · _ _ _ _) houtline

/-- Reading a clause does not look at places. -/
theorem unplaced_read (table : KeywordTable) (p : Progress) (span : Span) (c : Clause) :
    (p.read table span c).unplaced = p.unplaced.read table ⟨0, 0⟩ c := by
  cases c with
  | close rest => exact p.unplaced_close span
  | opening keyword rest => exact p.unplaced_descend _ keyword span
  | say keyword arguments => exact p.unplaced_add _ keyword arguments span

/-- Reading statements does not look at places. -/
theorem unplaced_readAll (table : KeywordTable) (p : Progress) (queue : List Statement) :
    (p.readAll table queue).unplaced = p.unplaced.readAll table (queue.map Statement.unplaced) := by
  induction queue using queue_induction generalizing p with
  | nil => rw [List.map_nil, readAll_nil, readAll_nil]
  | cons s queue ih =>
    rw [List.map_cons, readAll_cons, readAll_cons, ih, unplaced_read, List.map_append,
      Statement.map_unplaced_inner]
    rfl

end Progress

/-- Reading statements without places is reading them and then forgetting the places. -/
theorem ofStatements_unplaced (table : KeywordTable) (statements : List Statement) :
    Reading.ofStatements table (statements.map Statement.unplaced) =
      (Reading.ofStatements table statements).unplaced := by
  have hread : Progress.start.readAll table (statements.map Statement.unplaced) =
      (Progress.start.readAll table statements).unplaced :=
    (Progress.start.unplaced_readAll table statements).symm
  rw [Reading.ofStatements, hread, Reading.ofStatements, Reading.unplaced, List.map_append,
    List.map_map, Progress.unplaced, ← List.map_reverse, List.map_map]
  rfl

/-! ## Layouts -/

/-- A statement that has a text behind its brace reads as the two statements with the same place. -/
theorem ofStatements_split {text head tail : List Char}
    (hhead : Clause.ofText head = (Clause.ofText text).alone)
    (htail : (Clause.ofText text).rest = Text.trim tail) (hne : Text.trim tail ≠ [])
    (table : KeywordTable) (before after : List Statement) (span : Span) :
    Reading.ofStatements table (before ++ [⟨text, span⟩] ++ after) =
      Reading.ofStatements table (before ++ [⟨head, span⟩, ⟨tail, span⟩] ++ after) := by
  have hread : Progress.start.readAll table (before ++ [⟨text, span⟩] ++ after) =
      Progress.start.readAll table (before ++ [⟨head, span⟩, ⟨tail, span⟩] ++ after) := by
    rw [List.append_assoc, List.append_assoc, Progress.readAll_append table _ before,
      Progress.readAll_append table _ before]
    exact Progress.readAll_split table hhead htail hne _ span after
  rw [Reading.ofStatements, hread, Reading.ofStatements]

/-- A statement that reads as two does not differ from the two, apart from places. -/
theorem ofStatements_split_unplaced {text head tail : List Char}
    (hhead : Clause.ofText head = (Clause.ofText text).alone)
    (htail : (Clause.ofText text).rest = Text.trim tail) (hne : Text.trim tail ≠ [])
    (table : KeywordTable) (before after : List Statement) (span first second : Span) :
    (Reading.ofStatements table (before ++ [⟨text, span⟩] ++ after)).unplaced =
      (Reading.ofStatements table (before ++ [⟨head, first⟩, ⟨tail, second⟩] ++ after)).unplaced := by
  rw [← ofStatements_unplaced, ← ofStatements_unplaced, List.map_append, List.map_append,
    List.map_append, List.map_append]
  exact ofStatements_split hhead htail hne table _ _ ⟨0, 0⟩

/-- It does not matter whether what follows a brace stands in the same statement or in the next one. -/
theorem ofStatements_brace_layout (table : KeywordTable) (before after : List Statement)
    (text : List Char) (htext : ∃ c ∈ text, Text.isBlank c = false) (span first second : Span) :
    (∀ keyword : List Char, ':' ∉ keyword → '\x7d' ∉ keyword →
      (Reading.ofStatements table
          (before ++ [⟨keyword ++ [':', '\x7b'] ++ text, span⟩] ++ after)).unplaced =
        (Reading.ofStatements table
          (before ++ [⟨keyword ++ [':', '\x7b'], first⟩, ⟨text, second⟩] ++ after)).unplaced) ∧
    (Reading.ofStatements table (before ++ [⟨['\x7d'] ++ text, span⟩] ++ after)).unplaced =
      (Reading.ofStatements table
        (before ++ [⟨['\x7d'], first⟩, ⟨text, second⟩] ++ after)).unplaced := by
  have hne : Text.trim text ≠ [] := by
    intro hnil
    obtain ⟨c, hc, hblank⟩ := htext
    cases hblank.symm.trans (Text.trim_eq_nil_iff.1 hnil c hc)
  constructor
  · intro keyword hcolon hbrace
    have hwhole : Clause.ofText (keyword ++ [':', '\x7b'] ++ text) =
        .opening (Text.trim keyword) (Text.trim text) := by
      rw [List.append_assoc]
      exact Clause.ofText_opening hcolon hbrace text
    have hhead : Clause.ofText (keyword ++ [':', '\x7b']) = .opening (Text.trim keyword) [] :=
      Clause.ofText_opening hcolon hbrace []
    exact ofStatements_split_unplaced (hhead.trans (congrArg Clause.alone hwhole).symm)
      (congrArg Clause.rest hwhole) hne table before after span first second
  · have hwhole : Clause.ofText (['\x7d'] ++ text) = .close (Text.trim text) :=
      Clause.ofText_closing text
    have hhead : Clause.ofText ['\x7d'] = .close [] := Clause.ofText_closing []
    exact ofStatements_split_unplaced (hhead.trans (congrArg Clause.alone hwhole).symm)
      (congrArg Clause.rest hwhole) hne table before after span first second

/-- Behind the brace stand blanks of several kinds, a statement, a closing and another opening. -/
def crowded : List Char := "\t  say:  a\u00a0b \x7d: c : \x7b ".toList

/-- Crowded statements may be parted behind an opening brace and behind a closing one. -/
theorem ofStatements_brace_layout_crowded :
    (∃ c ∈ crowded, Text.isBlank c = false) ∧ ':' ∉ " if ".toList ∧ '\x7d' ∉ " if ".toList ∧
      (Reading.ofStatements .standard ([⟨"\x7d".toList, ⟨0, 1⟩⟩] ++
          [⟨" if ".toList ++ [':', '\x7b'] ++ crowded, ⟨2, 32⟩⟩] ++
          [⟨"\x7d".toList, ⟨33, 34⟩⟩])).unplaced =
        (Reading.ofStatements .standard ([⟨"\x7d".toList, ⟨0, 1⟩⟩] ++
          [⟨" if ".toList ++ [':', '\x7b'], ⟨2, 8⟩⟩, ⟨crowded, ⟨8, 32⟩⟩] ++
          [⟨"\x7d".toList, ⟨33, 34⟩⟩])).unplaced ∧
      (Reading.ofStatements .standard ([] ++ [⟨['\x7d'] ++ crowded, ⟨0, 25⟩⟩] ++ [])).unplaced =
        (Reading.ofStatements .standard
          ([] ++ [⟨['\x7d'], ⟨0, 1⟩⟩, ⟨crowded, ⟨1, 25⟩⟩] ++ [])).unplaced := by
  have hcrowded : ∃ c ∈ crowded, Text.isBlank c = false := ⟨'s', by decide, rfl⟩
  have hcolon : ':' ∉ " if ".toList := by decide
  have hbrace : '\x7d' ∉ " if ".toList := by decide
  exact ⟨hcrowded, hcolon, hbrace,
    (ofStatements_brace_layout .standard _ _ crowded hcrowded _ _ _).1 _ hcolon hbrace,
    (ofStatements_brace_layout .standard _ _ crowded hcrowded _ _ _).2⟩

end TextAdventure.Script
