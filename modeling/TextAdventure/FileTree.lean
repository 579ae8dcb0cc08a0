import TextAdventure.Text.Utf8

/-!
# Trees of files

What is known of the files around a working directory, and what reading and writing them by path
gives. A path is followed step by step: every place on the way must be a directory, `.` stays and `..`
goes up. Of two faults the first one met on the way counts.

`exists_entry_of_read` says that a path that can be read ends at an entry of the tree with the last
step of the path as its name.
-/

namespace TextAdventure

/-- A place in a file tree: the names on the way from the working directory, or from the root if the
first of them is `/`. Names `..` at the front lead out of the working directory. -/
abbrev Place := List String

/-- Why a file cannot be read or written. -/
inductive FileFault where
  /-- The path has a NUL character. -/
  | nulInPath
  /-- There is nothing at the path. -/
  | missing
  /-- The path goes on after a file. -/
  | notDirectory
  /-- At the path is a directory. -/
  | isDirectory
  /-- A name on the path, or the path itself, is too long. -/
  | nameTooLong
  /-- The file is not UTF-8 text. -/
  | notText
  /-- Another reason, in words. -/
  | other (reason : String)
deriving DecidableEq

/-- The fault in words. -/
def FileFault.message : FileFault → String
  | .nulInPath => "file name contained an unexpected NUL byte"
  | .missing => "No such file or directory (os error 2)"
  | .notDirectory => "Not a directory (os error 20)"
  | .isDirectory => "Is a directory (os error 21)"
  | .nameTooLong => "File name too long (os error 36)"
  | .notText => "stream did not contain valid UTF-8"
  | .other reason => reason

/-- What is at a place. -/
inductive FileEntry where
  | file (bytes : List UInt8)
  | directory
  /-- Something that cannot be read, with the reason. -/
  | unreadable (reason : String)
deriving DecidableEq

/-- What is known of the files around a working directory; of two entries for one place the first
counts. -/
structure FileTree where
  entries : List (Place × FileEntry) := []
deriving DecidableEq

namespace Place

/-- The place above. -/
def up (here : Place) : Place :=
  if here = ["/"] then here
  else if here.all (· = "..") then here ++ [".."]
  else here.dropLast

/-- The place that one step leads to. -/
def move (here : Place) (step : String) : Place :=
  if step = "." then here
  else if step = ".." then up here
  else here ++ [step]

/-- Whether every tree has a directory here: the working directory, one above it, or the root. -/
def isGiven (here : Place) : Bool := here = ["/"] || here.all (· = "..")

/-- The place from which a path starts. -/
def origin (path : List Char) : Place := if path.head? = some '/' then ["/"] else []

/-- The path of a place. -/
def path : Place → String
  | "/" :: names => "/" ++ String.intercalate "/" names
  | names => String.intercalate "/" names

/-- The names on a path. -/
def names (path : List Char) : List String :=
  ((path.splitOn '/').filter (!·.isEmpty)).map String.ofList

/-- The steps of a path. A slash at the end is a step that stays. -/
def steps (path : List Char) : List String :=
  names path ++ if path.getLast? = some '/' then ["."] else []

/-- The part of a path that names where it starts: a slash, or a dot that stands alone. -/
def head : List Char → List Char × List Char
  | '/' :: rest => (['/'], rest)
  | ['.'] => (['.'], [])
  | '.' :: '/' :: rest => (['.'], '/' :: rest)
  | path => ([], path)

/-- The path of the directory that holds the file at a path: all before the last name, without
slashes and dots that lead nowhere at its end. -/
def parentPath (path : List Char) : List Char :=
  let (start, body) := head path
  let leadsNowhere (part : List Char) : Bool := part.isEmpty || part = ['.']
  let above := ((body.splitOn '/').reverse.dropWhile leadsNowhere).tail.dropWhile leadsNowhere
  start ++ (above.reverse.intersperse ['/']).flatten

/-- The places that steps lead through, down to the last. -/
def trail (here : Place) : List String → List Place
  | [] => []
  | step :: rest => here.move step :: trail (here.move step) rest

end Place

namespace FileTree

/-- What is at a place. -/
def find? (t : FileTree) (here : Place) : Option FileEntry :=
  if here.isGiven then some .directory
  else (t.entries.find? (·.1 = here)).map (·.2)

/-- The tree with an entry at a path, and a directory at each place on the way. -/
def put (t : FileTree) (path : String) (entry : FileEntry) : FileTree :=
  let places := (Place.origin path.toList).trail (Place.steps path.toList)
  ⟨(places.getLast?.map (·, entry)).toList ++ places.dropLast.map (·, .directory) ++ t.entries⟩

/-- The longest name of a file, in bytes. -/
def longestName : Nat := 255

/-- The longest path, in bytes. -/
def longestPath : Nat := 4095

/-- One step from a place, which must be a directory. -/
def walk (t : FileTree) (here : Place) (step : String) : Except FileFault Place :=
  match t.find? here with
  | none => .error .missing
  | some .directory =>
    if Utf8.size step.toList > longestName then .error .nameTooLong else .ok (here.move step)
  | some _ => .error .notDirectory

/-- The faults of a path that show before it is followed. -/
def checkPath (path : List Char) : Except FileFault Unit :=
  if '\x00' ∈ path then .error .nulInPath
  else if path = [] then .error .missing
  else if Utf8.size path > longestPath then .error .nameTooLong
  else .ok ()

/-- The place that a path leads to; nothing need be there. -/
def locate (t : FileTree) (path : List Char) : Except FileFault Place := do
  checkPath path
  (Place.steps path).foldlM t.walk (Place.origin path)

/-- The bytes of the file at a path. -/
def read (t : FileTree) (path : List Char) : Except FileFault (List UInt8) := do
  match t.find? (← t.locate path) with
  | some (.file bytes) => .ok bytes
  | some .directory => .error .isDirectory
  | some (.unreadable reason) => .error (.other reason)
  | none => .error .missing

/-- The text of the file at a path. -/
def readText (t : FileTree) (path : List Char) : Except FileFault (List Char) := do
  match Utf8.decode (← t.read path) with
  | .ok text => .ok text.toList
  | .error _ => .error .notText

/-- The tree after a file is written, over one that was there or as a new one in a directory. -/
def write (t : FileTree) (path : List Char) (bytes : List UInt8) : Except FileFault FileTree := do
  checkPath path
  let above ← (Place.names path).dropLast.foldlM t.walk (Place.origin path)
  let _ ← t.walk above "."
  match (Place.names path).getLast? with
  | none => .error .isDirectory
  | some name =>
    if path.getLast? = some '/' then
      .error .isDirectory
    else
      let here ← t.walk above name
      match t.find? here with
      | some .directory => .error .isDirectory
      | some (.unreadable reason) => .error (.other reason)
      | _ => .ok ⟨(here, .file bytes) :: t.entries⟩

/-- The files of a tree that another did not have, or had with other bytes. -/
def changes (before after : FileTree) : List (Place × List UInt8) :=
  (after.entries.map (·.1)).eraseDups.filterMap fun here =>
    match after.find? here with
    | some (.file bytes) => if before.find? here = some (.file bytes) then none else some (here, bytes)
    | _ => none

/-! ## A file that can be read is an entry -/

/-- A name of its own: no way to stay or go up, and no path. -/
def IsName (name : String) : Prop := name ≠ "." ∧ name ≠ ".."

theorem walk_eq_append {t : FileTree} {here there : Place} {name : String} (hn : IsName name)
    (h : t.walk here name = .ok there) : there = here ++ [name] := by
  unfold walk at h
  split at h
  · cases h
  · split at h
    · cases h
    · simp only [Place.move, if_neg hn.1, if_neg hn.2, Except.ok.injEq] at h
      exact h.symm
  · cases h

theorem isGiven_append {here : Place} {name : String} (hn : IsName name) (hs : name ≠ "/") :
    Place.isGiven (here ++ [name]) = false := by
  have h₁ : here ++ [name] ≠ ["/"] := fun h => by
    rcases List.append_eq_cons_iff.1 h with ⟨rfl, h⟩ | ⟨_, _, h⟩
    · exact hs (by simpa using h)
    · simp at h
  simp [Place.isGiven, h₁, hn.2]

theorem mem_entries_of_find? {t : FileTree} {here : Place} {entry : FileEntry}
    (hg : here.isGiven = false) (h : t.find? here = some entry) : (here, entry) ∈ t.entries := by
  simp only [find?, hg, Bool.false_eq_true, if_false] at h
  obtain ⟨⟨p, e⟩, hf, rfl⟩ := Option.map_eq_some_iff.1 h
  have hp : p = here := by simpa using List.find?_some hf
  exact hp ▸ List.mem_of_find?_eq_some hf

/-- A path that ends in a name and can be read leads to an entry of that name. -/
theorem exists_entry_of_read {t : FileTree} {path : List Char} {bytes : List UInt8}
    {front : List String} {name : String} (hp : Place.steps path = front ++ [name])
    (hn : IsName name) (hs : name ≠ "/") (h : t.read path = .ok bytes) :
    ∃ here, (here ++ [name], .file bytes) ∈ t.entries := by
  simp only [read, locate, hp, List.foldlM_append, List.foldlM_cons, List.foldlM_nil, bind,
    Except.bind] at h
  cases hc : checkPath path with
  | error e => simp [hc] at h
  | ok u =>
    cases hf : List.foldlM t.walk (Place.origin path) front with
    | error e => simp [hc, hf] at h
    | ok here =>
      cases hw : t.walk here name with
      | error e => simp [hc, hf, hw] at h
      | ok there =>
        obtain rfl := walk_eq_append hn hw
        simp only [hc, hf, hw, pure, Except.pure] at h
        split at h
        next bytes' he =>
          cases h
          exact ⟨here, mem_entries_of_find? (isGiven_append hn hs) he⟩
        all_goals cases h

end FileTree

end TextAdventure
