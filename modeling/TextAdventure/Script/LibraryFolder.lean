import TextAdventure.FileTree
import TextAdventure.Script.Include

/-!
# Libraries in a directory

The library called `name` is the file `name.acl` of a directory. A name that could lead out of the
directory belongs to no library.
-/

namespace TextAdventure.Script

/-- The ending of the files of libraries. -/
def libraryEnding : List Char := ['.', 'a', 'c', 'l']

/-- The path of a file in a directory. -/
def pathIn (directory file : List Char) : List Char :=
  if directory = [] ∨ directory.getLast? = some '/' then directory ++ file
  else directory ++ '/' :: file

/-- Whether a name can be the name of a library: it is not empty, has no slash of either kind and does
not start with a dot. -/
def isLibraryName (name : List Char) : Bool :=
  !name.isEmpty && !name.contains '/' && !name.contains '\\' && name.head? ≠ some '.'

/-- The name of a file without the ending of libraries. -/
def libraryStem (file : String) : String :=
  String.ofList (file.toList.take (file.toList.length - libraryEnding.length))

/-- The path of a library in a directory. -/
def libraryPath (directory : String) (name : String) : List Char :=
  pathIn directory.toList (name.toList ++ libraryEnding)

/-- The text of a library in a directory. -/
def loadFrom (t : FileTree) (directory name : String) : Except IncludeError (List Char) :=
  if isLibraryName name.toList then
    match t.readText (libraryPath directory name) with
    | .ok text => .ok text
    | .error .missing => .error (.notFound name)
    | .error fault =>
      .error (.unreadable (String.ofList (libraryPath directory name)) fault.message)
  else
    .error (.notFound name)

/-! ## Only entries of the tree can be loaded -/

/-- The last step to a file in a directory is its name. -/
theorem exists_steps_pathIn (directory : List Char) {file : List Char} (hne : file ≠ [])
    (hs : '/' ∉ file) : ∃ front, Place.steps (pathIn directory file) = front ++ [String.ofList file] := by
  have hf : Place.names file = [String.ofList file] := by
    simp [Place.names, List.splitOn_eq_singleton hs, hne]
  have hl : ∀ left : List Char, (left ++ file).getLast? ≠ some '/' := fun left h => by
    rw [List.getLast?_append, List.getLast?_eq_some_getLast hne, Option.some_or] at h
    exact hs (Option.some.inj h ▸ List.getLast_mem hne)
  have hn : ∀ left : List Char,
      Place.names (left ++ '/' :: file) = Place.names left ++ [String.ofList file] := fun left => by
    simp [Place.names, List.splitOn_append_cons_self, ← hf]
  unfold pathIn
  split
  next h =>
    rcases h with rfl | h
    · exact ⟨[], by rw [Place.steps, if_neg (hl []), List.append_nil]; exact hf⟩
    · obtain ⟨left, rfl⟩ := List.getLast?_eq_some_iff.1 h
      refine ⟨Place.names left, ?_⟩
      rw [Place.steps, if_neg (hl _), List.append_nil, List.append_assoc]
      exact hn left
  next =>
    refine ⟨Place.names directory, ?_⟩
    have h : directory ++ '/' :: file = (directory ++ ['/']) ++ file := by simp
    rw [Place.steps, if_neg (h ▸ hl _), List.append_nil]
    exact hn directory

theorem libraryStem_append (name : List Char) :
    libraryStem (String.ofList (name ++ libraryEnding)) = String.ofList name := by
  simp [libraryStem]

/-- The libraries in a directory. -/
def Library.ofDirectory (t : FileTree) (directory : String) : Library where
  names := t.entries.map fun entry => libraryStem (entry.1.getLast?.getD "")
  load := loadFrom t directory
  mem_of_load {name text} h := by
    unfold loadFrom at h
    split at h
    next hn =>
      have hne : name.toList ++ libraryEnding ≠ [] := by simp [libraryEnding]
      have hs : '/' ∉ name.toList ++ libraryEnding := by
        simp [isLibraryName] at hn
        simp [libraryEnding, hn]
      obtain ⟨front, hp⟩ := exists_steps_pathIn directory.toList hne hs
      cases hr : t.read (libraryPath directory name) with
      | error e =>
        simp only [FileTree.readText, hr, bind, Except.bind] at h
        cases e <;> cases h
      | ok bytes =>
        have long : ∀ other : String, other.toList.length < 4 →
            String.ofList (name.toList ++ libraryEnding) ≠ other := by
          rintro other hl rfl
          rw [String.toList_ofList, List.length_append] at hl
          exact absurd (Nat.lt_of_le_of_lt (Nat.le_add_left 4 _) hl) (Nat.lt_irrefl 4)
        obtain ⟨here, hm⟩ := FileTree.exists_entry_of_read hp
          ⟨long "." (by decide), long ".." (by decide)⟩ (long "/" (by decide)) hr
        refine List.mem_map.2 ⟨_, hm, ?_⟩
        simp only [List.getLast?_concat, Option.getD_some, libraryStem_append, String.ofList_toList]
    next => cases h

end TextAdventure.Script
