import TestData.Settings.Discovery

namespace TestData

/-!
# Where settings come from

The search for a settings file goes from directory to directory, each the parent of the one before,
and ends in every file system: at the first directory with a settings file, or above the last
directory.  The file it ends with is the only one that is read.  If that fails, or the text stands
for no settings, this is the error of the whole; only if there is no file at all are the settings
left at their defaults.  All this holds whatever reader there is for the texts.
-/

namespace Path

/-- The directory so many steps up, if there are so many. -/
def above? (path : Path) : Nat → Option Path
  | 0 => some path
  | steps + 1 => path.parent?.bind fun parent => parent.above? steps

variable {path parent : Path}

theorem above?_of_parent (found : path.parent? = some parent) (steps : Nat) :
    path.above? (steps + 1) = parent.above? steps := by
  rw [above?, found]
  rfl

theorem above?_of_last (last : path.parent? = none) (steps : Nat) :
    path.above? (steps + 1) = none := by
  rw [above?, last]
  rfl

theorem ancestors_of_parent (found : path.parent? = some parent) :
    path.ancestors = path :: parent.ancestors := by
  rw [ancestors]
  split
  · rename_i other alsoFound
    cases found.symm.trans alsoFound
    rfl
  · rename_i none
    cases found.symm.trans none

theorem ancestors_of_last (last : path.parent? = none) : path.ancestors = [path] := by
  rw [ancestors]
  split
  · rename_i other found
    cases last.symm.trans found
  · rfl

/-- Paths by their parents: what holds of the parent has to carry over to the path. -/
theorem parent_induction {motive : Path → Prop}
    (below : ∀ {path parent : Path}, path.parent? = some parent → motive parent → motive path)
    (last : ∀ {path : Path}, path.parent? = none → motive path) (path : Path) : motive path := by
  cases found : path.parent? with
  | none => exact last found
  | some parent => exact below found (parent_induction below last parent)
termination_by path.segments.length
decreasing_by exact length_parent?_lt found

end Path

namespace Settings

/-- The settings file of a directory: the hidden one, or else the one that is not hidden. -/
inductive FileOf (files : FileSystem) (directory : Path) : Path → Prop where
  | hidden (there : files.isFile (directory.join ".stubr.json") = true) :
      FileOf files directory (directory.join ".stubr.json")
  | visible (missing : files.isFile (directory.join ".stubr.json") = false)
      (there : files.isFile (directory.join "stubr.json") = true) :
      FileOf files directory (directory.join "stubr.json")

/-- A directory has no settings file. -/
def WithoutFile (files : FileSystem) (directory : Path) : Prop :=
  ∀ file, ¬ FileOf files directory file

/-- A file is the settings file of the nearest directory that has one. -/
def NearestFile (files : FileSystem) (start file : Path) : Prop :=
  ∃ steps directory, start.above? steps = some directory ∧ FileOf files directory file ∧
    ∀ fewer < steps, ∀ nearer, start.above? fewer = some nearer → WithoutFile files nearer

/-- No directory has a settings file, the start directory and those above it. -/
def NoFile (files : FileSystem) (start : Path) : Prop :=
  ∀ steps directory, start.above? steps = some directory → WithoutFile files directory

/-- How the search goes on from a directory until it ends, with a file or without one. -/
inductive Search (files : FileSystem) : Path → Option Path → Prop where
  | here {directory file : Path} (found : FileOf files directory file) :
      Search files directory (some file)
  | above {directory parent : Path} {outcome : Option Path}
      (missing : WithoutFile files directory) (next : directory.parent? = some parent)
      (rest : Search files parent outcome) : Search files directory outcome
  | ended {directory : Path} (missing : WithoutFile files directory)
      (last : directory.parent? = none) : Search files directory none

variable {files : FileSystem} {start directory parent file : Path} {outcome : Option Path}

/-! ## One directory -/

theorem fileIn?_eq_some_iff :
    fileIn? files directory = some file ↔ FileOf files directory file := by
  rw [fileIn?, fileNames, List.map_cons, List.map_cons, List.map_nil, List.find?_cons,
    List.find?_cons, List.find?_nil]
  cases hidden : files.isFile (directory.join ".stubr.json") with
  | true =>
      constructor
      · rintro ⟨⟩
        exact .hidden hidden
      · rintro (_ | ⟨missing, -⟩)
        · rfl
        · cases hidden.symm.trans missing
  | false =>
      cases visible : files.isFile (directory.join "stubr.json") with
      | true =>
          constructor
          · rintro ⟨⟩
            exact .visible hidden visible
          · rintro (there | _)
            · cases hidden.symm.trans there
            · rfl
      | false =>
          constructor
          · nofun
          · rintro (there | ⟨-, there⟩)
            · cases hidden.symm.trans there
            · cases visible.symm.trans there

theorem fileIn?_eq_none_iff : fileIn? files directory = none ↔ WithoutFile files directory := by
  rw [Option.eq_none_iff_forall_ne_some]
  exact forall_congr' fun file => not_congr fileIn?_eq_some_iff

/-! ## The search -/

theorem find?_of_file (found : FileOf files directory file) :
    find? files directory = some file := by
  have here := fileIn?_eq_some_iff.mpr found
  cases up : directory.parent? with
  | none => rw [find?, Path.ancestors_of_last up, List.findSome?_cons, here]
  | some parent => rw [find?, Path.ancestors_of_parent up, List.findSome?_cons, here]

theorem find?_of_parent (missing : WithoutFile files directory)
    (next : directory.parent? = some parent) : find? files directory = find? files parent := by
  rw [find?, Path.ancestors_of_parent next, List.findSome?_cons, fileIn?_eq_none_iff.mpr missing]
  rfl

theorem find?_of_last (missing : WithoutFile files directory)
    (last : directory.parent? = none) : find? files directory = none := by
  rw [find?, Path.ancestors_of_last last, List.findSome?_cons, fileIn?_eq_none_iff.mpr missing]
  rfl

theorem Search.eq (search : Search files start outcome) : find? files start = outcome := by
  induction search with
  | here found => exact find?_of_file found
  | above missing next _ ih => exact (find?_of_parent missing next).trans ih
  | ended missing last => exact find?_of_last missing last

theorem file_or_without (files : FileSystem) (directory : Path) :
    (∃ file, FileOf files directory file) ∨ WithoutFile files directory := by
  cases here : fileIn? files directory with
  | some file => exact .inl ⟨file, fileIn?_eq_some_iff.mp here⟩
  | none => exact .inr (fileIn?_eq_none_iff.mp here)

/-- The search ends in every file system, from every path. -/
theorem search_ends (files : FileSystem) (start : Path) :
    ∃ outcome, Search files start outcome := by
  induction start using Path.parent_induction with
  | @below directory parent next ih =>
      rcases file_or_without files directory with ⟨file, found⟩ | missing
      · exact ⟨some file, .here found⟩
      · rcases ih with ⟨outcome, rest⟩
        exact ⟨outcome, .above missing next rest⟩
  | @last directory last =>
      rcases file_or_without files directory with ⟨file, found⟩ | missing
      · exact ⟨some file, .here found⟩
      · exact ⟨none, .ended missing last⟩

theorem search_iff : Search files start outcome ↔ find? files start = outcome := by
  constructor
  · exact Search.eq
  · rintro rfl
    rcases search_ends files start with ⟨outcome, search⟩
    rw [search.eq]
    exact search

/-! ## What the search ends with -/

theorem NearestFile.search (nearest : NearestFile files start file) :
    Search files start (some file) := by
  rcases nearest with ⟨steps, directory, reached, found, missing⟩
  induction steps generalizing start with
  | zero =>
      cases reached
      exact .here found
  | succ steps ih =>
      cases up : start.parent? with
      | none => cases (Path.above?_of_last up steps).symm.trans reached
      | some parent =>
          have shift := Path.above?_of_parent up
          refine .above (missing 0 (Nat.succ_pos steps) start rfl) up ?_
          refine ih ((shift steps).symm.trans reached) fun fewer less nearer passed => ?_
          exact missing (fewer + 1) (Nat.succ_lt_succ less) nearer ((shift fewer).trans passed)

theorem NoFile.search (missing : NoFile files start) : Search files start none := by
  induction start using Path.parent_induction with
  | below next ih =>
      refine .above (missing 0 _ rfl) next (ih fun steps directory reached => ?_)
      exact missing (steps + 1) directory ((Path.above?_of_parent next steps).trans reached)
  | last last => exact .ended (missing 0 _ rfl) last

theorem Search.nearestFile (search : Search files start (some file)) :
    NearestFile files start file := by
  generalize ends : some file = outcome at search
  induction search with
  | here found =>
      cases ends
      exact ⟨0, _, rfl, found, fun _ less => absurd less (Nat.not_lt_zero _)⟩
  | above missing next _ ih =>
      rcases ih ends with ⟨steps, directory, reached, found, before⟩
      have shift := Path.above?_of_parent next
      refine ⟨steps + 1, directory, (shift steps).trans reached, found, ?_⟩
      intro fewer less nearer passed
      cases fewer with
      | zero =>
          cases passed
          exact missing
      | succ fewer =>
          exact before fewer (Nat.lt_of_succ_lt_succ less) nearer ((shift fewer).symm.trans passed)
  | ended => cases ends

theorem Search.noFile (search : Search files start none) : NoFile files start := by
  generalize ends : none = outcome at search
  induction search with
  | here => cases ends
  | above missing next _ ih =>
      intro steps directory reached
      cases steps with
      | zero =>
          cases reached
          exact missing
      | succ steps =>
          exact ih ends steps directory ((Path.above?_of_parent next steps).symm.trans reached)
  | ended missing last =>
      intro steps directory reached
      cases steps with
      | zero =>
          cases reached
          exact missing
      | succ steps => cases (Path.above?_of_last last steps).symm.trans reached

theorem find?_eq_some_iff : find? files start = some file ↔ NearestFile files start file := by
  rw [← search_iff]
  exact ⟨Search.nearestFile, NearestFile.search⟩

theorem find?_eq_none_iff : find? files start = none ↔ NoFile files start := by
  rw [← search_iff]
  exact ⟨Search.noFile, NoFile.search⟩

/-! ## The settings that are used -/

variable {reader : Reader}

/-- A text that stands for no settings is an error of one kind. -/
theorem eq_serialization_of_parse {text : String} {cause : StubError}
    (failed : reader.parse text = .error cause) : cause = .serialization := by
  unfold Reader.parse at failed
  split at failed
  · cases failed
  · cases failed
    rfl

theorem load_of_unreadable (unreadable : files.text? file = none) :
    reader.load files file = .error .io := by
  simp only [Reader.load, FileSystem.readText, unreadable]
  rfl

theorem load_of_text {text : String} (read : files.text? file = some text) :
    reader.load files file = reader.parse text := by
  simp only [Reader.load, FileSystem.readText, read]
  rfl

theorem chainFor_of_file (found : find? files start = some file) :
    reader.chainFor files start = (reader.load files file).map chain := by
  simp only [Reader.chainFor, Reader.discover, found]

theorem chainFor_of_none (missing : find? files start = none) :
    reader.chainFor files start = .ok (chain default) := by
  simp only [Reader.chainFor, Reader.discover, missing]
  rfl

/-- At home there is a settings file that cannot be read, and above it one that can. -/
def lockedHome : FileSystem where
  isFile path := path = ⟨["home", ".stubr.json"]⟩ ∨ path = ⟨["stubr.json"]⟩
  text? path := if path = ⟨["stubr.json"]⟩ then some "\x7b\x7d" else none

end Settings
end TestData
