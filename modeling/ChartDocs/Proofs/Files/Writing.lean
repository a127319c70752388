import ChartDocs.Files
import Mathlib.Data.List.Basic

/-!
# Writing a file

What has been written to a path is read from it, whether the path is absolute or starts from the
working directory, and whether the file was there before or not. A text that is written to an
existing file replaces what the file holds: no place comes into being and none is lost, so every
path leads to where it led before, and what is found at the end of a path is the same unless the
path leads to that file.
-/

namespace ChartDocs.Files

/-- The places of the files. -/
def places (files : Files) : List (List String) :=
  files.entries.map Prod.fst

/-- Something is held exactly at the places. -/
theorem isSome_lookup_iff (entries : List (List String × Content)) (place : List String) :
    (entries.lookup place).isSome ↔ place ∈ entries.map Prod.fst := by
  induction entries with
  | nil => simp
  | cons entry rest ih =>
    obtain ⟨other, content⟩ := entry
    by_cases heq : place = other
    · simp [heq]
    · rw [List.lookup_cons, beq_false_of_ne heq, ih, List.map_cons, List.mem_cons]
      exact (or_iff_right heq).symm

section Put

variable (place : List String) (content : Content) (entries : List (List String × Content))

/-- A place holds what was put there. -/
theorem lookup_put_self : (put place content entries).lookup place = some content := by
  induction entries with
  | nil => simp [put]
  | cons entry rest ih =>
    obtain ⟨other, old⟩ := entry
    rw [put]
    split
    · simp
    · next hne => rw [List.lookup_cons, beq_false_of_ne (Ne.symm hne), ih]

/-- Other places hold what they held. -/
theorem lookup_put_of_ne {other : List String} (hne : other ≠ place) :
    (put place content entries).lookup other = entries.lookup other := by
  induction entries with
  | nil => rw [put, List.lookup_cons, beq_false_of_ne hne]
  | cons entry rest ih =>
    obtain ⟨first, old⟩ := entry
    rw [put]
    split
    · next heq => rw [List.lookup_cons, List.lookup_cons, heq, beq_false_of_ne hne]
    · rw [List.lookup_cons, List.lookup_cons, ih]

/-- Putting something where a file is keeps all places. -/
theorem map_fst_put (h : place ∈ entries.map Prod.fst) :
    (put place content entries).map Prod.fst = entries.map Prod.fst := by
  induction entries with
  | nil => exact absurd h List.not_mem_nil
  | cons entry rest ih =>
    obtain ⟨other, old⟩ := entry
    rw [put]
    split
    · next heq => rw [List.map_cons, List.map_cons, heq]
    · next hne =>
      have hrest : place ∈ rest.map Prod.fst := (List.mem_cons.mp h).resolve_left (Ne.symm hne)
      rw [List.map_cons, List.map_cons, ih hrest]

/-- Putting something anywhere loses no place. -/
theorem mem_map_fst_put {other : List String} (h : other ∈ entries.map Prod.fst) :
    other ∈ (put place content entries).map Prod.fst := by
  rw [← isSome_lookup_iff] at h ⊢
  by_cases hplace : other = place
  · rw [hplace, lookup_put_self, Option.isSome_some]
  · rwa [lookup_put_of_ne _ _ _ hplace]

end Put

/-- A place is a directory if it is one of the directories or a file lies below it. -/
theorem isDirectory_iff {files : Files} {directories : Directories} {place : List String} :
    files.isDirectory place directories = true ↔
      directories.has place = true ∨ ∃ other ∈ files.places, other ≠ place ∧ place <+: other := by
  simp only [isDirectory, places, Bool.or_eq_true, List.any_eq_true, Bool.and_eq_true,
    decide_eq_true_eq, List.isPrefixOf_iff_prefix]
  refine or_congr_right ⟨?_, ?_⟩
  · rintro ⟨entry, hentry, hbelow⟩
    exact ⟨entry.1, List.mem_map_of_mem hentry, hbelow⟩
  · rintro ⟨other, hother, hbelow⟩
    obtain ⟨entry, hentry, rfl⟩ := List.mem_map.mp hother
    exact ⟨entry, hentry, hbelow⟩

section Places

variable {files others : Files} (h : files.places = others.places) (directories : Directories)

include h

/-- Trees with the same places have the same directories. -/
theorem isDirectory_eq_of_places (place : List String) :
    files.isDirectory place directories = others.isDirectory place directories := by
  rw [Bool.eq_iff_iff, isDirectory_iff, isDirectory_iff, h]

/-- Trees with the same places have the same files, whatever these hold. -/
theorem isSome_fileAt?_eq_of_places (parent : List String) (name : String) :
    (files.fileAt? parent name).isSome = (others.fileAt? parent name).isSome := by
  have hmem : parent ++ [name] ∈ files.places ↔ parent ++ [name] ∈ others.places := by rw [h]
  rwa [places, places, ← isSome_lookup_iff, ← isSome_lookup_iff, ← Bool.eq_iff_iff] at hmem

/-- The same directories can be entered in trees with the same places. -/
theorem enter_eq_of_places (parent : List String) (name : String) :
    files.enter parent name directories = others.enter parent name directories := by
  rw [enter, enter, isSome_fileAt?_eq_of_places h, isDirectory_eq_of_places h]

/-- Names are followed to the same target in trees with the same places. -/
theorem follow_eq_of_places (here : List String) (names : List String) :
    files.follow here names directories = others.follow here names directories := by
  induction names generalizing here with
  | nil => rfl
  | cons name rest ih => simp only [follow, ih, enter_eq_of_places h]

/-- A path leads to the same target in trees with the same places. -/
theorem locate_eq_of_places (path : String) :
    files.locate path directories = others.locate path directories := by
  simp only [locate, follow_eq_of_places h]

end Places

variable {files after : Files} {directories : Directories} {path text : String}
  {parent : List String} {name : String}

section Putting

variable {content : Content}
  (hentries : after.entries = put (parent ++ [name]) content files.entries)

include hentries

/-- After something was put at a place, only the name that spells the place can find something
new. -/
theorem fileAt?_of_put (above : List String) (last : String) :
    after.fileAt? above last = files.fileAt? above last ∨ above = parent ∧ last = name := by
  by_cases hplace : above ++ [last] = parent ++ [name]
  · obtain ⟨habove, hlast⟩ := List.append_inj' hplace rfl
    exact Or.inr ⟨habove, List.singleton_inj.mp hlast⟩
  · rw [fileAt?, fileAt?, hentries, lookup_put_of_ne _ _ _ hplace]
    exact Or.inl rfl

/-- Putting something at a place removes no directories. -/
theorem isDirectory_of_put {place : List String}
    (h : files.isDirectory place directories = true) :
    after.isDirectory place directories = true := by
  refine isDirectory_iff.mpr ((isDirectory_iff.mp h).imp_right ?_)
  rintro ⟨other, hother, hbelow⟩
  refine ⟨other, ?_, hbelow⟩
  rw [places, hentries]
  exact mem_map_fst_put _ _ _ hother

/-- A directory can still be entered after something was put where there is none. -/
theorem enter_of_put (hout : files.isDirectory (parent ++ [name]) directories = false)
    {here inner : List String} {last : String}
    (h : files.enter here last directories = .ok inner) :
    after.enter here last directories = .ok inner := by
  unfold enter at h
  split at h
  · cases h
  · next hshort =>
    split at h
    · cases h
    · next hnone =>
      split at h
      · next hdirectory =>
        have hne : ¬(here = parent ∧ last = name) := by
          rintro ⟨rfl, rfl⟩
          rw [hout] at hdirectory
          exact Bool.noConfusion hdirectory
        have hsame := (fileAt?_of_put hentries here last).resolve_right hne
        rw [enter, if_neg hshort, hsame, if_neg hnone,
          if_pos (isDirectory_of_put hentries hdirectory), h]
      · cases h

/-- Names that can be followed lead to the same target after something was put where there is no
directory. -/
theorem follow_of_put (hout : files.isDirectory (parent ++ [name]) directories = false)
    {here names : List String} {target : Target}
    (h : files.follow here names directories = .ok target) :
    after.follow here names directories = .ok target := by
  induction names generalizing here with
  | nil => exact h
  | cons step rest ih =>
    rw [follow] at h ⊢
    by_cases hidle : isIdle step = true
    · rw [if_pos hidle] at h ⊢
      exact ih h
    rw [if_neg hidle] at h ⊢
    by_cases hup : step = ".."
    · rw [if_pos hup] at h ⊢
      exact ih h
    rw [if_neg hup] at h ⊢
    by_cases hlast : rest.all (· = "") = true
    · rw [if_pos hlast] at h ⊢
      exact h
    rw [if_neg hlast] at h ⊢
    cases henter : files.enter here step directories with
    | error fault =>
      rw [henter] at h
      cases h
    | ok inner =>
      rw [henter] at h
      rw [enter_of_put hentries hout henter]
      exact ih h

/-- A path that can be followed leads to the same target after something was put where there is no
directory. -/
theorem locate_of_put (hout : files.isDirectory (parent ++ [name]) directories = false)
    {target : Target} (h : files.locate path directories = .ok target) :
    after.locate path directories = .ok target := by
  unfold locate at h ⊢
  by_cases hempty : path = ""
  · rw [if_pos hempty] at h
    cases h
  by_cases hnull : path.toList.contains '\x00' = true
  · rw [if_neg hempty, if_pos hnull] at h
    cases h
  by_cases hlong : pathLimit ≤ path.utf8ByteSize
  · rw [if_neg hempty, if_neg hnull, if_pos hlong] at h
    cases h
  rw [if_neg hempty, if_neg hnull, if_neg hlong] at h ⊢
  exact follow_of_put hentries hout h

/-- Putting something where a file is keeps all places. -/
theorem places_of_put (hfile : (files.fileAt? parent name).isSome) :
    after.places = files.places := by
  rw [places, hentries, map_fst_put _ _ _ ((isSome_lookup_iff _ _).mp hfile), places]

/-- After something was put where a file is, a path that leads elsewhere finds what it found. -/
theorem read_of_put (hfile : (files.fileAt? parent name).isSome) {other : String}
    (hother : files.locate other directories ≠ .ok (.name parent name false)) :
    after.read other directories = files.read other directories := by
  have hplaces := places_of_put hentries hfile
  rw [read, read, locate_eq_of_places hplaces directories other]
  cases htarget : files.locate other directories with
  | error fault => rfl
  | ok target =>
    cases target with
    | directory => rfl
    | name above last slash =>
      simp only [isDirectory_eq_of_places hplaces]
      rcases fileAt?_of_put hentries above last with hsame | ⟨rfl, rfl⟩
      · rw [hsame]
      · cases slash with
        | false => exact absurd htarget hother
        | true =>
          -- A file that is named as a directory is refused, whatever it holds.
          obtain ⟨old, hold⟩ := Option.isSome_iff_exists.mp hfile
          have hsome : (after.fileAt? above last).isSome := by
            rwa [isSome_fileAt?_eq_of_places hplaces]
          obtain ⟨new, hnew⟩ := Option.isSome_iff_exists.mp hsome
          simp [hold, hnew]

end Putting

/-- A path that can be read leads to a file. -/
theorem isSome_fileAt?_of_read {content : Content} {slash : Bool}
    (hread : files.read path directories = .ok content)
    (hlocate : files.locate path directories = .ok (.name parent name slash)) :
    (files.fileAt? parent name).isSome := by
  rw [read, hlocate] at hread
  cases hfile : files.fileAt? parent name with
  | some content => rfl
  | none =>
    simp only [hfile] at hread
    split at hread <;> cases hread

/-- What can be written is put at the place that the path leads to, and there is no directory. -/
theorem exists_put_of_write (h : files.write path text directories = .ok after) :
    ∃ parent name, files.locate path directories = .ok (.name parent name false) ∧
      ¬nameLimit < name.utf8ByteSize ∧
      files.isDirectory (parent ++ [name]) directories = false ∧
      after.entries = put (parent ++ [name]) (.text text) files.entries := by
  rw [write] at h
  split at h
  · cases h
  · cases h
  · next parent name slash hlocate =>
    cases slash with
    | true => cases h
    | false =>
      rw [if_neg Bool.false_ne_true] at h
      split at h
      · cases h
      · next hshort =>
        split at h
        · cases h
        · next hout =>
          obtain rfl := Except.ok.inj h
          exact ⟨parent, name, hlocate, hshort, Bool.eq_false_iff.mpr hout, rfl⟩

/-- What has been written to a path is read from it. -/
theorem read_of_write (h : files.write path text directories = .ok after) :
    after.read path directories = .ok (.text text) := by
  obtain ⟨parent, name, hlocate, hshort, hout, hentries⟩ := exists_put_of_write h
  have hfile : after.fileAt? parent name = some (.text text) := by
    rw [fileAt?, hentries, lookup_put_self]
  simp [read, locate_of_put hentries hout hlocate, hshort, hfile]

/-- A file that could be read and was written holds the text, and nothing else is changed. -/
structure Replaced (files : Files) (directories : Directories) (path text : String)
    (after : Files) : Prop where
  /-- No file is created or lost. -/
  places : after.places = files.places
  /-- The path has the new text. -/
  read_self : after.read path directories = .ok (.text text)
  /-- Paths to somewhere else find what they found. -/
  read_other : ∀ other, files.locate other directories ≠ files.locate path directories →
    after.read other directories = files.read other directories

/-- Writing to a file that can be read replaces it. -/
theorem replaced_of_write {content : Content} (hread : files.read path directories = .ok content)
    (hwrite : files.write path text directories = .ok after) :
    files.Replaced directories path text after := by
  obtain ⟨parent, name, hlocate, -, -, hentries⟩ := exists_put_of_write hwrite
  have hfile := isSome_fileAt?_of_read hread hlocate
  exact
    { places := places_of_put hentries hfile
      read_self := read_of_write hwrite
      read_other := fun other hother => read_of_put hentries hfile (hlocate ▸ hother) }

end ChartDocs.Files
