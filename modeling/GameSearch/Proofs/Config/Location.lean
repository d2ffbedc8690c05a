import GameSearch.Config.Location
import GameSearch.Proofs.Path.Reading

/-!
# The file of a location

A location names a file: the one of its name in its directory. Locating a path and naming the file
leads back to the path, whichever way it is located, as long as the file has a directory to be found in.
The root has no name, and so a file right below it is looked for in the current directory.
-/

namespace GameSearch.Config.Location

variable {path : Path} {init : List String} {stem : String}

/-- The file that a location names. -/
def file (location : Location) : Path :=
  (Path.ofText location.directory).join (Path.ofText (location.name ++ ".yaml"))

/-- A path whose last name is a stem with the suffix of configurations. -/
structure Holds (path : Path) (init : List String) (stem : String) : Prop where
  wellFormed : path.WellFormed
  names_eq : path.names = init ++ [stem ++ ".yaml"]
  stem_ne : stem ≠ ""

namespace Holds

theorem name_eq (holds : Holds path init stem) : path.name = stem ++ ".yaml" := by
  simp [Path.name, holds.names_eq]

theorem stem_eq (holds : Holds path init stem) : path.stem = stem := by
  have toList_eq : (stem ++ ".yaml").toList = stem.toList ++ '.' :: ['y', 'a', 'm', 'l'] := by
    simp
  rw [Path.stem, holds.name_eq, toList_eq,
    Path.splitSuffix_append (by simpa using holds.stem_ne) (by decide) (by decide),
    String.ofList_toList]

theorem withSuffix_eq (holds : Holds path init stem) :
    path.withSuffix "" = .ok ⟨path.slashes, init ++ [stem]⟩ := by
  simp [Path.withSuffix, holds.names_eq, holds.stem_eq]

theorem slash_not_mem_stem (holds : Holds path init stem) : '/' ∉ stem.toList := by
  have clear := holds.wellFormed.slash_not_mem (stem ++ ".yaml") (by simp [holds.names_eq])
  rw [String.toList_append, List.mem_append, not_or] at clear
  exact clear.1

theorem toList_bare (holds : Holds path init stem) :
    (Path.text ⟨path.slashes, init ++ [stem]⟩).toList =
      List.replicate path.slashes '/' ++ Path.joined (init ++ [stem]) :=
  Path.toList_text (.inr ⟨stem, by simp, holds.stem_ne⟩)

/-- A name written with its directories and the suffix is the relative path of these names. -/
theorem ofText_name (holds : Holds path init stem) {later : List String}
    (subset : ∀ name ∈ later, name ∈ init) {name : String}
    (name_eq : name.toList = Path.joined (later ++ [stem])) :
    Path.ofText (name ++ ".yaml") = ⟨0, later ++ [stem ++ ".yaml"]⟩ := by
  have filled : stem ++ ".yaml" ≠ "" := by simp
  have text_eq : name ++ ".yaml" = Path.text ⟨0, later ++ [stem ++ ".yaml"]⟩ := by
    rw [← String.toList_inj, Path.toList_text (.inr ⟨stem ++ ".yaml", by simp, filled⟩),
      String.toList_append, name_eq, Path.joined_concat]
    rfl
  rw [text_eq]
  refine (holds.wellFormed.of_names (Nat.zero_le 2) fun other mem => ?_).ofText_text
  rw [holds.names_eq]
  exact List.mem_append.mpr ((List.mem_append.mp mem).imp_left (subset other))

/-- A path without its suffix starts with the common directory just if it is relative and its first
name is that of the directory. -/
theorem startsCommon_iff (holds : Holds path init stem) :
    (commonDirectory ++ "/").toList <+: (Path.text ⟨path.slashes, init ++ [stem]⟩).toList ↔
      path.slashes = 0 ∧ ∃ later, init = commonDirectory :: later := by
  have start_eq : (commonDirectory ++ "/").toList = commonDirectory.toList ++ ['/'] := by simp
  rw [holds.toList_bare, start_eq]
  constructor
  · rintro ⟨rest, starts⟩
    rw [List.append_assoc, List.singleton_append] at starts
    have relative : path.slashes = 0 := by
      cases count_eq : path.slashes with
      | zero => rfl
      | succ count =>
          rw [count_eq, List.replicate_succ] at starts
          exact absurd (List.head_eq_of_cons_eq starts) (by decide)
    rw [relative, List.replicate_zero, List.nil_append] at starts
    refine ⟨relative, ?_⟩
    cases inits : init with
    | nil =>
        rw [inits, List.nil_append, Path.joined_singleton] at starts
        exact absurd (starts ▸ by simp) holds.slash_not_mem_stem
    | cons first later =>
        have clear : '/' ∉ first.toList :=
          holds.wellFormed.slash_not_mem first (by simp [holds.names_eq, inits])
        rw [inits, List.cons_append, Path.joined_cons_of_ne_nil (by simp)] at starts
        have first_eq := Path.eq_of_append_slash (by decide) clear starts
        exact ⟨later, by rw [String.toList_inj.mp first_eq]⟩
  · rintro ⟨relative, later, rfl⟩
    rw [relative, List.replicate_zero, List.nil_append, List.cons_append,
      Path.joined_cons_of_ne_nil (by simp)]
    exact ⟨Path.joined (later ++ [stem]), by simp⟩

/-- Below the common directory the location leads back to the path. -/
theorem file_below_common (holds : Holds path init stem) {later : List String}
    (relative : path.slashes = 0) (below : init = commonDirectory :: later) :
    ∃ location, ofPath path = .ok location ∧ location.file = path := by
  have starts := holds.startsCommon_iff.mpr ⟨relative, later, below⟩
  have located : ofPath path = .ok ⟨commonDirectory, String.ofList
      ((Path.text ⟨path.slashes, init ++ [stem]⟩).toList.drop
        (commonDirectory ++ "/").toList.length)⟩ := by
    rw [ofPath, holds.withSuffix_eq]
    exact if_pos (List.isPrefixOf_iff_prefix.mpr starts)
  refine ⟨_, located, ?_⟩
  have name_eq : (Path.text ⟨path.slashes, init ++ [stem]⟩).toList.drop
      (commonDirectory ++ "/").toList.length = Path.joined (later ++ [stem]) := by
    rw [holds.toList_bare, relative, below, List.replicate_zero, List.nil_append, List.cons_append,
      Path.joined_cons_of_ne_nil (by simp)]
    rfl
  have inside : ∀ name ∈ later, name ∈ init := by
    rw [below]
    exact fun name mem => List.mem_cons_of_mem _ mem
  have file_name := holds.ofText_name inside (String.toList_ofList.trans name_eq)
  rw [file, file_name]
  have directory_eq : Path.ofText commonDirectory = ⟨0, [commonDirectory]⟩ := by rfl
  rcases path with ⟨slashes, names⟩
  rw [directory_eq, show slashes = 0 from relative, show names = _ from holds.names_eq, below]
  rfl

/-- Anywhere else it does so unless the path is right below the root. -/
theorem file_elsewhere (holds : Holds path init stem)
    (elsewhere : ¬(path.slashes = 0 ∧ ∃ later, init = commonDirectory :: later)) :
    ∃ location, ofPath path = .ok location ∧
      location.file = if init = [] then ⟨0, path.names⟩ else path := by
  have located : ofPath path = .ok ⟨directoryOf path, path.stem⟩ := by
    rw [ofPath, holds.withSuffix_eq]
    exact if_neg (mt List.isPrefixOf_iff_prefix.mp (mt holds.startsCommon_iff.mp elsewhere))
  refine ⟨_, located, ?_⟩
  have file_name : Path.ofText (path.stem ++ ".yaml") = ⟨0, [stem ++ ".yaml"]⟩ := by
    rw [holds.stem_eq]
    exact holds.ofText_name (List.forall_mem_nil _) (Path.joined_singleton stem).symm
  have parent_eq : path.parent = ⟨path.slashes, init⟩ := by
    rw [Path.parent, holds.names_eq, List.dropLast_concat]
  rw [file, file_name]
  by_cases alone : init = []
  · have here : directoryOf path = "." := by
      rw [directoryOf, parent_eq, alone]
      rfl
    have current : Path.ofText "." = ⟨0, []⟩ := by rfl
    rw [here, current, if_pos alone, holds.names_eq, alone]
    rfl
  · have parent_wellFormed : path.parent.WellFormed := by
      rw [parent_eq]
      apply holds.wellFormed.of_names holds.wellFormed.slashes_le
      exact fun name mem => holds.names_eq ▸ List.mem_append_left _ mem
    have there : directoryOf path = path.parent.text := by
      have named : path.parent.name ≠ "" := by
        have mem : path.parent.name ∈ path.parent.names := by
          rw [Path.name, parent_eq, List.getLast?_eq_some_getLast alone]
          exact List.getLast_mem alone
        exact parent_wellFormed.ne_empty mem
      rw [directoryOf, if_neg (by simpa using named)]
    rw [there, parent_wellFormed.ofText_text, if_neg alone, parent_eq]
    rcases path with ⟨slashes, names⟩
    rw [show names = _ from holds.names_eq]
    rfl

/-- Located and named again, a path comes back unless it is right below the root. -/
theorem exists_file (holds : Holds path init stem) : ∃ location, ofPath path = .ok location ∧
    location.file = if path.slashes ≠ 0 ∧ init = [] then ⟨0, path.names⟩ else path := by
  by_cases common : path.slashes = 0 ∧ ∃ later, init = commonDirectory :: later
  · rcases common with ⟨relative, later, below⟩
    rcases holds.file_below_common relative below with ⟨location, located, file_eq⟩
    refine ⟨location, located, ?_⟩
    rw [file_eq, if_neg fun rooted => rooted.1 relative]
  · rcases holds.file_elsewhere common with ⟨location, located, file_eq⟩
    refine ⟨location, located, ?_⟩
    rw [file_eq]
    by_cases relative : path.slashes = 0
    · have inside : ¬(path.slashes ≠ 0 ∧ init = []) := fun rooted => rooted.1 relative
      rw [if_neg inside]
      split
      · rcases path with ⟨slashes, names⟩
        rw [show slashes = 0 from relative]
      · rfl
    · simp only [relative, ne_eq, not_false_eq_true, true_and]

end Holds

theorem exists_holds (wellFormed : path.WellFormed) (last : path.name = stem ++ ".yaml")
    (stem_ne : stem ≠ "") : ∃ init, Holds path init stem := by
  have names_ne : path.names ≠ [] := by
    intro nameless
    simp [Path.name, nameless] at last
  have last_eq : path.names.getLast names_ne = stem ++ ".yaml" := by
    simpa [Path.name, List.getLast?_eq_some_getLast names_ne] using last
  refine ⟨path.names.dropLast, wellFormed, ?_, stem_ne⟩
  rw [← last_eq, List.dropLast_concat_getLast]

/-- Whatever the text of a path whose last name has a stem and the suffix of configurations, its
location names the file at this path. A file right below the root is the exception: the location
names the file of the same name in the current directory. -/
theorem ofPath_names_file {text stem : String} (last : (Path.ofText text).name = stem ++ ".yaml")
    (stem_ne : stem ≠ "") :
    ∃ location, ofPath (Path.ofText text) = .ok location ∧
      location.file =
        if (Path.ofText text).isAbsolute = true ∧ (Path.ofText text).names.length = 1 then
          ⟨0, (Path.ofText text).names⟩
        else Path.ofText text := by
  rcases exists_holds (Path.wellFormed_ofText text) last stem_ne with ⟨init, holds⟩
  have rooted_iff : ((Path.ofText text).isAbsolute = true ∧ (Path.ofText text).names.length = 1) ↔
      (Path.ofText text).slashes ≠ 0 ∧ init = [] := by
    simp [Path.isAbsolute, holds.names_eq]
  rw [if_congr rooted_iff rfl rfl]
  exact holds.exists_file

/-- A path with slashes and dots to spare is found again. -/
theorem ofPath_names_file_dotted :
    ofPath (Path.ofText "configs//./../a.b/nim.v2.yaml") = .ok ⟨"configs", "../a.b/nim.v2"⟩ ∧
      file ⟨"configs", "../a.b/nim.v2"⟩ = Path.ofText "configs//./../a.b/nim.v2.yaml" := by
  have located : ofPath (Path.ofText "configs//./../a.b/nim.v2.yaml") =
      .ok ⟨"configs", "../a.b/nim.v2"⟩ := by rfl
  have last : (Path.ofText "configs//./../a.b/nim.v2.yaml").name = "nim.v2" ++ ".yaml" := by
    decide +kernel
  rcases ofPath_names_file last (by decide) with ⟨location, found, file_eq⟩
  rw [located, Except.ok.injEq] at found
  refine ⟨located, ?_⟩
  rw [found, file_eq]
  exact if_neg (by decide +kernel)

/-- A file right below the root is looked for in the current directory. -/
theorem ofPath_root_file :
    ¬∀ text stem : String, (Path.ofText text).name = stem ++ ".yaml" → stem ≠ "" →
      ∀ location, ofPath (Path.ofText text) = .ok location →
        location.file = Path.ofText text := by
  intro claimed
  have located : ofPath (Path.ofText "/nim.yaml") = .ok ⟨".", "nim"⟩ := by rfl
  have found := claimed "/nim.yaml" "nim" (by decide +kernel) (by decide) _ located
  revert found
  decide +kernel

end GameSearch.Config.Location
