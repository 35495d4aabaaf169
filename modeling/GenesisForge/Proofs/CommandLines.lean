import GenesisForge.CommandLine.Options
import Mathlib.Data.List.Nodup
import Mathlib.Data.List.TakeDrop

/-!
# Command lines that are read back

The options of a build are written as a command line that asks for just that build.  No
path may be empty, and no command line asks for a build with an empty path.
-/

namespace GenesisForge.CommandLine

/-! ## Options as arguments -/

namespace Options

def path? (options : Options) : PathOption → Option String
  | .config => some options.config
  | .block => some options.block
  | .shadowBlock => options.shadowBlock
  | .validators => options.validators
  | .sszOutput => options.sszOutput
  | .jsonOutput => options.jsonOutput

/-- The paths that are given, each behind its option. -/
def settings (options : Options) : List (PathOption × String) :=
  PathOption.all.filterMap fun option => (options.path? option).map (option, ·)

/-- A command line that gives the options, each path behind an equals sign. -/
def arguments (options : Options) : List String :=
  "build" :: (options.settings.map (fun setting => "--" ++ setting.1.name ++ "=" ++ setting.2) ++
    if options.standardHeader then ["--" ++ standardHeaderName] else [])

theorem path?_of_mem_settings
    {options : Options} {option : PathOption} {path : String}
    (hmem : (option, path) ∈ options.settings) : options.path? option = some path := by
  obtain ⟨other, -, hother⟩ := List.mem_filterMap.mp hmem
  obtain ⟨given, hgiven, heq⟩ := Option.map_eq_some_iff.mp hother
  cases heq
  exact hgiven

theorem nodup_settings (options : Options) : (options.settings.map (·.1)).Nodup := by
  rw [settings, List.map_filterMap]
  refine List.Nodup.filterMap ?_ (by decide)
  intro option other name hname hother
  obtain ⟨-, -, rfl⟩ := by simpa using hname
  obtain ⟨-, -, rfl⟩ := by simpa using hother
  rfl

end Options

theorem lookup_filterMap_map
    {α β : Type} [DecidableEq α] (f : α → Option β) (keys : List α) (a : α) :
    (keys.filterMap fun key => (f key).map (key, ·)).lookup a =
      if a ∈ keys then f a else none := by
  induction keys with
  | nil => rfl
  | cons key keys ih =>
      rw [List.filterMap_cons]
      by_cases hkey : a = key
      · subst hkey
        cases hf : f a with
        | none => simp [ih, hf]
        | some b => simp
      · cases hf : f key with
        | none => simp [ih, hkey]
        | some b => simp [ih, hkey, List.lookup_cons, beq_eq_false_iff_ne.mpr hkey]

theorem ofLong_assigned {name : String} (hname : '=' ∉ name.toList) (value : String) :
    Argument.ofLong (name.toList ++ '=' :: value.toList) = .ofName name (some value) := by
  have hbefore : ∀ c ∈ name.toList, (c != '=') = true := by
    intro c hc
    rw [bne_iff_ne]
    rintro rfl
    exact hname hc
  rw [Argument.ofLong, List.span_eq_takeWhile_dropWhile, List.takeWhile_append_of_pos hbefore,
    List.dropWhile_append_of_pos hbefore]
  simp

theorem ofText_assigned (option : PathOption) (path : String) :
    Argument.ofText ("--" ++ option.name ++ "=" ++ path) = .assigned option path := by
  have hname : '=' ∉ option.name.toList := by cases option <;> decide
  calc
    Argument.ofText ("--" ++ option.name ++ "=" ++ path)
        = Argument.ofLong (option.name.toList ++ '=' :: path.toList) := by
          rw [Argument.ofText, String.toList_append, String.toList_append, String.toList_append]
          cases option <;> rfl
    _ = .ofName option.name (some path) := ofLong_assigned hname path
    _ = .assigned option path := by cases option <;> rfl

theorem add?_of_new
    {given : Given} {option : PathOption} {path : String} (hpath : path ≠ "")
    (hnew : option ∉ given.paths.map (·.1)) :
    given.add? option path = some { given with paths := (option, path) :: given.paths } := by
  have hlookup : given.path? option = none := by
    rw [Given.path?, List.lookup_eq_none_iff]
    intro setting hsetting
    exact bne_iff_ne.mpr fun heq => hnew (heq ▸ List.mem_map_of_mem hsetting)
  rw [Given.add?, if_neg]
  simp [hpath, hlookup]

theorem readBuild?_settings
    (given : Given) (settings : List (PathOption × String)) (rest : List String)
    (hpaths : ∀ setting ∈ settings, setting.2 ≠ "")
    (hnodup : (settings.map (·.1)).Nodup)
    (hnew : ∀ setting ∈ settings, setting.1 ∉ given.paths.map (·.1)) :
    readBuild? given
        (settings.map (fun setting => "--" ++ setting.1.name ++ "=" ++ setting.2) ++ rest) =
      readBuild? { given with paths := settings.reverse ++ given.paths } rest := by
  induction settings generalizing given with
  | nil => rfl
  | cons setting settings ih =>
      obtain ⟨option, path⟩ := setting
      rw [List.map_cons, List.nodup_cons] at hnodup
      have hadd := add?_of_new (hpaths _ List.mem_cons_self) (hnew _ List.mem_cons_self)
      have hread := ih { given with paths := (option, path) :: given.paths }
        (fun other hother => hpaths other (List.mem_cons_of_mem _ hother)) hnodup.2
        (by
          intro other hother hmem
          rcases List.mem_cons.mp hmem with heq | hmem
          · exact hnodup.1 (List.mem_map.mpr ⟨other, hother, heq⟩)
          · exact hnew other (List.mem_cons_of_mem _ hother) hmem)
      rw [List.map_cons, List.cons_append, readBuild?, ofText_assigned]
      simp only [hadd, Option.bind_some, hread, List.reverse_cons, List.append_assoc,
        List.singleton_append]

/-- Once the paths of the options are read, each is the path of its option. -/
theorem options?_settings (options : Options) (standardHeader : Bool) :
    Given.options? ⟨options.settings.reverse, standardHeader⟩ =
      some { options with standardHeader } := by
  have hlookup : ∀ option, options.settings.reverse.lookup option = options.path? option := by
    intro option
    rw [Options.settings, ← List.filterMap_reverse, lookup_filterMap_map, if_pos]
    cases option <;> decide
  simp only [Given.options?, Given.path?, hlookup]
  rfl

/-- A command line can ask for any options whose paths are not empty. -/
theorem request?_arguments
    {options : Options} (hpaths : ∀ option, options.path? option ≠ some "") :
    request? options.arguments = some (.build options) := by
  have hgiven : ∀ setting ∈ options.settings, setting.2 ≠ "" := by
    intro (option, path) hmem hempty
    exact hpaths option (hempty ▸ Options.path?_of_mem_settings hmem)
  have hread := readBuild?_settings .empty options.settings
    (if options.standardHeader then ["--" ++ standardHeaderName] else [])
    hgiven options.nodup_settings nofun
  have hbuild : ∀ rest, request? ("build" :: rest) = readBuild? .empty rest := fun _ => rfl
  rw [Options.arguments, hbuild, hread, Given.empty, List.append_nil]
  obtain ⟨config, block, shadowBlock, validators, sszOutput, jsonOutput, standardHeader⟩ := options
  cases standardHeader with
  | false => exact congrArg (Option.map Request.build) (options?_settings _ false)
  | true => exact congrArg (Option.map Request.build) (options?_settings _ true)

/-! ## Empty paths -/

namespace Given

/-- No path that was read is empty. -/
def HasPaths (given : Given) : Prop :=
  ∀ option, given.path? option ≠ some ""

theorem hasPaths_of_add?
    {given next : Given} {option : PathOption} {path : String} (hgiven : given.HasPaths)
    (hadd : given.add? option path = some next) : next.HasPaths := by
  rw [Given.add?, Option.ite_none_left_eq_some] at hadd
  obtain ⟨hnew, heq⟩ := hadd
  cases heq
  intro other hother
  rw [Given.path?, List.lookup_cons] at hother
  split at hother
  · exact hnew (.inl (String.isEmpty_iff.mpr (Option.some.inj hother)))
  · exact hgiven other hother

theorem hasPaths_of_switchOn?
    {given next : Given} (hgiven : given.HasPaths) (hon : given.switchOn? = some next) :
    next.HasPaths := by
  rw [Given.switchOn?, Option.ite_none_left_eq_some] at hon
  obtain ⟨-, heq⟩ := hon
  cases heq
  exact hgiven

theorem path?_of_options?
    {given : Given} {options : Options} (hoptions : given.options? = some options)
    (option : PathOption) : options.path? option = given.path? option := by
  obtain ⟨config, hconfig, hoptions⟩ := Option.bind_eq_some_iff.mp hoptions
  obtain ⟨block, hblock, hoptions⟩ := Option.bind_eq_some_iff.mp hoptions
  cases hoptions
  cases option with
  | config => exact hconfig.symm
  | block => exact hblock.symm
  | shadowBlock | validators | sszOutput | jsonOutput => rfl

theorem HasPaths.path?_ne
    {given : Given} {options : Options} (hgiven : given.HasPaths)
    (hoptions : given.options?.map Request.build = some (.build options)) (option : PathOption) :
    options.path? option ≠ some "" := by
  obtain ⟨_, hoptions, heq⟩ := Option.map_eq_some_iff.mp hoptions
  cases heq
  rw [Given.path?_of_options? hoptions]
  exact hgiven option

end Given

theorem path?_ne_of_readBuild?
    {given : Given} {arguments : List String} {options : Options} (hgiven : given.HasPaths)
    (hread : readBuild? given arguments = some (.build options)) (option : PathOption) :
    options.path? option ≠ some "" := by
  fun_induction readBuild? given arguments with
  | case1 | case2 => exact hgiven.path?_ne hread option
  -- A switch or an option is added to what is given, and the rest is read with that.
  | case5 given argument rest hswitch ih =>
      obtain ⟨next, hnext, hrest⟩ := Option.bind_eq_some_iff.mp hread
      exact ih next (Given.hasPaths_of_switchOn? hgiven hnext) hrest
  | case6 given argument rest setting path hassigned ih =>
      obtain ⟨next, hnext, hrest⟩ := Option.bind_eq_some_iff.mp hread
      exact ih next (Given.hasPaths_of_add? hgiven hnext) hrest
  | case7 given argument setting hnamed path rest hvalue ih =>
      obtain ⟨next, hnext, hrest⟩ := Option.bind_eq_some_iff.mp hread
      exact ih next (Given.hasPaths_of_add? hgiven hnext) hrest
  | case3 | case4 | case8 | case9 | case10 | case11 => cases hread

theorem path?_ne_of_request?
    {arguments : List String} {options : Options}
    (hrequest : request? arguments = some (.build options)) (option : PathOption) :
    options.path? option ≠ some "" := by
  have hempty : Given.empty.HasPaths := nofun
  unfold request? at hrequest
  split at hrequest
  · cases hrequest
  · next first rest =>
      split at hrequest
      · exact path?_ne_of_readBuild? hempty hrequest option
      -- No other first argument asks for a build.
      · repeat' split at hrequest
        all_goals cases hrequest

/-- A command line can ask for the options of a build exactly if they give no empty path. -/
theorem exists_request?_iff {options : Options} :
    (∃ arguments, request? arguments = some (.build options)) ↔
      ∀ option, options.path? option ≠ some "" := by
  constructor
  · rintro ⟨arguments, hrequest⟩
    exact path?_ne_of_request? hrequest
  · intro hpaths
    exact ⟨options.arguments, request?_arguments hpaths⟩

end GenesisForge.CommandLine
