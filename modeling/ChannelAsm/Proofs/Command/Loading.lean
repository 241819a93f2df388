import ChannelAsm.Command.Basic

/-!
# Where a source comes from

A source is fetched when its name is an address, and read from a file otherwise.
`Surroundings.Loads` says what comes of it and what is recorded meanwhile, and
`Surroundings.loads_iff` that loading does just that. `Command.Builds` says that a source is there
and builds.
-/

namespace ChannelAsm

/-- The name is that of a place in the net. -/
def IsAddress (name : String) : Prop :=
  "http://".toList <+: name.toList ∨ "https://".toList <+: name.toList

namespace Surroundings

/-- `Loads surroundings name records result` says what comes of a name: what is fetched from an
address, which is recorded, or the text of a file. A file that cannot be read is named in front of
the reason. -/
inductive Loads (surroundings : Surroundings) (name : String) :
    Array Record → Except String String → Prop where
  | fetched : IsAddress name →
      Loads surroundings name #[.fetching name] (surroundings.fetch name)
  | read {source} : ¬ IsAddress name → surroundings.folder.read name = .ok source →
      Loads surroundings name #[] (.ok source)
  | unread {problem} : ¬ IsAddress name → surroundings.folder.read name = .error problem →
      Loads surroundings name #[] (.error (name ++ ": " ++ problem.message))

variable {surroundings : Surroundings} {name : String} {records : Array Record}
  {result : Except String String}

/-- A name counts as an address when it is one. -/
theorem isAddress_iff : Loaded.isAddress name = true ↔ IsAddress name := by
  rw [Loaded.isAddress, Bool.or_eq_true, List.isPrefixOf_iff_prefix, List.isPrefixOf_iff_prefix,
    IsAddress]

/-- A name in the net is fetched. -/
theorem load_of_isAddress (h : IsAddress name) :
    surroundings.load name = ⟨#[.fetching name], surroundings.fetch name⟩ := by
  rw [load, Loaded.load, if_pos (isAddress_iff.mpr h)]
  rfl

/-- Any other name is that of a file. -/
theorem load_of_not_isAddress (h : ¬ IsAddress name) :
    surroundings.load name =
      ⟨#[], ((surroundings.folder.read name).mapError FileProblem.message).mapError
        fun problem => name ++ ": " ++ problem⟩ := by
  rw [load, Loaded.load, if_neg fun haddress => h (isAddress_iff.mp haddress)]
  rfl

/-- Loading a name gives what comes of it. -/
theorem loads_iff :
    surroundings.Loads name records result ↔ surroundings.load name = ⟨records, result⟩ := by
  by_cases haddress : IsAddress name
  · rw [load_of_isAddress haddress]
    constructor
    · intro h
      cases h with
      | fetched => rfl
      | read hfile | unread hfile => exact absurd haddress hfile
    · intro h
      cases h
      exact .fetched haddress
  · rw [load_of_not_isAddress haddress]
    constructor
    · intro h
      cases h with
      | fetched hnet => exact absurd hnet haddress
      | read _ hread | unread _ hread => rw [hread]; rfl
    · intro h
      cases hread : surroundings.folder.read name with
      | ok source =>
          rw [hread] at h
          cases h
          exact .read haddress hread
      | error problem =>
          rw [hread] at h
          cases h
          exact .unread haddress hread

/-- Something comes of every name. -/
theorem exists_loads (surroundings : Surroundings) (name : String) :
    ∃ records result, surroundings.Loads name records result :=
  ⟨_, _, loads_iff.mpr rfl⟩

/-- Only one thing comes of a name. -/
theorem Loads.unique {others : Array Record} {other : Except String String}
    (h : surroundings.Loads name records result) (hother : surroundings.Loads name others other) :
    records = others ∧ result = other := by
  have heq := (loads_iff.mp h).symm.trans (loads_iff.mp hother)
  exact ⟨congrArg Loaded.records heq, congrArg Loaded.source heq⟩

/-- A file is there under its own name. -/
theorem loads_file {fetch : String → Except String String} {terminal : Terminal} (text : String) :
    Loads ⟨⟨[("a", text.toUTF8)]⟩, fetch, terminal⟩ "a" #[] (.ok text) :=
  .read (by unfold IsAddress; decide) (Folder.textOf_toUTF8 text)

end Surroundings

namespace Command

variable {given : Arguments} {surroundings : Surroundings} {records : Array Record}
  {program : Program}

/-- The source that the arguments name is there and builds. The records are those of the way to it
and those of the build. -/
def Builds (given : Arguments) (surroundings : Surroundings) (records : Array Record)
    (program : Program) : Prop :=
  ∃ loading source built, surroundings.Loads given.source loading (.ok source) ∧
    Program.build Memory.defaultCapacity source = ⟨built, .ok program⟩ ∧
    records = loading ++ built

/-- There is no source, or it does not build, or it does. -/
theorem builds_cases (given : Arguments) (surroundings : Surroundings) :
    (∃ loading problem, surroundings.Loads given.source loading (.error problem)) ∨
      (∃ loading source built diagnostic, surroundings.Loads given.source loading (.ok source) ∧
        Program.build Memory.defaultCapacity source = ⟨built, .error diagnostic⟩) ∨
      ∃ records program, Builds given surroundings records program := by
  obtain ⟨loading, result, hloads⟩ := surroundings.exists_loads given.source
  cases result with
  | error problem => exact .inl ⟨loading, problem, hloads⟩
  | ok source =>
      rcases hbuild : Program.build Memory.defaultCapacity source with ⟨built, result⟩
      cases result with
      | error diagnostic => exact .inr (.inl ⟨loading, source, built, diagnostic, hloads, hbuild⟩)
      | ok program =>
          exact .inr (.inr ⟨loading ++ built, program, loading, source, built, hloads, hbuild, rfl⟩)

/-- A source builds to one program only. -/
theorem Builds.unique {others : Array Record} {other : Program}
    (h : Builds given surroundings records program)
    (hother : Builds given surroundings others other) : records = others ∧ program = other := by
  obtain ⟨loading, source, built, hloads, hbuild, rfl⟩ := h
  obtain ⟨_, _, _, hloadsToo, hbuildToo, rfl⟩ := hother
  obtain ⟨rfl, hsource⟩ := hloads.unique hloadsToo
  cases hsource
  cases hbuild.symm.trans hbuildToo
  exact ⟨rfl, rfl⟩

end Command

end ChannelAsm
