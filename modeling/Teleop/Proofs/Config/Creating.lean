import Teleop.Proofs.Config.ReadBack
import Teleop.Proofs.Files.Places

/-!
# Configurations that are made on the way

A file that is seen is never touched. If none is seen, the standard configuration is written without
the overrides, and the next start finds it. A file may be there and not be seen: then it is lost.
-/

namespace Teleop.Config

variable {env : Environment} {files left prepared : FileTree} {path dir : Path} {user : User}
  {l : Location} {content : Bytes} {access : Access}

theorem isNaN_standard (env : Environment) : (standard env).defaultSpeed.isNaN = false := by
  show Speed.standard.isNaN = false
  decide

theorem load_of_not_holds (h : files.holds path user = false) :
    load env files path user = .ok none := by
  unfold load
  rw [h]
  rfl

theorem load_of_holds (env : Environment) (h : files.holds path user = true) :
    (∃ e, load env files path user = .error e) ∨ ∃ c, load env files path user = .ok (some c) := by
  unfold load
  rw [h]
  simp only [Bool.not_true, Bool.false_eq_true, if_false]
  split
  · exact Or.inl ⟨_, rfl⟩
  · split
    · exact Or.inl ⟨_, rfl⟩
    · split
      · exact Or.inl ⟨_, rfl⟩
      · exact Or.inr ⟨_, rfl⟩

/-! ## The three ways to a configuration -/

theorem loadOrCreate_of_error {e : ConfigError} (h : load env files path user = .error e) :
    loadOrCreate env files path user = (.error e, files) := by
  unfold loadOrCreate
  rw [h]

theorem loadOrCreate_of_loaded {c : Config} (h : load env files path user = .ok (some c)) :
    loadOrCreate env files path user =
      (.ok { config := c.override env, created := false }, files) := by
  unfold loadOrCreate
  rw [h]

theorem loadOrCreate_of_holds (env : Environment) (h : files.holds path user = true) :
    (loadOrCreate env files path user).2 = files ∧
      ((∃ e, load env files path user = .error e ∧
          (loadOrCreate env files path user).1 = .error e) ∨
        ∃ c, load env files path user = .ok (some c) ∧
          (loadOrCreate env files path user).1 =
            .ok { config := c.override env, created := false }) := by
  rcases load_of_holds env h with ⟨e, he⟩ | ⟨c, hc⟩
  · rw [loadOrCreate_of_error he]
    exact ⟨rfl, Or.inl ⟨e, he, rfl⟩⟩
  · rw [loadOrCreate_of_loaded hc]
    exact ⟨rfl, Or.inr ⟨c, hc, rfl⟩⟩

theorem loadOrCreate_of_saved (hnew : files.holds path user = false)
    (hsave : save (standard env) files path user = (none, left)) :
    loadOrCreate env files path user =
      (.ok { config := (standard env).override env, created := true }, left) := by
  unfold loadOrCreate
  rw [load_of_not_holds hnew]
  simp only [hsave]

theorem loadOrCreate_of_unsaved {e : ConfigError} (hnew : files.holds path user = false)
    (hsave : save (standard env) files path user = (some e, left)) :
    loadOrCreate env files path user = (.error e, left) := by
  unfold loadOrCreate
  rw [load_of_not_holds hnew]
  simp only [hsave]

theorem loadOrCreate_eq_ok {found : Loaded} (hnew : files.holds path user = false)
    (h : loadOrCreate env files path user = (.ok found, left)) :
    save (standard env) files path user = (none, left) ∧
      found = { config := (standard env).override env, created := true } := by
  rcases hsave : save (standard env) files path user with ⟨_ | e, saved⟩
  · rw [loadOrCreate_of_saved hnew hsave] at h
    cases h
    exact ⟨rfl, rfl⟩
  · rw [loadOrCreate_of_unsaved hnew hsave] at h
    cases h

/-! ## Old files in new places -/

theorem file_of_prepareDirectory (h : prepareDirectory files path user = (none, prepared))
    (hfile : prepared.get? l = some (.file content access)) :
    files.get? l = some (.file content access) := by
  unfold prepareDirectory at h
  split at h
  · cases h
    exact hfile
  · rename_i dir _
    split at h
    · cases h
    · rename_i made hmade
      split at h
      · cases h
      · rename_i hset
        cases h
        have hempty : dir ≠ "" := by
          rintro rfl
          cases hset
        have hdir := (FileTree.isDirectory_makeDirectories hmade).resolve_left hempty
        exact FileTree.file_of_makeDirectories hmade (FileTree.file_of_setMode hdir hset hfile)

/-- What a user saved he loads again, unless he saved it over an old file that he may not read. -/
theorem load_of_save_or_old (env : Environment) {c : Config}
    (hspeed : c.defaultSpeed.isNaN = false) (h : save c files path user = (none, left)) :
    load env left path user = .ok (some c) ∨ ∃ l content access, left.locate path = .ok l ∧
      files.get? l = some (.file content access) ∧ access.allows user .read = false := by
  obtain ⟨prepared, l, access, hprepared, hwritten, rfl⟩ := save_eq_ok h
  cases hread : access.allows user .read with
  | true => exact Or.inl (load_of_written hspeed hwritten hread)
  | false =>
    rcases hwritten.node with ⟨old, hold, -⟩ | ⟨-, rfl⟩
    · exact Or.inr ⟨l, old, access, hwritten.relocated,
        file_of_prepareDirectory hprepared hold, hread⟩
    · -- A new file is open to whoever makes it.
      rw [Access.allows_owning user (by decide)] at hread
      cases hread

/-! ## What a start finds -/

/-- What a start comes to for the user who makes it. -/
structure FindsOrMakes (env : Environment) (files : FileTree) (path : Path) (user : User) :
    Prop where
  /-- What the user sees at the path stays as it is, whatever it is. -/
  seen : files.holds path user = true →
    (loadOrCreate env files path user).2 = files ∧
      ((∃ e, load env files path user = .error e ∧
          (loadOrCreate env files path user).1 = .error e) ∨
        ∃ c, load env files path user = .ok (some c) ∧
          (loadOrCreate env files path user).1 =
            .ok { config := c.override env, created := false })
  /-- If he sees nothing then the standard configuration is written there without the overrides. -/
  unseen : ∀ (found : Loaded) (left : FileTree), files.holds path user = false →
    loadOrCreate env files path user = (.ok found, left) →
      found = { config := (standard env).override env, created := true } ∧
        left.read path = .ok (.ofText (standard env).render)
  /-- The next start changes nothing and finds what was written, unless that went into an old file
  that the user may write and may not read. -/
  again : ∀ (found : Loaded) (left : FileTree), files.holds path user = false →
    loadOrCreate env files path user = (.ok found, left) →
      (loadOrCreate env left path user).2 = left ∧
        ((loadOrCreate env left path user).1 = .ok { found with created := false } ∨
          ∃ l content access, left.locate path = .ok l ∧
            files.get? l = some (.file content access) ∧ access.allows user .read = false)
  absent : ¬ files.Stands path → files.holds path user = false
  /-- What is there is seen, but for a user who is kept from looking, and for a path that ends in a
  slash. -/
  overlooked : files.Stands path → files.holds path user = false →
    Path.endsInSlash path = true ∨
      user.isRoot = false ∧ files.lookup path user = .error .denied

/-- What is seen at the path stays as it is. Where nothing is seen the standard configuration is
written without the overrides, and the next start finds it and changes nothing. -/
theorem overrides_not_written (env : Environment) (files : FileTree) (path : Path) (user : User) :
    FindsOrMakes env files path user where
  seen := loadOrCreate_of_holds env
  unseen found left hnew hfound := by
    obtain ⟨hsave, rfl⟩ := loadOrCreate_eq_ok hnew hfound
    exact ⟨rfl, read_of_save hsave⟩
  again found left hnew hfound := by
    obtain ⟨hsave, rfl⟩ := loadOrCreate_eq_ok hnew hfound
    refine ⟨(loadOrCreate_of_holds env (holds_of_save hsave)).1, ?_⟩
    rcases load_of_save_or_old env (isNaN_standard env) hsave with hload | hold
    · exact Or.inl (congrArg Prod.fst (loadOrCreate_of_loaded hload))
    · exact Or.inr hold
  absent hnone := Bool.eq_false_iff.mpr fun hholds => hnone (FileTree.stands_of_holds hholds)
  overlooked hstands hunseen := hstands.of_unseen hunseen

/-- The owner of a directory may have shut himself out of it. Then he does not see the configuration
in it, opens the directory again and writes over the old file. Behind a slash the file is not seen
either, and the mode of its directory changes. -/
theorem overlooked_configuration_replaced :
    let pi : User := { id := 1000, group := 1000 }
    let old : Node := .file (.ofText "control_port = 7\n") (pi.owning 0o600)
    let home (mode : Nat) (config : Node) : FileTree :=
      { nodes := [(["pi", ".robopi", "config.toml"], config),
          (["pi", ".robopi"], .directory (pi.owning mode)), (["pi"], .directory (pi.owning 0o755))] }
    let started := loadOrCreate {} (home 0o600 old) "/pi/.robopi/config.toml" pi
    let misspelt := loadOrCreate {} (home 0o755 old) "/pi/.robopi/config.toml/" pi
    (home 0o600 old).Stands "/pi/.robopi/config.toml" ∧
      started.1 = .ok { config := (standard {}).override {}, created := true } ∧
      started.2.read "/pi/.robopi/config.toml" = .ok (.ofText (standard {}).render) ∧
      (home 0o755 old).Stands "/pi/.robopi/config.toml/" ∧
      misspelt.1 = .error (.cannotWrite "/pi/.robopi/config.toml/" .isDirectory) ∧
      misspelt.2.lookup "/pi/.robopi" = .ok (.directory (pi.owning 0o700)) := by
  refine ⟨⟨_, _, rfl, rfl⟩, ?_, ?_, ⟨_, _, rfl, rfl⟩, ?_, ?_⟩
  · rfl
  · rfl
  · rfl
  · rfl

/-! ## Where the file can be made -/

theorem all_directoryMode (permission : Permission) :
    directoryMode.testBit (6 + permission.bit) = true := by
  cases permission <;> decide

theorem prepareDirectory_of_dir {made : FileTree} (hdir : Path.parent? path = some dir)
    (hmade : files.makeDirectories dir user = (none, made)) (hchange : made.IsChangeable dir user) :
    ∃ left, prepareDirectory files path user = (none, left) ∧
      (made.Takes path user → left.Takes path user) := by
  obtain ⟨left, hmode, hleft⟩ := hchange.setMode all_directoryMode
  refine ⟨left, ?_, hleft path⟩
  unfold prepareDirectory
  simp only [hdir, hmade, hmode]

theorem prepareDirectory_of_empty (hdir : Path.parent? path = some "") :
    prepareDirectory files path user = (some (.cannotRestrict "" .noEntry), files) := by
  unfold prepareDirectory
  rw [hdir]
  simp only [FileTree.makeDirectories_of_isDirectory (t := files) (p := "") (Or.inl rfl)]
  rfl

theorem prepareDirectory_of_makesRoom (hroom : files.MakesRoom path user)
    (hdir : Path.parent? path ≠ some "") :
    ∃ prepared, prepareDirectory files path user = (none, prepared) ∧ prepared.Takes path user := by
  obtain ⟨made, htakes, hmade⟩ := hroom
  cases hparent : Path.parent? path with
  | none =>
    rw [hparent] at hmade
    subst hmade
    exact ⟨made, by rw [prepareDirectory, hparent], htakes⟩
  | some dir =>
    rw [hparent] at hmade hdir
    obtain ⟨hmade, hchange⟩ := hmade
    have hne : dir ≠ "" := fun h => hdir (congrArg some h)
    obtain ⟨prepared, hprepared, hkeeps⟩ :=
      prepareDirectory_of_dir hparent hmade (hchange.resolve_left hne)
    exact ⟨prepared, hprepared, hkeeps htakes⟩

theorem save_of_makesRoom {c : Config} (hspeed : c.defaultSpeed.isNaN = false)
    (hroom : files.MakesRoom path user) (hdir : Path.parent? path ≠ some "") :
    ∃ left, save c files path user = (none, left) ∧
      load env left path user = .ok (some c) := by
  obtain ⟨prepared, hprepared, htakes⟩ := prepareDirectory_of_makesRoom hroom hdir
  obtain ⟨left, hwrite⟩ := htakes.write (.ofText c.render) fileMode
  obtain ⟨l, access, hwritten, rfl⟩ := FileTree.write_eq_ok hwrite
  exact ⟨_, by simp only [save, hprepared, hwrite],
    load_of_written hspeed hwritten (htakes.read_of_written (by decide) hwritten)⟩

theorem save_of_empty (c : Config) (hdir : Path.parent? path = some "") :
    save c files path user = (some (.cannotRestrict "" .noEntry), files) := by
  unfold save
  rw [prepareDirectory_of_empty hdir]

/-- The standard configuration is written wherever there is room for a file, except where the directory
of the path is the empty path, as it is for a bare name: there nothing is ever written. -/
theorem creates_but_for_bare_names (env : Environment) (files : FileTree) (path : Path)
    (user : User) (hnew : files.holds path user = false) (hroom : files.MakesRoom path user) :
    (Path.parent? path ≠ some "" → ∃ left,
      loadOrCreate env files path user =
          (.ok { config := (standard env).override env, created := true }, left) ∧
        load env left path user = .ok (some (standard env))) ∧
      (Path.parent? path = some "" →
        loadOrCreate env files path user = (.error (.cannotRestrict "" .noEntry), files)) ∧
      ('/' ∉ path.toList → Path.parent? path = some "") := by
  refine ⟨?_, ?_, ?_⟩
  · intro hdir
    obtain ⟨left, hsave, hload⟩ := save_of_makesRoom (isNaN_standard env) hroom hdir
    exact ⟨left, loadOrCreate_of_saved hnew hsave, hload⟩
  · intro hdir
    exact loadOrCreate_of_unsaved hnew (save_of_empty (standard env) hdir)
  · intro hbare
    apply Path.parent?_of_bare _ hbare
    rintro rfl
    obtain ⟨made, htakes, -⟩ := hroom
    exact made.not_takes_empty user htakes

theorem makesRoom_bare : ({} : FileTree).MakesRoom "config.toml" := by
  refine ⟨{}, ⟨rfl, ["config.toml"], rfl, FileTree.isFree_of_none rfl, ?_, ?_⟩, rfl, Or.inl rfl⟩
  · intro content access h
    cases h
  · exact fun _ => ⟨0o755, rfl, rfl⟩

/-- Below two directories that have to be made, and as a bare name. -/
theorem creates_below_etc :
    (∃ left,
      loadOrCreate {} {} "/etc/robopi/config.toml" =
          (.ok { config := (standard {}).override {}, created := true }, left) ∧
        load {} left "/etc/robopi/config.toml" = .ok (some (standard {}))) ∧
      loadOrCreate {} {} "config.toml" = (.error (.cannotRestrict "" .noEntry), {}) := by
  let made : FileTree :=
    { nodes := [(["etc", "robopi"], .directory 0o755), (["etc"], .directory 0o755)] }
  have htakes : made.Takes "/etc/robopi/config.toml" := by
    refine ⟨rfl, ["etc", "robopi", "config.toml"], rfl, FileTree.isFree_of_none rfl, ?_, ?_⟩
    · intro content access h
      cases h
    · exact fun _ => ⟨0o755, rfl, rfl⟩
  have hchange : made.IsChangeable "/etc/robopi" .root := ⟨["etc", "robopi"], 0o755, rfl, rfl, rfl⟩
  have hbelow := creates_but_for_bare_names {} {} "/etc/robopi/config.toml" .root rfl
    ⟨made, htakes, rfl, Or.inr hchange⟩
  have hbare := creates_but_for_bare_names {} {} "config.toml" .root rfl makesRoom_bare
  exact ⟨hbelow.1 (by decide), hbare.2.1 rfl⟩

/-- It is not so that the file is made wherever there is room for it. -/
theorem not_created_under_bare_name :
    ¬ ∀ (env : Environment) (files : FileTree) (path : Path), path ≠ "" → files.holds path = false →
      files.MakesRoom path → ∃ found left, loadOrCreate env files path = (.ok found, left) ∧
        found.created = true ∧ ∃ c, load env left path = .ok (some c) := by
  intro h
  obtain ⟨found, left, hfound, -⟩ := h {} {} "config.toml" (by decide) rfl makesRoom_bare
  rw [loadOrCreate_of_unsaved rfl (save_of_empty (standard {}) rfl)] at hfound
  cases hfound

end Teleop.Config
