import Teleop.Config.Store
import Teleop.Proofs.Config.Entries
import Teleop.Proofs.Files.Writing
import Teleop.Proofs.Text.ReadBack

/-!
# Configuration files read back

A file that shows some keys of a configuration is loaded as the configuration with those values and
standard values everywhere else. A configuration that was saved is loaded as it was.
-/

namespace Teleop

open Toml

variable {env : Environment} {files left : FileTree} {path : Path} {c : Config} {text : String}
  {user : User} {l : Location} {access : Access}

theorem FileTree.holds_of_read {content : Bytes} (h : files.read path user = .ok content) :
    files.holds path user = true := by
  unfold FileTree.read at h
  cases hlookup : files.lookup path user with
  | error e => simp [hlookup] at h
  | ok node => exact FileTree.holds_iff.mpr ⟨node, hlookup⟩

namespace Config

theorem load_of_read (h : files.read path user = .ok (.ofText text))
    (hparse : parse? env text = some c) : load env files path user = .ok (some c) := by
  unfold load
  simp only [FileTree.holds_of_read h, h, Text.decode?_ofText, hparse, Bool.not_true,
    Bool.false_eq_true, if_false]

theorem parse?_of_shows (hspeed : c.defaultSpeed.isNaN = false) {t : Table} {keys : Finset Key}
    (hread : read? text = some t) (h : Shows t c keys) :
    parse? env text = some (mixed keys c (standard env)) := by
  unfold parse?
  rw [hread, Option.bind_some, h.ofTable? hspeed]

theorem mixed_all (c other : Config) : mixed Key.all c other = c := by
  apply eq_of_get
  intro k
  simp [mixed, k.mem_all]

theorem parse?_render (hspeed : c.defaultSpeed.isNaN = false) : parse? env c.render = some c := by
  have hread := read?_tableOf hspeed Key.all
  rw [tableOf_all] at hread
  rw [render, parse?_of_shows hspeed hread (tableOf_all c ▸ shows_tableOf c Key.all), mixed_all]

theorem save_eq_ok (h : save c files path user = (none, left)) :
    ∃ prepared l access, prepareDirectory files path user = (none, prepared) ∧
      prepared.Written path (.ofText c.render) fileMode user l access ∧
        left = prepared.put l (.file (.ofText c.render) access) := by
  unfold save at h
  split at h
  · cases h
  · rename_i hprepared
    split at h
    · cases h
    · rename_i hwrite
      cases h
      obtain ⟨l, access, hwritten, rfl⟩ := FileTree.write_eq_ok hwrite
      exact ⟨_, l, access, hprepared, hwritten, rfl⟩

theorem read_of_save (h : save c files path user = (none, left)) :
    left.read path = .ok (.ofText c.render) := by
  obtain ⟨prepared, l, access, -, hwritten, rfl⟩ := save_eq_ok h
  exact hwritten.read_root

theorem holds_of_save (h : save c files path user = (none, left)) :
    left.holds path user = true := by
  obtain ⟨prepared, l, access, -, hwritten, rfl⟩ := save_eq_ok h
  exact hwritten.holds

theorem load_of_written (hspeed : c.defaultSpeed.isNaN = false)
    (h : files.Written path (.ofText c.render) fileMode user l access)
    (hread : access.allows user .read = true) :
    load env (files.put l (.file (.ofText c.render) access)) path user = .ok (some c) :=
  load_of_read (h.read hread) (parse?_render hspeed)

theorem load_of_save (hspeed : c.defaultSpeed.isNaN = false) (h : save c files path = (none, left)) :
    load env left path = .ok (some c) :=
  load_of_read (read_of_save h) (parse?_render hspeed)

end Config

end Teleop
