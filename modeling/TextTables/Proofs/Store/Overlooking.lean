import TextTables.Proofs.Disk.Overlooking
import TextTables.Proofs.Store.Footprint

/-!
# Work on one database overlooks the others

The paths to a database and its files keep off every zone that is neither on the way to the store
nor at the database. So all work on the database comes to the same on disks that agree off such a
zone.
-/

namespace TextTables

open Location Text

namespace Path.KeepsOff

variable {home : Location} {zone : Set Location} {path : Path} {name : String}

/-- A name in a directory is on no other way than the directory, up to its own place. -/
theorem of_join (proper : IsFileName name)
    (way : ∀ disk : Disk, disk.home = home →
      ∀ passed ∈ trail (disk.start path) path.segments, passed ∉ zone)
    (apart : ∀ disk : Disk, disk.home = home → ∀ rest, disk.endOf path ++ name :: rest ∉ zone) :
    (path.join name).KeepsOff home zone where
  way disk stays passed member := by
    rw [Disk.start_join proper, Path.join_eq proper.slashFree] at member
    rcases mem_trail_concat member with before | rfl
    · exact way disk stays passed (Path.mem_trail_front before)
    · rw [Path.reach_front, enter_name proper]
      exact apart disk stays []
  below disk stays rest := by
    have ends : reach (disk.start (path.join name)) (path.join name).segments =
        disk.endOf path ++ [name] := Disk.endOf_join proper
    rw [ends, List.append_assoc]
    exact apart disk stays rest

theorem join (off : path.KeepsOff home zone) (proper : IsFileName name) :
    (path.join name).KeepsOff home zone :=
  of_join proper off.way fun disk stays rest => off.below disk stays (name :: rest)

end Path.KeepsOff

namespace Store

open Disk
open StoreM (ofDisk)

variable {store : Store} {home : Location} {zone : Set Location} {database name : String}
  {table : Table} {directory : Path}

theorem ofDisk_overlooks {Result : Type} {work : DiskM Result} (overlooks : Overlooks home zone work) :
    Overlooks home zone (ofDisk work) :=
  overlooks.adaptExcept Error.disk

theorem unlessTaken_overlooks {work : DiskM Unit} (overlooks : Overlooks home zone work)
    (taken : Error) : Overlooks home zone (unlessTaken work taken) := by
  intro first second alike
  have both := overlooks first second alike
  unfold unlessTaken
  revert both
  cases work first <;> cases work second <;> rintro ⟨⟩ <;> rename_i alike
  · exact .ok () alike
  · rename_i fault _ _
    cases fault <;> exact .error _ alike

theorem writeCounter_overlooks (off : directory.KeepsOff home zone)
    (proper : IsFileName (table.name ++ counterEnding)) :
    Overlooks home zone (writeCounter directory table) :=
  ofDisk_overlooks (DiskM.writeText_overlooks (off.join proper) _)

theorem saveTable_overlooks (off : (store.directory database).KeepsOff home zone)
    (named : IsName table.name) : Overlooks home zone (store.saveTable database table) := by
  apply Overlooks.bind
  · exact ofDisk_overlooks (DiskM.writeText_overlooks (off.join named.isFileName_table) _)
  · exact fun _ => writeCounter_overlooks off named.isFileName_counter

theorem createTable_overlooks (off : (store.directory database).KeepsOff home zone)
    (named : IsName table.name) : Overlooks home zone (store.createTable database table) := by
  apply Overlooks.bind
  · exact unlessTaken_overlooks (DiskM.createFile_overlooks (off.join named.isFileName_table)) _
  · exact fun _ => saveTable_overlooks off named

theorem deleteTable_overlooks (off : (store.directory database).KeepsOff home zone)
    (named : IsName name) : Overlooks home zone (store.deleteTable database name) := by
  apply Overlooks.bind
  · exact ofDisk_overlooks (DiskM.removeFile_overlooks (off.join named.isFileName_table))
  · intro _ first second alike
    have both := DiskM.removeFile_overlooks (off.join named.isFileName_counter) first second alike
    dsimp only [counterPath]
    revert both
    cases DiskM.removeFile _ first <;> cases DiskM.removeFile _ second <;> rintro ⟨⟩ <;>
      rename_i alike
    · exact .ok () alike
    · rename_i fault _ _
      cases fault <;> first | exact .ok () alike | exact .error _ alike

theorem createDatabase_overlooks (off : (store.directory name).KeepsOff home zone)
    (named : IsName name) : Overlooks home zone (store.createDatabase name) :=
  unlessTaken_overlooks (DiskM.makeDirectory_overlooks named.isFileName off) _

variable {first second : Disk}

/-- What is removed is listed on a tree, where every name can be one more segment of a path. -/
theorem dropDatabase_matches (alike : Alike home zone first second) (tree : first.IsTree)
    (off : (store.directory name).KeepsOff home zone) :
    Matches home zone (store.dropDatabase name first) (store.dropDatabase name second) := by
  by_cases isDirectory : first.isDirectory (store.directory name)
  · obtain ⟨place, located, stands⟩ := Disk.isDirectory_iff.mp isDirectory
    have names := alike.names off located
    rw [dropDatabase_apply located stands, dropDatabase_apply ((alike.locate off).trans located)
      ((alike.node? off located).trans stands), names]
    refine Overlooks.bind ?_ (fun _ => ?_) first second alike
    · apply ofDisk_overlooks
      apply Overlooks.forM
      intro entry member
      exact DiskM.removeAll_overlooks (off.join (tree.named place entry (mem_names_iff.mp member)))
    · exact ofDisk_overlooks (DiskM.removeDirectory_overlooks off)
  · have missing : first.isDirectory (store.directory name) = false := by simpa using isDirectory
    have missingToo : second.isDirectory (store.directory name) = false := by
      rw [← missing, Disk.isDirectory, Disk.isDirectory, alike.lookup? off]
    rw [dropDatabase_unknown missing, dropDatabase_unknown missingToo]
    exact .error _ alike

theorem readCounter_overlooks {path : Path} (off : path.KeepsOff home zone) :
    Overlooks home zone (readCounter path) := by
  intro first second alike
  have both := DiskM.readText_overlooks off first second alike
  unfold readCounter
  revert both
  cases DiskM.readText path first <;> cases DiskM.readText path second <;> rintro ⟨⟩ <;>
    rename_i alike
  · dsimp only
    split
    · exact .ok _ alike
    · exact .error _ alike
  · rename_i fault _ _
    cases fault <;> first | exact .ok none alike | exact .error _ alike

theorem loadTable_overlooks {stem entry : String} (off : directory.KeepsOff home zone)
    (proper : IsFileName entry) (isStem : stem? entry = some stem) :
    Overlooks home zone (loadTable directory stem) := by
  have spelled := (stem?_eq_some isStem).1
  apply Overlooks.bind
  · apply ofDisk_overlooks
    apply DiskM.readText_overlooks
    rw [tablePath, ← spelled]
    exact off.join proper
  · intro text
    apply Overlooks.check
    intro table accepted
    have called := (Table.parse_eq_ok (Work.mapError_eq_ok_iff.mp accepted)).2.1
    apply Overlooks.bind
    · exact readCounter_overlooks (off.join (isFileName_counter_of_stem proper isStem))
    · intro counter
      cases counter with
      | some key => exact .pure _
      | none =>
          apply Overlooks.bind
          · apply writeCounter_overlooks off
            rw [called]
            exact isFileName_counter_lowercase proper isStem
          · exact fun _ => .pure _

theorem loadEntry_overlooks {entry : String} (off : directory.KeepsOff home zone)
    (proper : IsFileName entry) (sofar : Database) :
    Overlooks home zone (loadEntry directory sofar entry) := by
  intro first second alike
  have same : second.isFile (directory.join entry) = first.isFile (directory.join entry) := by
    rw [Disk.isFile, Disk.isFile, alike.lookup? (off.join proper)]
  rw [loadEntry_apply, loadEntry_apply, same]
  split
  · cases isStem : stem? entry with
    | none => exact .ok sofar alike
    | some stem =>
        refine Overlooks.bind ?_ (fun table => ?_) first second alike
        · exact loadTable_overlooks off proper isStem
        · exact .of_ofExcept _
  · exact .ok sofar alike

theorem loadDatabase_matches (alike : Alike home zone first second) (tree : first.IsTree)
    (off : (store.directory name).KeepsOff home zone) :
    Matches home zone (store.loadDatabase name first) (store.loadDatabase name second) := by
  by_cases isDirectory : first.isDirectory (store.directory name)
  · obtain ⟨place, located, stands⟩ := Disk.isDirectory_iff.mp isDirectory
    have names := alike.names off located
    have locatedToo := (alike.locate off).trans located
    have standsToo := (alike.node? off located).trans stands
    rw [loadDatabase_apply (.of_locate located stands) located,
      loadDatabase_apply (.of_locate locatedToo standsToo) locatedToo, names]
    refine Overlooks.foldlM (fun entry member sofar => ?_) _ first second alike
    exact loadEntry_overlooks off (tree.named place entry (mem_names_iff.mp member)) sofar
  · have missing : first.isDirectory (store.directory name) = false := by simpa using isDirectory
    have missingToo : second.isDirectory (store.directory name) = false := by
      rw [← missing, Disk.isDirectory, Disk.isDirectory, alike.lookup? off]
    rw [loadDatabase_unknown missing, loadDatabase_unknown missingToo]
    exact .error _ alike

end Store

end TextTables
